import Mathlib.Data.List.Induction

/-!
# Runs of partial machines with observations

A machine is a function `step : σ → ε → Option (σ × List ο)`: an event that
is enabled leads to a next state and to the observations it makes visible.
All nondeterminism (schedules, answers of an environment, clock readings)
lives in the events, so a run is nothing but a list of events.

## Main results

* `run_invariant`, `run_invariant_along` — a predicate on the state and the
  trace so far that every step preserves holds after every run; in the second
  form every step may assume a condition on the state before it.
* `run_history_invariant` — the same for predicates that also look at the
  events so far.
* `along_iff_forall_split` — a condition holds along a run exactly when it
  holds before each of its steps.
* `everyEvent_cons_iff`, `along_recording_iff_everyEvent` — conditions on an event that
  also look at the events before and after it.
* `chronicle_iff_along`, `trace_iff_along` — every observation of a run is
  good exactly when a condition holds along the run, provided that the two
  agree on each step from an invariant state; in the first form an
  observation is judged by what was shown before it.
* `throughout_iff_forall_run` — a state predicate holds throughout a run
  exactly when it holds after each of its prefixes.
* `throughout_iff_along` — the exactness rule for state predicates.
* `run_map`, `run_of_map_eq` — homomorphisms: what commutes with a step commutes
  with a run, so two runs with the same image show the same image.
* `run_chronicle_along` — the run rule for observations judged by what was shown before them.
* `run_projection` — a machine whose steps are steps of another one or invisible to it runs
  that one.
* `run_unwinding` — hiding events: two runs with the same visible events show
  the same, if hidden steps keep a relation between the two states and show
  nothing, and visible steps keep it and show the same.
* `run_without` — steps that a quotient of the states does not see can be left out of a run.
* `run_lockstep` — relational invariants of two runs that take their steps together.
-/

namespace PaymentConnector.Library.Machine

universe u v w x

variable {σ : Type u} {ε : Type v} {ο : Type w} {α : Type x}

section Runs

variable (step : σ → ε → Option (σ × List ο))

/-- Feed a list of events to the machine, collecting the observations. -/
def run : σ → List ε → Option (σ × List ο)
  | s, [] => some (s, [])
  | s, e :: es =>
      match step s e with
      | none => none
      | some (s₁, o₁) =>
          match run s₁ es with
          | none => none
          | some (s₂, o₂) => some (s₂, o₁ ++ o₂)

/-- `C` holds of the state before and the event at every step of the run. -/
def Along (C : σ → ε → Prop) : σ → List ε → Prop
  | _, [] => True
  | s, e :: es => C s e ∧ ∀ s₁ o₁, step s e = some (s₁, o₁) → Along C s₁ es

/-- `P` holds in every state of the run, the first and the last included. -/
def Throughout (P : σ → Prop) : σ → List ε → Prop
  | s, [] => P s
  | s, e :: es => P s ∧ ∀ s₁ o₁, step s e = some (s₁, o₁) → Throughout P s₁ es

/-- What a run shows in the steps that `sel` picks. -/
def shownIn (sel : ε → Bool) : σ → List ε → List ο
  | _, [] => []
  | s, e :: es =>
      match step s e with
      | none => []
      | some (s₁, o₁) => (if sel e then o₁ else []) ++ shownIn sel s₁ es

/-- What `f` makes of the events of a run, each in the state in which it is taken. -/
def translate (f : σ → ε → Option α) : σ → List ε → List α
  | _, [] => []
  | s, e :: es =>
      (f s e).toList ++
        match step s e with
        | none => []
        | some (s', _) => translate f s' es

/-- `C` holds of every event of the run, given the events before it, the state in which
it happens and the events after it. -/
def EveryEvent (C : List ε → σ → ε → List ε → Prop) (s : σ) (es : List ε) : Prop :=
  ∀ past e rest s₁ tr₁, es = past ++ e :: rest → run step s past = some (s₁, tr₁) →
    C past s₁ e rest

variable {step}

theorem run_nil_iff {s s' : σ} {tr : List ο} :
    run step s [] = some (s', tr) ↔ s' = s ∧ tr = [] := by
  simp only [run, Option.some.injEq, Prod.mk.injEq]
  exact ⟨fun h => ⟨h.1.symm, h.2.symm⟩, fun h => ⟨h.1.symm, h.2.symm⟩⟩

theorem run_cons_iff {s s' : σ} {e : ε} {es : List ε} {tr : List ο} :
    run step s (e :: es) = some (s', tr) ↔
      ∃ s₁ o₁ tr₁, step s e = some (s₁, o₁) ∧ run step s₁ es = some (s', tr₁) ∧
        tr = o₁ ++ tr₁ := by
  constructor
  · intro h
    simp only [run] at h
    cases hs : step s e with
    | none => simp [hs] at h
    | some r =>
        obtain ⟨s₁, o₁⟩ := r
        simp only [hs] at h
        cases hr : run step s₁ es with
        | none => simp [hr] at h
        | some q =>
            obtain ⟨s₂, o₂⟩ := q
            simp only [hr, Option.some.injEq, Prod.mk.injEq] at h
            obtain ⟨rfl, rfl⟩ := h
            exact ⟨s₁, o₁, o₂, rfl, hr, rfl⟩
  · rintro ⟨s₁, o₁, tr₁, hs, hr, rfl⟩
    simp only [run, hs, hr]

theorem run_append_iff {s s' : σ} {es fs : List ε} {tr : List ο} :
    run step s (es ++ fs) = some (s', tr) ↔
      ∃ s₁ tr₁ tr₂, run step s es = some (s₁, tr₁) ∧ run step s₁ fs = some (s', tr₂) ∧
        tr = tr₁ ++ tr₂ := by
  induction es generalizing s tr with
  | nil =>
      constructor
      · exact fun h => ⟨s, [], tr, rfl, h, rfl⟩
      · rintro ⟨s₁, tr₁, tr₂, h₁, h₂, rfl⟩
        obtain ⟨rfl, rfl⟩ := run_nil_iff.mp h₁
        exact h₂
  | cons e es ih =>
      rw [List.cons_append, run_cons_iff]
      constructor
      · rintro ⟨s₁, o₁, tr₁, hs, hr, rfl⟩
        obtain ⟨s₂, tr₂, tr₃, h₂, h₃, rfl⟩ := ih.mp hr
        exact ⟨s₂, o₁ ++ tr₂, tr₃, run_cons_iff.mpr ⟨s₁, o₁, tr₂, hs, h₂, rfl⟩, h₃,
          (List.append_assoc _ _ _).symm⟩
      · rintro ⟨s₂, tr₂, tr₃, h₂, h₃, rfl⟩
        obtain ⟨s₁, o₁, tr₁, hs, hr, rfl⟩ := run_cons_iff.mp h₂
        exact ⟨s₁, o₁, tr₁ ++ tr₃, hs, ih.mpr ⟨s₂, tr₁, tr₃, hr, h₃, rfl⟩,
          List.append_assoc _ _ _⟩

/-- A run, cut at one of its steps. -/
theorem run_cut {s s' : σ} {es₁ es₂ : List ε} {e : ε} {tr : List ο}
    (h : run step s (es₁ ++ e :: es₂) = some (s', tr)) :
    ∃ s₁ tr₁ s₂ o tr₂, run step s es₁ = some (s₁, tr₁) ∧ step s₁ e = some (s₂, o) ∧
      run step s₂ es₂ = some (s', tr₂) := by
  obtain ⟨s₁, tr₁, tr', h₁, h', -⟩ := run_append_iff.mp h
  obtain ⟨s₂, o, tr₂, hs, h₂, -⟩ := run_cons_iff.mp h'
  exact ⟨s₁, tr₁, s₂, o, tr₂, h₁, hs, h₂⟩

/-- One step, seen as a run. -/
theorem run_singleton {s s' : σ} {e : ε} {o : List ο} (h : step s e = some (s', o)) :
    run step s [e] = some (s', o) :=
  run_cons_iff.mpr ⟨s', o, [], h, rfl, (List.append_nil o).symm⟩

/-- A run on fixed inputs, and what is decided of its end and its trace. -/
theorem exists_run {P : σ → List ο → Prop} [∀ s tr, Decidable (P s tr)] {s : σ} {es : List ε}
    (h : ((run step s es).any fun r => decide (P r.1 r.2)) = true) :
    ∃ s' tr, run step s es = some (s', tr) ∧ P s' tr := by
  cases hrun : run step s es with
  | none =>
      rw [hrun] at h
      cases h
  | some r =>
      rw [hrun] at h
      exact ⟨r.1, r.2, rfl, of_decide_eq_true h⟩

/-! ## Invariants -/

private theorem run_invariant_from {C : σ → ε → Prop} {I : σ → List ο → Prop}
    (hstep : ∀ s tr e s' o, I s tr → C s e → step s e = some (s', o) → I s' (tr ++ o))
    {es : List ε} :
    ∀ {s s' : σ} {tr₀ tr : List ο}, I s tr₀ → Along step C s es →
      run step s es = some (s', tr) → I s' (tr₀ ++ tr) := by
  induction es with
  | nil =>
      intro s s' tr₀ tr hI _ hrun
      obtain ⟨rfl, rfl⟩ := run_nil_iff.mp hrun
      rwa [List.append_nil]
  | cons e es ih =>
      intro s s' tr₀ tr hI hC hrun
      obtain ⟨s₁, o₁, tr₁, hs, hr, rfl⟩ := run_cons_iff.mp hrun
      have hI₁ := hstep s tr₀ e s₁ o₁ hI hC.1 hs
      have hrest := ih hI₁ (hC.2 s₁ o₁ hs) hr
      rwa [List.append_assoc] at hrest

/-- Run rule with a condition: what each step preserves under a condition on
the state before it, every run along which the condition holds preserves. -/
theorem run_invariant_along {C : σ → ε → Prop} {I : σ → List ο → Prop}
    (hstep : ∀ s tr e s' o, I s tr → C s e → step s e = some (s', o) → I s' (tr ++ o))
    {es : List ε} {s s' : σ} {tr : List ο} (hI : I s []) (hC : Along step C s es)
    (hrun : run step s es = some (s', tr)) : I s' tr := by
  have h := run_invariant_from hstep hI hC hrun
  rwa [List.nil_append] at h

theorem along_of_forall {C : σ → ε → Prop} {es : List ε} (h : ∀ s, ∀ e ∈ es, C s e) :
    ∀ s, Along step C s es := by
  induction es with
  | nil => exact fun _ => trivial
  | cons e es ih =>
      intro s
      refine ⟨h s e (by simp), fun s₁ o₁ _ => ih ?_ s₁⟩
      exact fun s' e' he' => h s' e' (List.mem_cons_of_mem e he')

/-- Run rule: what each step preserves, every run preserves. -/
theorem run_invariant {I : σ → List ο → Prop}
    (hstep : ∀ s tr e s' o, I s tr → step s e = some (s', o) → I s' (tr ++ o))
    {es : List ε} {s s' : σ} {tr : List ο} (hI : I s [])
    (hrun : run step s es = some (s', tr)) : I s' tr :=
  run_invariant_along (fun s tr e s' o h _ => hstep s tr e s' o h) hI
    (along_of_forall (fun _ _ _ => trivial) s) hrun

/-- Run rule for predicates on the state alone. -/
theorem run_state_invariant {I : σ → Prop}
    (hstep : ∀ s e s' o, I s → step s e = some (s', o) → I s')
    {es : List ε} {s s' : σ} {tr : List ο} (hI : I s)
    (hrun : run step s es = some (s', tr)) : I s' :=
  run_invariant (I := fun s _ => I s) (fun s _ e s' o h hs => hstep s e s' o h hs) hI hrun

theorem run_concat_iff {s s' : σ} {es : List ε} {e : ε} {tr : List ο} :
    run step s (es ++ [e]) = some (s', tr) ↔
      ∃ s₁ tr₁ o, run step s es = some (s₁, tr₁) ∧ step s₁ e = some (s', o) ∧ tr = tr₁ ++ o := by
  rw [run_append_iff]
  constructor
  · intro h
    obtain ⟨s₁, tr₁, tr₂, hrun, hlast, htr⟩ := h
    obtain ⟨s₂, o, tr₃, hs, hnil, rfl⟩ := run_cons_iff.mp hlast
    obtain ⟨rfl, rfl⟩ := run_nil_iff.mp hnil
    rw [List.append_nil] at htr
    exact ⟨s₁, tr₁, o, hrun, hs, htr⟩
  · intro h
    obtain ⟨s₁, tr₁, o, hrun, hs, htr⟩ := h
    exact ⟨s₁, tr₁, o, hrun, run_singleton hs, htr⟩

/-- One more step of a run, seen through a selection. -/
theorem shownIn_concat {sel : ε → Bool} {es : List ε} {e : ε} {o : List ο} :
    ∀ {s s₁ s₂ : σ} {tr : List ο}, run step s es = some (s₁, tr) → step s₁ e = some (s₂, o) →
      shownIn step sel s (es ++ [e]) = shownIn step sel s es ++ if sel e then o else [] := by
  induction es with
  | nil =>
      intro s s₁ s₂ tr hrun hs
      obtain ⟨rfl, -⟩ := run_nil_iff.mp hrun
      simp only [List.nil_append, shownIn, hs, List.append_nil]
  | cons e' es ih =>
      intro s s₁ s₂ tr hrun hs
      obtain ⟨s', o', tr', hs', hr, -⟩ := run_cons_iff.mp hrun
      simp only [List.cons_append, shownIn, hs', ih hr hs, List.append_assoc]

/-- One more step of a run, translated. -/
theorem translate_concat (f : σ → ε → Option α) (e : ε) {es : List ε} :
    ∀ {s s' : σ} {tr : List ο}, run step s es = some (s', tr) →
      translate step f s (es ++ [e]) = translate step f s es ++ (f s' e).toList := by
  induction es with
  | nil =>
      intro s s' tr hrun
      obtain ⟨rfl, -⟩ := run_nil_iff.mp hrun
      show (f _ e).toList ++ _ = [] ++ (f _ e).toList
      rw [List.nil_append]
      cases step s' e <;> exact List.append_nil _
  | cons e' es ih =>
      intro s s' tr hrun
      obtain ⟨s₁, o₁, tr₁, hs, hrest, -⟩ := run_cons_iff.mp hrun
      simp only [List.cons_append, translate, hs]
      rw [ih hrest, List.append_assoc]

/-- Run rule for predicates that also look at the events so far: what each step
after a run preserves, every run preserves. -/
theorem run_history_invariant {I : List ε → σ → List ο → Prop} {s₀ : σ}
    (hstep : ∀ es s tr e s' o, run step s₀ es = some (s, tr) → I es s tr →
      step s e = some (s', o) → I (es ++ [e]) s' (tr ++ o))
    (hI : I [] s₀ []) {es : List ε} :
    ∀ {s : σ} {tr : List ο}, run step s₀ es = some (s, tr) → I es s tr := by
  induction es using List.reverseRecOn with
  | nil =>
      intro s tr hrun
      obtain ⟨rfl, rfl⟩ := run_nil_iff.mp hrun
      exact hI
  | append_singleton es e ih =>
      intro s tr hrun
      obtain ⟨s₁, tr₁, o, hprefix, hs, rfl⟩ := run_concat_iff.mp hrun
      exact hstep es s₁ tr₁ e s o hprefix (ih hprefix) hs

/-! ## Conditions along a run -/

theorem along_and {C D : σ → ε → Prop} {es : List ε} :
    ∀ {s : σ}, Along step (fun s e => C s e ∧ D s e) s es ↔
      Along step C s es ∧ Along step D s es := by
  induction es with
  | nil => exact fun {s} => ⟨fun _ => ⟨trivial, trivial⟩, fun _ => trivial⟩
  | cons e es ih =>
      intro s
      constructor
      · rintro ⟨⟨hC, hD⟩, h⟩
        exact ⟨⟨hC, fun s₁ o₁ hs => (ih.mp (h s₁ o₁ hs)).1⟩,
          ⟨hD, fun s₁ o₁ hs => (ih.mp (h s₁ o₁ hs)).2⟩⟩
      · rintro ⟨⟨hC, h₁⟩, ⟨hD, h₂⟩⟩
        exact ⟨⟨hC, hD⟩, fun s₁ o₁ hs => ih.mpr ⟨h₁ s₁ o₁ hs, h₂ s₁ o₁ hs⟩⟩

/-- A condition holds along a run exactly when it holds before each step. -/
theorem along_iff_forall_split {C : σ → ε → Prop} {es : List ε} :
    ∀ {s : σ}, Along step C s es ↔
      ∀ es₁ e es₂ s₁ tr₁, es = es₁ ++ e :: es₂ → run step s es₁ = some (s₁, tr₁) →
        C s₁ e := by
  induction es with
  | nil =>
      intro s
      refine ⟨fun _ es₁ e es₂ s₁ tr₁ h => ?_, fun _ => trivial⟩
      simp at h
  | cons e es ih =>
      intro s
      constructor
      · rintro ⟨hC, h⟩ es₁ e' es₂ s₁ tr₁ heq hrun
        cases es₁ with
        | nil =>
            simp only [List.nil_append, List.cons.injEq] at heq
            obtain ⟨rfl, rfl⟩ := run_nil_iff.mp hrun
            exact heq.1 ▸ hC
        | cons e'' es₁ =>
            simp only [List.cons_append, List.cons.injEq] at heq
            obtain ⟨rfl, heq⟩ := heq
            obtain ⟨s₂, o₂, tr₂, hs, hr, -⟩ := run_cons_iff.mp hrun
            exact ih.mp (h s₂ o₂ hs) es₁ e' es₂ s₁ tr₂ heq hr
      · intro h
        refine ⟨h [] e es s [] rfl rfl, fun s₁ o₁ hs => ih.mpr ?_⟩
        intro es₁ e' es₂ s₂ tr₂ heq hr
        exact h (e :: es₁) e' es₂ s₂ (o₁ ++ tr₂) (by rw [heq, List.cons_append])
          (run_cons_iff.mpr ⟨s₁, o₁, tr₂, hs, hr, rfl⟩)

/-- What holds of every event of a run holds of the first one, and of every event of the
run from the next state on. -/
theorem everyEvent_cons_iff {C : List ε → σ → ε → List ε → Prop} {s : σ} {e : ε} {es : List ε} :
    EveryEvent step C s (e :: es) ↔
      C [] s e es ∧
        ∀ s₁ o₁, step s e = some (s₁, o₁) → EveryEvent step (fun past => C (e :: past)) s₁ es := by
  constructor
  · intro h
    refine ⟨h [] e es s [] rfl rfl, ?_⟩
    intro s₁ o₁ hs past e' rest s₂ tr₂ heq hrun
    exact h (e :: past) e' rest s₂ (o₁ ++ tr₂) (by rw [heq, List.cons_append])
      (run_cons_iff.mpr ⟨s₁, o₁, tr₂, hs, hrun, rfl⟩)
  · intro h past e' rest s₂ tr₂ heq hrun
    cases past with
    | nil =>
        simp only [List.nil_append, List.cons.injEq] at heq
        obtain ⟨rfl, rfl⟩ := heq
        obtain ⟨rfl, -⟩ := run_nil_iff.mp hrun
        exact h.1
    | cons e'' past =>
        simp only [List.cons_append, List.cons.injEq] at heq
        obtain ⟨rfl, heq⟩ := heq
        obtain ⟨s₁, o₁, tr₁, hs, hr, -⟩ := run_cons_iff.mp hrun
        exact h.2 s₁ o₁ hs past e' rest s₂ tr₁ heq hr

/-- What holds along a run holds along its prefixes. -/
theorem along_of_append {C : σ → ε → Prop} {es fs : List ε} :
    ∀ {s : σ}, Along step C s (es ++ fs) → Along step C s es := by
  induction es with
  | nil => exact fun _ => trivial
  | cons e es ih => exact fun h => ⟨h.1, fun s₁ o₁ hs => ih (h.2 s₁ o₁ hs)⟩

/-- What holds along a run holds along its first part, and from where that ends. -/
theorem along_append_iff {C : σ → ε → Prop} {es fs : List ε} :
    ∀ {s s' : σ} {tr : List ο}, run step s es = some (s', tr) →
      (Along step C s (es ++ fs) ↔ Along step C s es ∧ Along step C s' fs) := by
  induction es with
  | nil =>
      intro s s' tr hrun
      rw [(run_nil_iff.mp hrun).1]
      exact ⟨fun h => ⟨trivial, h⟩, fun h => h.2⟩
  | cons e es ih =>
      intro s s' tr hrun
      obtain ⟨s₁, o₁, tr₁, hs, hr, -⟩ := run_cons_iff.mp hrun
      constructor
      · intro h
        obtain ⟨hfirst, hrest⟩ := (ih hr).mp (h.2 s₁ o₁ hs)
        refine ⟨⟨h.1, fun s₂ o₂ hs₂ => ?_⟩, hrest⟩
        cases hs.symm.trans hs₂
        exact hfirst
      · rintro ⟨h, hrest⟩
        refine ⟨h.1, fun s₂ o₂ hs₂ => ?_⟩
        cases hs.symm.trans hs₂
        exact (ih hr).mpr ⟨h.2 s₁ o₁ hs, hrest⟩

/-- What holds along a run and before one more step holds along the longer run. -/
theorem along_concat_iff {C : σ → ε → Prop} {es : List ε} {e : ε} {s s' : σ} {tr : List ο}
    (hrun : run step s es = some (s', tr)) :
    Along step C s (es ++ [e]) ↔ Along step C s es ∧ C s' e := by
  rw [along_append_iff hrun]
  exact and_congr_right fun _ => ⟨fun h => h.1, fun h => ⟨h, fun _ _ _ => trivial⟩⟩

/-- A condition holds before some step of a run unless its negation holds
along the run. -/
theorem not_along_not_iff {C : σ → ε → Prop} {es : List ε} {s : σ} :
    ¬ Along step (fun s e => ¬ C s e) s es ↔
      ∃ es₁ e es₂ s₁ tr₁, es = es₁ ++ e :: es₂ ∧ run step s es₁ = some (s₁, tr₁) ∧ C s₁ e := by
  rw [along_iff_forall_split]
  push Not
  rfl

private theorem along_imp_from {C D : σ → ε → Prop} {I : σ → List ο → Prop}
    (hstep : ∀ s tr e s' o, I s tr → C s e → step s e = some (s', o) → I s' (tr ++ o))
    (hCD : ∀ s tr e, I s tr → C s e → D s e) {es : List ε} :
    ∀ {s : σ} {tr : List ο}, I s tr → Along step C s es → Along step D s es := by
  induction es with
  | nil => exact fun _ _ => trivial
  | cons e es ih =>
      intro s tr hI hC
      refine ⟨hCD s tr e hI hC.1, ?_⟩
      intro s₁ o₁ hs
      exact ih (hstep s tr e s₁ o₁ hI hC.1 hs) (hC.2 s₁ o₁ hs)

/-- A condition along a run, with an invariant it keeps, gives every condition
that the two give at each step. -/
theorem along_imp {C D : σ → ε → Prop} {I : σ → List ο → Prop}
    (hstep : ∀ s tr e s' o, I s tr → C s e → step s e = some (s', o) → I s' (tr ++ o))
    (hCD : ∀ s tr e, I s tr → C s e → D s e) {es : List ε} {s : σ} (hI : I s [])
    (hC : Along step C s es) : Along step D s es :=
  along_imp_from hstep hCD hI hC

instance decidableAlong {C : σ → ε → Prop} [∀ s e, Decidable (C s e)] :
    ∀ s es, Decidable (Along step C s es)
  | _, [] => isTrue trivial
  | s, e :: es =>
      match h : step s e with
      | none => decidable_of_iff (C s e)
          ⟨fun hC => ⟨hC, fun s₁ o₁ hs => by rw [h] at hs; cases hs⟩, fun hC => hC.1⟩
      | some (s₁, o₁) =>
          have : Decidable (Along step C s₁ es) := decidableAlong s₁ es
          decidable_of_iff (C s e ∧ Along step C s₁ es)
            ⟨fun hC => ⟨hC.1, fun s₂ o₂ hs => by rw [h] at hs; cases hs; exact hC.2⟩,
              fun hC => ⟨hC.1, hC.2 s₁ o₁ h⟩⟩

/-- Two conditions that agree in every invariant state hold along the same
runs. -/
theorem along_congr {C D : σ → ε → Prop} {I : σ → Prop}
    (hstep : ∀ s e s' o, I s → step s e = some (s', o) → I s')
    (hCD : ∀ s e, I s → (C s e ↔ D s e)) {es : List ε} {s : σ} (hI : I s) :
    Along step C s es ↔ Along step D s es := by
  constructor
  · exact along_imp (I := fun s _ => I s) (fun s _ e s' o h _ hs => hstep s e s' o h hs)
      (fun s _ e h hC => (hCD s e h).mp hC) hI
  · exact along_imp (I := fun s _ => I s) (fun s _ e s' o h _ hs => hstep s e s' o h hs)
      (fun s _ e h hD => (hCD s e h).mpr hD) hI

/-- The same for conditions that agree on the steps that a run takes. -/
theorem along_congr_run {C D : σ → ε → Prop} {I : σ → Prop}
    (hstep : ∀ s e s' o, I s → step s e = some (s', o) → I s')
    (hCD : ∀ s e s' o, I s → step s e = some (s', o) → (C s e ↔ D s e)) {es : List ε} :
    ∀ {s s' : σ} {tr : List ο}, I s → run step s es = some (s', tr) →
      (Along step C s es ↔ Along step D s es) := by
  induction es with
  | nil => exact fun _ _ => Iff.rfl
  | cons e es ih =>
      intro s s' tr hI hrun
      obtain ⟨s₁, o₁, tr₁, hs, hr, -⟩ := run_cons_iff.mp hrun
      have hhere := hCD s e s₁ o₁ hI hs
      have hrest := ih (hstep s e s₁ o₁ hI hs) hr
      constructor
      · intro hC
        refine ⟨hhere.mp hC.1, fun s₂ o₂ hs₂ => ?_⟩
        obtain ⟨rfl, rfl⟩ : s₁ = s₂ ∧ o₁ = o₂ := by simpa using hs.symm.trans hs₂
        exact hrest.mp (hC.2 s₁ o₁ hs)
      · intro hD
        refine ⟨hhere.mpr hD.1, fun s₂ o₂ hs₂ => ?_⟩
        obtain ⟨rfl, rfl⟩ : s₁ = s₂ ∧ o₁ = o₂ := by simpa using hs.symm.trans hs₂
        exact hrest.mpr (hD.2 s₁ o₁ hs)

/-- Conditions on the events alone hold along a run that goes through exactly
when they hold of each event. -/
theorem along_event_iff {C : ε → Prop} {es : List ε} :
    ∀ {s s' : σ} {tr : List ο}, run step s es = some (s', tr) →
      (Along step (fun _ e => C e) s es ↔ ∀ e ∈ es, C e) := by
  induction es with
  | nil => exact fun _ => ⟨fun _ e he => absurd he List.not_mem_nil, fun _ => trivial⟩
  | cons e es ih =>
      intro s s' tr hrun
      obtain ⟨s₁, o₁, tr₁, hs, hr, -⟩ := run_cons_iff.mp hrun
      constructor
      · intro h e' he'
        rcases List.mem_cons.mp he' with heq | hrest
        · rw [heq]
          exact h.1
        · exact (ih hr).mp (h.2 s₁ o₁ hs) e' hrest
      · exact fun h => along_of_forall (fun _ e' he' => h e' he') s

/-! ## Histories -/

/-- Every observation fits what was shown before it, `h` and the earlier
observations. -/
def Chronicle (F : List ο → ο → Prop) : List ο → List ο → Prop
  | _, [] => True
  | h, x :: xs => F h x ∧ Chronicle F (h ++ [x]) xs

theorem chronicle_append {F : List ο → ο → Prop} {xs ys : List ο} :
    ∀ {h : List ο}, Chronicle F h (xs ++ ys) ↔ Chronicle F h xs ∧ Chronicle F (h ++ xs) ys := by
  induction xs with
  | nil =>
      intro h
      rw [List.append_nil]
      exact ⟨fun hys => ⟨trivial, hys⟩, fun hys => hys.2⟩
  | cons x xs ih =>
      intro h
      show F h x ∧ Chronicle F (h ++ [x]) (xs ++ ys) ↔
        (F h x ∧ Chronicle F (h ++ [x]) xs) ∧ Chronicle F (h ++ x :: xs) ys
      rw [ih, List.append_assoc, List.singleton_append, and_assoc]

theorem chronicle_singleton {F : List ο → ο → Prop} {x : ο} {h : List ο} :
    Chronicle F h [x] ↔ F h x :=
  ⟨fun hF => hF.1, fun hF => ⟨hF, trivial⟩⟩

/-- Observations that fit every history do not count. -/
theorem chronicle_append_of_forall {F : List ο → ο → Prop} {xs ys : List ο} {h : List ο}
    (hxs : ∀ x ∈ xs, ∀ h, F h x) :
    Chronicle F h (xs ++ ys) ↔ Chronicle F (h ++ xs) ys := by
  induction xs generalizing h with
  | nil => rw [List.nil_append, List.append_nil]
  | cons x xs ih =>
      have hrest := ih (h := h ++ [x]) (fun y hy => hxs y (List.mem_cons_of_mem x hy))
      rw [List.append_assoc, List.singleton_append] at hrest
      rw [← hrest]
      exact ⟨fun hF => hF.2, fun hF => ⟨hxs x List.mem_cons_self h, hF⟩⟩

/-- Run rule for histories: what each step keeps, given that what it shows fits the trace
so far, every run keeps, and its trace fits. -/
theorem run_chronicle_along {C : σ → ε → Prop} {I : σ → List ο → Prop}
    {F : List ο → ο → Prop}
    (hstep : ∀ s tr e s' o, I s tr → C s e → step s e = some (s', o) →
      I s' (tr ++ o) ∧ Chronicle F tr o)
    {es : List ε} {s s' : σ} {tr : List ο} (hI : I s []) (halong : Along step C s es)
    (hrun : run step s es = some (s', tr)) : I s' tr ∧ Chronicle F [] tr := by
  refine run_invariant_along (I := fun s tr => I s tr ∧ Chronicle F [] tr) ?_
    ⟨hI, trivial⟩ halong hrun
  intro s tr e s' o hboth hC hs
  obtain ⟨hnext, hfits⟩ := hstep s tr e s' o hboth.1 hC hs
  refine ⟨hnext, chronicle_append.mpr ⟨hboth.2, ?_⟩⟩
  rw [List.nil_append]
  exact hfits

/-- Without history: a predicate on single observations. -/
theorem chronicle_const_iff {F : ο → Prop} {xs : List ο} :
    ∀ {h : List ο}, Chronicle (fun _ => F) h xs ↔ ∀ x ∈ xs, F x := by
  induction xs with
  | nil => exact ⟨fun _ x hx => absurd hx List.not_mem_nil, fun _ => trivial⟩
  | cons x xs ih =>
      intro h
      show F x ∧ Chronicle (fun _ => F) (h ++ [x]) xs ↔ _
      rw [ih, List.forall_mem_cons]

instance decidableChronicle {F : List ο → ο → Prop} [∀ h x, Decidable (F h x)] :
    ∀ h xs, Decidable (Chronicle F h xs)
  | _, [] => inferInstanceAs (Decidable True)
  | h, x :: xs => @instDecidableAnd (F h x) _ _ (decidableChronicle (h ++ [x]) xs)

/-- The machine that remembers what it has shown. -/
def recording (step : σ → ε → Option (σ × List ο)) (q : σ × List ο) (e : ε) :
    Option ((σ × List ο) × List ο) :=
  match step q.1 e with
  | none => none
  | some (s', o) => some ((s', q.2 ++ o), o)

theorem recording_eq_some_iff {s : σ} {h : List ο} {e : ε} {q : σ × List ο} {o : List ο} :
    recording step (s, h) e = some (q, o) ↔ step s e = some (q.1, o) ∧ q.2 = h ++ o := by
  unfold recording
  cases hs : step s e with
  | none => simp
  | some r =>
      simp only [Option.some.injEq, Prod.ext_iff]
      constructor
      · intro h'
        obtain ⟨⟨h₁, h₂⟩, h₃⟩ := h'
        exact ⟨⟨h₁, h₃⟩, by rw [← h₂, h₃]⟩
      · intro h'
        obtain ⟨⟨h₁, h₃⟩, h₂⟩ := h'
        exact ⟨⟨h₁, by rw [h₂, h₃]⟩, h₃⟩

/-- Conditions that ignore the history. -/
theorem along_recording_iff {C : σ → ε → Prop} {es : List ε} :
    ∀ {s : σ} {h : List ο},
      Along (recording step) (fun q e => C q.1 e) (s, h) es ↔ Along step C s es := by
  induction es with
  | nil => exact Iff.rfl
  | cons e es ih =>
      intro s h
      constructor
      · intro hC
        refine ⟨hC.1, ?_⟩
        intro s₁ o₁ hs
        exact ih.mp (hC.2 (s₁, h ++ o₁) o₁ (recording_eq_some_iff.mpr ⟨hs, rfl⟩))
      · intro hC
        refine ⟨hC.1, ?_⟩
        intro q o hq
        obtain ⟨s₁, h₁⟩ := q
        exact ih.mpr (hC.2 s₁ o (recording_eq_some_iff.mp hq).1)

private theorem run_recording_iff {es : List ε} :
    ∀ {s : σ} {h : List ο} {q : σ × List ο} {tr : List ο},
      run (recording step) (s, h) es = some (q, tr) ↔
        run step s es = some (q.1, tr) ∧ q.2 = h ++ tr := by
  induction es with
  | nil =>
      intro s h q tr
      rw [run_nil_iff, run_nil_iff, Prod.ext_iff]
      constructor
      · rintro ⟨⟨hs, hh⟩, rfl⟩
        exact ⟨⟨hs, rfl⟩, by rw [hh, List.append_nil]⟩
      · rintro ⟨⟨hs, rfl⟩, hh⟩
        exact ⟨⟨hs, by rw [hh, List.append_nil]⟩, rfl⟩
  | cons e es ih =>
      intro s h q tr
      rw [run_cons_iff, run_cons_iff]
      constructor
      · rintro ⟨⟨s₁, h₁⟩, o₁, tr₁, hs, hr, rfl⟩
        obtain ⟨hstep, rfl⟩ := recording_eq_some_iff.mp hs
        obtain ⟨hrest, hh⟩ := ih.mp hr
        exact ⟨⟨s₁, o₁, tr₁, hstep, hrest, rfl⟩, by rw [hh, List.append_assoc]⟩
      · rintro ⟨⟨s₁, o₁, tr₁, hstep, hrest, rfl⟩, hh⟩
        exact ⟨(s₁, h ++ o₁), o₁, tr₁, recording_eq_some_iff.mpr ⟨hstep, rfl⟩,
          ih.mpr ⟨hrest, by rw [hh, List.append_assoc]⟩, rfl⟩

/-- A condition on what was shown before each step is one on the events before it, where
an invariant of the two and the state makes the conditions equivalent. -/
theorem along_recording_iff_everyEvent {C : σ × List ο → ε → Prop}
    {D : List ε → σ → ε → List ε → Prop} {I : List ε → σ → List ο → Prop} {s : σ}
    (hI : ∀ past s₁ tr₁, run step s past = some (s₁, tr₁) → I past s₁ tr₁)
    (hCD : ∀ past s₁ tr₁ e rest, I past s₁ tr₁ → (C (s₁, tr₁) e ↔ D past s₁ e rest))
    {es : List ε} : Along (recording step) C (s, []) es ↔ EveryEvent step D s es := by
  rw [along_iff_forall_split]
  constructor
  · intro h past e rest s₁ tr₁ heq hrun
    exact (hCD past s₁ tr₁ e rest (hI past s₁ tr₁ hrun)).mp
      (h past e rest (s₁, tr₁) tr₁ heq (run_recording_iff.mpr ⟨hrun, rfl⟩))
  · intro h past e rest q tr₁ heq hrun
    obtain ⟨hstep, hq⟩ := run_recording_iff.mp hrun
    obtain ⟨s₁, tr₂⟩ := q
    rw [show tr₂ = tr₁ from hq]
    exact (hCD past s₁ tr₁ e rest (hI past s₁ tr₁ hstep)).mpr (h past e rest s₁ tr₁ heq hstep)

private theorem chronicle_iff_along_from {F : List ο → ο → Prop} {C : σ × List ο → ε → Prop}
    {I : σ → List ο → Prop}
    (hstep : ∀ s tr e s' o, I s tr → step s e = some (s', o) → Chronicle F tr o → I s' (tr ++ o))
    (hFC : ∀ s tr e s' o, I s tr → step s e = some (s', o) →
      (Chronicle F tr o ↔ C (s, tr) e))
    {es : List ε} :
    ∀ {s s' : σ} {tr₀ tr : List ο}, I s tr₀ → run step s es = some (s', tr) →
      (Chronicle F tr₀ tr ↔ Along (recording step) C (s, tr₀) es) := by
  induction es with
  | nil =>
      intro s s' tr₀ tr _ hrun
      rw [(run_nil_iff.mp hrun).2]
      exact Iff.rfl
  | cons e es ih =>
      intro s s' tr₀ tr hI hrun
      obtain ⟨s₁, o₁, tr₁, hs, hr, rfl⟩ := run_cons_iff.mp hrun
      have hhere := hFC s tr₀ e s₁ o₁ hI hs
      rw [chronicle_append]
      constructor
      · intro hF
        refine ⟨hhere.mp hF.1, ?_⟩
        intro q o hq
        obtain ⟨hs', hq₂⟩ := recording_eq_some_iff.mp hq
        obtain ⟨rfl, rfl⟩ : s₁ = q.1 ∧ o₁ = o := by simpa using hs.symm.trans hs'
        have hrest := (ih (hstep s tr₀ e q.1 o₁ hI hs hF.1) hr).mp hF.2
        rwa [← hq₂] at hrest
      · intro hC
        have hF := hhere.mpr hC.1
        refine ⟨hF, (ih (hstep s tr₀ e s₁ o₁ hI hs hF) hr).mpr ?_⟩
        exact hC.2 (s₁, tr₀ ++ o₁) o₁ (recording_eq_some_iff.mpr ⟨hs, rfl⟩)

/-- Exactness rule: if good steps keep an invariant, and from an invariant
state a step is good exactly under `C`, then a run is good exactly when `C`
holds along it. -/
theorem chronicle_iff_along {F : List ο → ο → Prop} {C : σ × List ο → ε → Prop}
    {I : σ → List ο → Prop}
    (hstep : ∀ s tr e s' o, I s tr → step s e = some (s', o) → Chronicle F tr o → I s' (tr ++ o))
    (hFC : ∀ s tr e s' o, I s tr → step s e = some (s', o) →
      (Chronicle F tr o ↔ C (s, tr) e))
    {es : List ε} {s s' : σ} {tr : List ο} (hI : I s [])
    (hrun : run step s es = some (s', tr)) :
    Chronicle F [] tr ↔ Along (recording step) C (s, []) es :=
  chronicle_iff_along_from hstep hFC hI hrun

/-- The exactness rule for predicates on single observations. -/
theorem trace_iff_along {F : ο → Prop} {C : σ → ε → Prop} {I : σ → List ο → Prop}
    (hstep : ∀ s tr e s' o, I s tr → step s e = some (s', o) → (∀ x ∈ o, F x) → I s' (tr ++ o))
    (hFC : ∀ s tr e s' o, I s tr → step s e = some (s', o) → ((∀ x ∈ o, F x) ↔ C s e))
    {es : List ε} {s s' : σ} {tr : List ο} (hI : I s [])
    (hrun : run step s es = some (s', tr)) :
    (∀ x ∈ tr, F x) ↔ Along step C s es := by
  rw [← along_recording_iff, ← chronicle_const_iff]
  refine chronicle_iff_along ?_ ?_ hI hrun
  · intro s tr e s' o hI hs hF
    exact hstep s tr e s' o hI hs (chronicle_const_iff.mp hF)
  · intro s tr e s' o hI hs
    rw [chronicle_const_iff]
    exact hFC s tr e s' o hI hs

/-! ## State predicates -/

/-- A state predicate holds throughout a run exactly when it holds after each
of its prefixes. -/
theorem throughout_iff_forall_run {P : σ → Prop} {es : List ε} :
    ∀ {s : σ}, Throughout step P s es ↔
      ∀ es₁ es₂ s₁ tr₁, es = es₁ ++ es₂ → run step s es₁ = some (s₁, tr₁) → P s₁ := by
  induction es with
  | nil =>
      intro s
      constructor
      · intro h es₁ es₂ s₁ tr₁ heq hrun
        obtain ⟨rfl, -⟩ := List.append_eq_nil_iff.mp heq.symm
        obtain ⟨rfl, -⟩ := run_nil_iff.mp hrun
        exact h
      · exact fun h => h [] [] s [] rfl rfl
  | cons e es ih =>
      intro s
      constructor
      · rintro ⟨hP, h⟩ es₁ es₂ s₁ tr₁ heq hrun
        cases es₁ with
        | nil =>
            obtain ⟨rfl, -⟩ := run_nil_iff.mp hrun
            exact hP
        | cons e' es₁ =>
            simp only [List.cons_append, List.cons.injEq] at heq
            obtain ⟨rfl, heq⟩ := heq
            obtain ⟨s₂, o₂, tr₂, hs, hr, -⟩ := run_cons_iff.mp hrun
            exact ih.mp (h s₂ o₂ hs) es₁ es₂ s₁ tr₂ heq hr
      · intro h
        refine ⟨h [] (e :: es) s [] rfl rfl, fun s₁ o₁ hs => ih.mpr ?_⟩
        intro es₁ es₂ s₂ tr₂ heq hr
        exact h (e :: es₁) es₂ s₂ (o₁ ++ tr₂) (by rw [heq, List.cons_append])
          (run_cons_iff.mpr ⟨s₁, o₁, tr₂, hs, hr, rfl⟩)

theorem throughout_head {P : σ → Prop} {es : List ε} {s : σ} (h : Throughout step P s es) :
    P s := by
  cases es with
  | nil => exact h
  | cons e es => exact h.1

/-- The exactness rule for state predicates: if from a good invariant state a step
leads to a good state exactly under `C`, then a run that starts in a good state
stays in good states exactly when `C` holds along it. -/
theorem throughout_iff_along {P : σ → Prop} {C : σ → ε → Prop} {I : σ → Prop}
    (hstep : ∀ s e s' o, I s → step s e = some (s', o) → I s')
    (hPC : ∀ s e s' o, I s → P s → step s e = some (s', o) → (P s' ↔ C s e)) {es : List ε} :
    ∀ {s s' : σ} {tr : List ο}, I s → P s → run step s es = some (s', tr) →
      (Throughout step P s es ↔ Along step C s es) := by
  induction es with
  | nil => exact fun _ hP _ => ⟨fun _ => trivial, fun _ => hP⟩
  | cons e es ih =>
      intro s s' tr hI hP hrun
      obtain ⟨s₁, o₁, tr₁, hs, hr, -⟩ := run_cons_iff.mp hrun
      have hI₁ := hstep s e s₁ o₁ hI hs
      have hhere := hPC s e s₁ o₁ hI hP hs
      constructor
      · intro h
        have hP₁ := throughout_head (h.2 s₁ o₁ hs)
        refine ⟨hhere.mp hP₁, fun s₂ o₂ hs₂ => ?_⟩
        obtain ⟨rfl, rfl⟩ : s₁ = s₂ ∧ o₁ = o₂ := by simpa using hs.symm.trans hs₂
        exact (ih hI₁ hP₁ hr).mp (h.2 s₁ o₁ hs)
      · intro h
        have hP₁ := hhere.mpr h.1
        refine ⟨hP, fun s₂ o₂ hs₂ => ?_⟩
        obtain ⟨rfl, rfl⟩ : s₁ = s₂ ∧ o₁ = o₂ := by simpa using hs.symm.trans hs₂
        exact (ih hI₁ hP₁ hr).mpr (h.2 s₁ o₁ hs)

end Runs

/-! ## Homomorphisms -/

section Homomorphism

universe u' v' w'

variable {σ' : Type u'} {ε' : Type v'} {ο' : Type w'} {step : σ → ε → Option (σ × List ο)}
  {step' : σ' → ε' → Option (σ' × List ο')} {f : σ → σ'} {g : ε → ε'} {h : ο → ο'}

/-- Maps of states, events and observations that commute with the steps commute
with the runs. -/
theorem run_map
    (hstep : ∀ s e, step' (f s) (g e) = (step s e).map (fun r => (f r.1, r.2.map h)))
    (es : List ε) :
    ∀ s, run step' (f s) (es.map g) = (run step s es).map (fun r => (f r.1, r.2.map h)) := by
  induction es with
  | nil => exact fun _ => rfl
  | cons e es ih =>
      intro s
      rw [List.map_cons]
      unfold run
      rw [hstep]
      cases hs : step s e with
      | none => rfl
      | some r =>
          obtain ⟨s₁, o₁⟩ := r
          simp only [Option.map_some, ih s₁]
          cases run step s₁ es with
          | none => rfl
          | some q => simp only [Option.map_some, List.map_append]

/-- Two runs that look the same through such maps: the second goes through when
the first does, and they show the same through the map. -/
theorem run_of_map_eq
    (hstep : ∀ s e, step' (f s) (g e) = (step s e).map (fun r => (f r.1, r.2.map h)))
    {es fs : List ε} {s t s' : σ} {tr : List ο} (hs : f s = f t) (hes : es.map g = fs.map g)
    (hrun : run step s es = some (s', tr)) :
    ∃ t' tr', run step t fs = some (t', tr') ∧ f s' = f t' ∧ tr.map h = tr'.map h := by
  have hfirst := run_map hstep es s
  have hsecond := run_map hstep fs t
  rw [hs, hes, hsecond, hrun] at hfirst
  cases ht : run step t fs with
  | none =>
      rw [ht] at hfirst
      cases hfirst
  | some r =>
      rw [ht] at hfirst
      simp only [Option.map_some, Option.some.injEq, Prod.mk.injEq] at hfirst
      exact ⟨r.1, r.2, rfl, hfirst.1.symm, hfirst.2.symm⟩

end Homomorphism

/-! ## Leaving steps out -/

section Omission

universe u'

variable {σ' : Type u'} (step : σ → ε → Option (σ × List ο)) (idle : σ → ε → Bool)

/-- The events of a run, but for those that are idle in the state that they find. -/
def without : σ → List ε → List ε
  | _, [] => []
  | s, e :: es =>
      match step s e with
      | none => []
      | some (s₁, _) => if idle s e then without s₁ es else e :: without s₁ es

variable {step idle} {f : σ → σ'}

/-- Let states with one image take the same steps, and idle steps keep the image.  Then a run
goes through without its idle steps; it ends with the same image and shows the same, but for
what idle steps show. -/
theorem run_without
    (hcongr : ∀ s t e s' o, f s = f t → step s e = some (s', o) →
      ∃ t', step t e = some (t', o) ∧ f s' = f t')
    {shown : ο → Bool}
    (hidle : ∀ s e s' o, step s e = some (s', o) → idle s e = true →
      f s' = f s ∧ o.filter shown = []) (es : List ε) :
    ∀ {s t s' : σ} {tr : List ο}, f s = f t → run step s es = some (s', tr) →
      ∃ t' tr', run step t (without step idle s es) = some (t', tr') ∧ f s' = f t' ∧
        tr'.Sublist tr ∧ tr'.filter shown = tr.filter shown := by
  induction es with
  | nil =>
      intro s t s' tr hst hrun
      obtain ⟨rfl, rfl⟩ := run_nil_iff.mp hrun
      exact ⟨t, [], rfl, hst, List.Sublist.refl _, rfl⟩
  | cons e es ih =>
      intro s t s' tr hst hrun
      obtain ⟨s₁, o₁, tr₁, hs, hr, rfl⟩ := run_cons_iff.mp hrun
      have hwithout : without step idle s (e :: es) =
          if idle s e then without step idle s₁ es else e :: without step idle s₁ es := by
        rw [without, hs]
      rw [hwithout]
      by_cases hquiet : idle s e = true
      · obtain ⟨hkept, hnothing⟩ := hidle s e s₁ o₁ hs hquiet
        obtain ⟨t', tr', hrun', himage, hsub, hsame⟩ := ih (hkept.trans hst) hr
        rw [if_pos hquiet, List.filter_append, hnothing, List.nil_append]
        exact ⟨t', tr', hrun', himage, hsub.trans (List.sublist_append_right o₁ tr₁), hsame⟩
      · obtain ⟨t₁, ht, hst₁⟩ := hcongr s t e s₁ o₁ hst hs
        obtain ⟨t', tr', hrun', himage, hsub, hsame⟩ := ih hst₁ hr
        rw [if_neg hquiet, List.filter_append, ← hsame, ← List.filter_append]
        exact ⟨t', o₁ ++ tr', run_cons_iff.mpr ⟨t₁, o₁, tr', ht, hrun', rfl⟩, himage,
          hsub.append_left o₁, rfl⟩

end Omission

section Projection

universe u' v' w'

variable {σ' : Type u'} {ε' : Type v'} {ο' : Type w'} {step : σ → ε → Option (σ × List ο)}
  {step' : σ' → ε' → Option (σ' × List ο')} {f : σ → σ'} {g : ο → Option ο'}

/-- Projections: where every step is, seen through a map of the states and a choice of the
observations, no step or one of the other machine, a run is one of its runs. -/
theorem run_projection
    (hstep : ∀ s e s' o, step s e = some (s', o) →
      (f s' = f s ∧ o.filterMap g = []) ∨
        ∃ e', step' (f s) e' = some (f s', o.filterMap g))
    {es : List ε} :
    ∀ {s s' : σ} {tr : List ο}, run step s es = some (s', tr) →
      ∃ es', run step' (f s) es' = some (f s', tr.filterMap g) := by
  induction es with
  | nil =>
      intro s s' tr hrun
      obtain ⟨rfl, rfl⟩ := run_nil_iff.mp hrun
      exact ⟨[], rfl⟩
  | cons e es ih =>
      intro s s' tr hrun
      obtain ⟨s₁, o₁, tr₁, hs, hr, rfl⟩ := run_cons_iff.mp hrun
      obtain ⟨es', hrest⟩ := ih hr
      rw [List.filterMap_append]
      rcases hstep s e s₁ o₁ hs with ⟨hsame, hnil⟩ | ⟨e', he'⟩
      · rw [hnil, List.nil_append, ← hsame]
        exact ⟨es', hrest⟩
      · exact ⟨e' :: es', run_cons_iff.mpr ⟨_, _, _, he', hrest, rfl⟩⟩

end Projection

/-! ## Hiding events -/

section Unwinding

variable {ω : Type w} {step : σ → ε → Option (σ × List ο)}

variable {C D : σ → ε → Prop} {R : σ → σ → Prop} {visible : ε → Bool} {shown : ο → Option ω}

private theorem run_hidden
    (hright : ∀ s t e t' o, R s t → D t e → visible e = false → step t e = some (t', o) →
      R s t' ∧ o.filterMap shown = [])
    {es : List ε} (hhidden : ∀ e ∈ es, visible e = false) :
    ∀ {s t t' : σ} {tr : List ο}, R s t → Along step D t es → run step t es = some (t', tr) →
      R s t' ∧ tr.filterMap shown = [] := by
  induction es with
  | nil =>
      intro s t t' tr hR _ hrun
      obtain ⟨rfl, rfl⟩ := run_nil_iff.mp hrun
      exact ⟨hR, rfl⟩
  | cons e es ih =>
      intro s t t' tr hR hD hrun
      obtain ⟨t₁, o₁, tr₁, ht, hr, rfl⟩ := run_cons_iff.mp hrun
      obtain ⟨hR₁, hnil⟩ := hright s t e t₁ o₁ hR hD.1 (hhidden e List.mem_cons_self) ht
      have hrest := ih (fun e' he' => hhidden e' (List.mem_cons_of_mem e he')) hR₁
        (hD.2 t₁ o₁ ht) hr
      rw [List.filterMap_append, hnil, List.nil_append]
      exact hrest

/-- Unwinding: a hidden step of either run keeps the relation and shows
nothing, and a visible step taken by both runs keeps it and shows the same;
then two runs with the same visible events show the same. -/
theorem run_unwinding
    (hleft : ∀ s t e s' o, R s t → C s e → visible e = false → step s e = some (s', o) →
      R s' t ∧ o.filterMap shown = [])
    (hright : ∀ s t e t' o, R s t → D t e → visible e = false → step t e = some (t', o) →
      R s t' ∧ o.filterMap shown = [])
    (hboth : ∀ s t e s' t' o₁ o₂, R s t → C s e → D t e → visible e = true →
      step s e = some (s', o₁) → step t e = some (t', o₂) →
      R s' t' ∧ o₁.filterMap shown = o₂.filterMap shown)
    {es : List ε} :
    ∀ {fs : List ε} {s t s' t' : σ} {tr₁ tr₂ : List ο}, R s t → Along step C s es →
      Along step D t fs → run step s es = some (s', tr₁) → run step t fs = some (t', tr₂) →
      es.filter visible = fs.filter visible →
      tr₁.filterMap shown = tr₂.filterMap shown := by
  induction es with
  | nil =>
      intro fs s t s' t' tr₁ tr₂ hR _ hD hrun₁ hrun₂ heq
      have hhidden : ∀ e ∈ fs, visible e = false := by
        intro e he
        have hnone := List.filter_eq_nil_iff.mp heq.symm e he
        simpa using hnone
      rw [(run_nil_iff.mp hrun₁).2, (run_hidden hright hhidden hR hD hrun₂).2]
      rfl
  | cons e es ih =>
      intro fs s t s' t' tr₁ tr₂ hR hC hD hrun₁ hrun₂ heq
      obtain ⟨s₁, o₁, tr, hs, hr, rfl⟩ := run_cons_iff.mp hrun₁
      have hC₁ := hC.2 s₁ o₁ hs
      cases hv : visible e with
      | false =>
          obtain ⟨hR₁, hnil⟩ := hleft s t e s₁ o₁ hR hC.1 hv hs
          rw [List.filter_cons_of_neg (by simp [hv])] at heq
          rw [List.filterMap_append, hnil, List.nil_append]
          exact ih hR₁ hC₁ hD hr hrun₂ heq
      | true =>
          -- The other run takes some hidden steps and then this one.
          rw [List.filter_cons_of_pos hv] at heq
          obtain ⟨hs₀, fs', rfl, hhidden, -, hrest⟩ := List.filter_eq_cons_iff.mp heq.symm
          obtain ⟨t₁, tr', tr'', ht₁, ht', rfl⟩ := run_append_iff.mp hrun₂
          obtain ⟨t₂, o₂, tr₂, ht₂, hr₂, rfl⟩ := run_cons_iff.mp ht'
          have hD₀ : Along step D t hs₀ := along_of_append hD
          have hD₁ := ((along_append_iff ht₁).mp hD).2
          obtain ⟨hR₁, hnil⟩ := run_hidden hright (fun e' he' => by simpa using hhidden e' he')
            hR hD₀ ht₁
          obtain ⟨hR₂, hsame⟩ := hboth s t₁ e s₁ t₂ o₁ o₂ hR₁ hC.1 hD₁.1 hv hs ht₂
          have htail := ih hR₂ hC₁ (hD₁.2 t₂ o₂ ht₂) hr hr₂ hrest.symm
          simp only [List.filterMap_append, hnil, List.nil_append, hsame, htail]

end Unwinding

/-! ## Two runs in lockstep -/

section Lockstep

universe u'

variable {ε' : Type u'} {step : σ → ε → Option (σ × List ο)} {g : ε → ε'} {R : σ → σ → Prop}
  {Q : List ο → List ο → Prop}

/-- Relational invariants: what two steps keep between the states, and have between their
observations, two runs keep and have. -/
theorem run_lockstep (hnil : Q [] [])
    (happend : ∀ o₁ o₂ tr₁ tr₂, Q o₁ o₂ → Q tr₁ tr₂ → Q (o₁ ++ tr₁) (o₂ ++ tr₂))
    (hstep : ∀ s t e f s' t' o₁ o₂, R s t → g e = g f → step s e = some (s', o₁) →
      step t f = some (t', o₂) → R s' t' ∧ Q o₁ o₂)
    {es : List ε} :
    ∀ {fs : List ε} {s t s' t' : σ} {tr₁ tr₂ : List ο}, R s t → es.map g = fs.map g →
      run step s es = some (s', tr₁) → run step t fs = some (t', tr₂) →
      R s' t' ∧ Q tr₁ tr₂ := by
  induction es with
  | nil =>
      intro fs s t s' t' tr₁ tr₂ hR heq hrun₁ hrun₂
      have hfs : fs = [] := List.map_eq_nil_iff.mp heq.symm
      subst hfs
      obtain ⟨rfl, rfl⟩ := run_nil_iff.mp hrun₁
      obtain ⟨rfl, rfl⟩ := run_nil_iff.mp hrun₂
      exact ⟨hR, hnil⟩
  | cons e es ih =>
      intro fs s t s' t' tr₁ tr₂ hR heq hrun₁ hrun₂
      cases fs with
      | nil => cases heq
      | cons f fs =>
          rw [List.map_cons, List.map_cons, List.cons.injEq] at heq
          obtain ⟨s₁, o₁, tr, hs, hr, rfl⟩ := run_cons_iff.mp hrun₁
          obtain ⟨t₁, o₂, tr', ht, hr', rfl⟩ := run_cons_iff.mp hrun₂
          obtain ⟨hR₁, hQ⟩ := hstep s t e f s₁ t₁ o₁ o₂ hR heq.1 hs ht
          obtain ⟨hR', hQ'⟩ := ih hR₁ heq.2 hr hr'
          exact ⟨hR', happend _ _ _ _ hQ hQ'⟩

end Lockstep

end PaymentConnector.Library.Machine
