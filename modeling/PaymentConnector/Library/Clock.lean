import Mathlib.Order.Basic
import PaymentConnector.Library.Machine

/-!
# Runs on a clock

The events of a machine carry the clock readings that the code makes.  On a clock that is not
set back the readings of a run follow one another, and what holds at an instant may depend on
it: a stamp that lies in the past, a timeout that has elapsed.  Such a predicate has to outlive
the passing of time and every step whose readings come after it.

## Main results

* `run_forward` — the run rule for predicates on the instant, the state and the history.
* `run_forward_simulation` — the rule for simulations by a machine that keeps to the clock.
-/

namespace PaymentConnector.Library.Machine

universe u v w x

variable {σ : Type u} {ε : Type v} {ο : Type w} {τ : Type x}

/-- The instant at which readings that begin after `c` are over. -/
private def later (c : τ) (rs : List τ) : τ := rs.getLast?.getD c

private theorem later_mem (c : τ) (rs : List τ) : later c rs ∈ c :: rs := by
  unfold later
  cases hlast : rs.getLast? with
  | none => exact List.mem_cons_self
  | some r => exact List.mem_cons_of_mem c (List.mem_of_getLast? hlast)

variable [Preorder τ]

/-- From the instant `c` on, the readings of the events never go back. -/
def Forward (readings : ε → List τ) (c : τ) (es : List ε) : Prop :=
  (c :: es.flatMap readings).Pairwise (· ≤ ·)

/-- No reading comes after the instant `c'`. -/
def Until (readings : ε → List τ) (c' : τ) (es : List ε) : Prop :=
  ∀ r ∈ es.flatMap readings, r ≤ c'

instance [DecidableLE τ] (readings : ε → List τ) (c : τ) (es : List ε) :
    Decidable (Forward readings c es) :=
  inferInstanceAs (Decidable (List.Pairwise _ _))

instance [DecidableLE τ] (readings : ε → List τ) (c' : τ) (es : List ε) :
    Decidable (Until readings c' es) :=
  inferInstanceAs (Decidable (∀ r ∈ es.flatMap readings, r ≤ c'))

variable {readings : ε → List τ} {c c' : τ} {e : ε} {es : List ε}

/-- The last of readings in order comes after all of them. -/
private theorem le_later {rs : List τ} (h : (c :: rs).Pairwise (· ≤ ·)) :
    ∀ r ∈ c :: rs, r ≤ later c rs := by
  intro r hr
  unfold later
  cases hlast : rs.getLast? with
  | none =>
      rw [List.getLast?_eq_none_iff.mp hlast, List.mem_singleton] at hr
      exact le_of_eq hr
  | some last =>
      obtain ⟨before, rfl⟩ := List.getLast?_eq_some_iff.mp hlast
      rw [← List.cons_append, List.pairwise_append] at h
      rw [← List.cons_append, List.mem_append, List.mem_singleton] at hr
      rcases hr with hbefore | rfl
      · exact h.2.2 r hbefore last (List.mem_singleton.mpr rfl)
      · exact le_refl _

/-- A clock that is not set back has a last reading. -/
theorem Forward.exists_until (h : Forward readings c es) :
    ∃ c', c ≤ c' ∧ Until readings c' es :=
  ⟨later c (es.flatMap readings), le_later h c List.mem_cons_self,
    fun r hr => le_later h r (List.mem_cons_of_mem c hr)⟩

/-- The first event reads its clock before the others do. -/
private theorem forward_cons (h : Forward readings c (e :: es)) :
    (c :: readings e).Pairwise (· ≤ ·) ∧ Forward readings (later c (readings e)) es := by
  unfold Forward at h ⊢
  rw [List.flatMap_cons, ← List.cons_append, List.pairwise_append] at h
  obtain ⟨hhere, hrest, hacross⟩ := h
  refine ⟨hhere, List.pairwise_cons.mpr ⟨fun r hr => ?_, hrest⟩⟩
  exact hacross _ (later_mem c (readings e)) r hr

/-- Run rule for clocks: what outlives the passing of time and every step whose readings come
later holds, at any later instant, after a run whose readings never go back. -/
theorem run_forward {step : σ → ε → Option (σ × List ο)} {I : τ → List ε → σ → List ο → Prop}
    (hlater : ∀ {c c' es s tr}, c ≤ c' → I c es s tr → I c' es s tr)
    (hstep : ∀ {c c' es s tr e s' o}, I c es s tr → (c :: readings e).Pairwise (· ≤ ·) →
      (∀ r ∈ c :: readings e, r ≤ c') → step s e = some (s', o) →
      I c' (es ++ [e]) s' (tr ++ o))
    {s s' : σ} {tr : List ο} (hI : I c [] s []) (hrun : run step s es = some (s', tr))
    (hforward : Forward readings c es) (hc : c ≤ c') (huntil : Until readings c' es) :
    I c' es s' tr := by
  have hfrom : ∀ {fs es : List ε} {c : τ} {s : σ} {tr₀ tr : List ο}, I c fs s tr₀ →
      run step s es = some (s', tr) → Forward readings c es → c ≤ c' → Until readings c' es →
      I c' (fs ++ es) s' (tr₀ ++ tr) := by
    intro fs es
    induction es generalizing fs with
    | nil =>
        intro c s tr₀ tr hI hrun _ hc _
        obtain ⟨rfl, rfl⟩ := run_nil_iff.mp hrun
        rw [List.append_nil, List.append_nil]
        exact hlater hc hI
    | cons e es ih =>
        intro c s tr₀ tr hI hrun hforward hc huntil
        obtain ⟨s₁, o₁, tr₁, hs, hrest, rfl⟩ := run_cons_iff.mp hrun
        obtain ⟨hhere, hforward₁⟩ := forward_cons hforward
        have hbefore : ∀ r ∈ c :: readings e, r ≤ c' := by
          intro r hr
          rcases List.mem_cons.mp hr with rfl | hr
          · exact hc
          · exact huntil r (List.mem_append_left _ hr)
        rw [← List.append_assoc, List.append_cons]
        refine ih (hstep hI hhere (le_later hhere) hs) hrest hforward₁
          (hbefore _ (later_mem c _)) fun r hr => ?_
        exact huntil r (List.mem_append_right _ hr)
  exact hfrom hI hrun hforward hc huntil

universe u' v' w' y

variable {σ' : Type u'} {ε' : Type v'} {ο' : Type w'} {ω : Type y}

/-- Simulation on a clock: where every step whose readings come later is matched by the step
that `f` makes of it, or by none where `f` makes nothing of it, with the same to be seen, a run
whose readings never go back is matched by the run of what `f` makes of its events. -/
theorem run_forward_simulation {step : σ → ε → Option (σ × List ο)}
    {step' : σ' → ε' → Option (σ' × List ο')} {f : σ → ε → Option ε'} {R : τ → σ → σ' → Prop}
    {g : ο → Option ω} {g' : ο' → Option ω}
    (hlater : ∀ {c c' s t}, c ≤ c' → R c s t → R c' s t)
    (hstep : ∀ {c c' s t e s' o}, R c s t → (c :: readings e).Pairwise (· ≤ ·) →
      (∀ r ∈ c :: readings e, r ≤ c') → step s e = some (s', o) →
      f s e = none ∧ R c' s' t ∧ o.filterMap g = [] ∨
        ∃ e' t' o', f s e = some e' ∧ step' t e' = some (t', o') ∧ R c' s' t' ∧
          o.filterMap g = o'.filterMap g')
    {s s' : σ} {t : σ'} {tr : List ο} (hR : R c s t) (hrun : run step s es = some (s', tr))
    (hforward : Forward readings c es) (hc : c ≤ c') (huntil : Until readings c' es) :
    ∃ t' tr', run step' t (translate step f s es) = some (t', tr') ∧ R c' s' t' ∧
      tr.filterMap g = tr'.filterMap g' := by
  refine (run_forward (I := fun c es s₁ tr => run step s es = some (s₁, tr) ∧
    ∃ t' tr', run step' t (translate step f s es) = some (t', tr') ∧
      R c s₁ t' ∧ tr.filterMap g = tr'.filterMap g') ?_ ?_ ⟨rfl, t, [], rfl, hR, rfl⟩ hrun hforward
    hc huntil).2
  · rintro c c' _ s tr hle ⟨hbefore, t', tr', hrun', hR', hseen⟩
    exact ⟨hbefore, t', tr', hrun', hlater hle hR', hseen⟩
  · rintro c c' es₁ s₁ tr e s₂ o ⟨hbefore, t', tr', hrun', hR', hseen⟩ hhere hreadings hs
    refine ⟨run_concat_iff.mpr ⟨s₁, tr, o, hbefore, hs, rfl⟩, ?_⟩
    rw [translate_concat f e hbefore, List.filterMap_append, hseen]
    rcases hstep hR' hhere hreadings hs with
      ⟨hnone, hnext, hnil⟩ | ⟨e', t'', o', hsome, hs', hnext, hsame⟩
    · rw [hnone, hnil, List.append_nil, Option.toList_none, List.append_nil]
      exact ⟨t', tr', hrun', hnext, rfl⟩
    · rw [hsome, hsame, ← List.filterMap_append]
      exact ⟨t'', tr' ++ o', run_concat_iff.mpr ⟨t', tr', o', hrun', hs', rfl⟩, hnext, rfl⟩

end PaymentConnector.Library.Machine
