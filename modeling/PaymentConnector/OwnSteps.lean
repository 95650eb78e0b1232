import PaymentConnector.Process

/-!
# The steps of one request

Every step but a load runs the handler of one request and shows nothing of the
others.  Before its name is given out nothing is shown of a request, and once
it has arrived and is no longer suspended nothing more is.
-/

namespace PaymentConnector

open Library Library.Machine

/-- The request that an observation belongs to. -/
def Obs.rid? : Obs → Option Nat
  | .posted rid _ _ | .answered rid _ _ | .stored rid _ _ | .replied rid _ _ => some rid
  | .output _ | .loaded _ | .evicted _ => none

/-- The request whose handler an event runs. -/
def Event.rid? : Event → Option Nat
  | .request rid _ _ | .answer rid _ _ _ => some rid
  | .load _ _ => none

/-- A step shows nothing of other requests than the one it runs. -/
theorem step_rid {p p' : Process} {e : Event} {obs : List Obs} {rid : Nat}
    (hstep : p.step e = some (p', obs)) :
    ∀ x ∈ obs, x.rid? = some rid → e.rid? = some rid := by
  have hsilent : ∀ o, (Obs.output o).rid? = some rid → e.rid? = some rid := by
    intro o h
    cases h
  cases step_spec hstep with
  | load =>
      rw [forall_mem_outputs_append hsilent, List.forall_mem_singleton]
      exact fun h => by cases h
  | refused => rw [forall_mem_outputs_append hsilent, List.forall_mem_singleton]; exact id
  | raised => rw [forall_mem_outputs_append hsilent, List.forall_mem_singleton]; exact id
  | replayed => rw [forall_mem_outputs_append hsilent, List.forall_mem_singleton]; exact id
  | posting => rw [List.forall_mem_singleton]; exact id
  | stored handler outcome uuid t client inFlight outputs body response =>
      rw [storedObs, forall_mem_outputs_append hsilent, List.forall_mem_cons,
        List.forall_mem_append, List.forall_mem_cons, List.forall_mem_singleton]
      exact ⟨id, forall_mem_map (fun _ h => by cases h) _, id, id⟩
  | failed =>
      rw [forall_mem_outputs_append hsilent, List.forall_mem_cons, List.forall_mem_singleton]
      exact ⟨id, id⟩
  | fallback =>
      rw [forall_mem_outputs_append hsilent, List.forall_mem_cons, List.forall_mem_singleton]
      exact ⟨id, id⟩

/-- What a run shows in the steps of one request. -/
def ownSteps (rid : Nat) (p : Process) (es : List Event) : List Obs :=
  shownIn Process.step (fun e => e.rid? = some rid) p es

/-- After a step the name of its request is given out, and no name is taken back. -/
theorem step_gives {p p' : Process} {e : Event} {obs : List Obs} (hp : p.WellNamed)
    (hstep : p.step e = some (p', obs)) :
    (∀ rid, e.rid? = some rid → rid ∈ p'.seen) ∧ ∀ rid ∈ p.seen, rid ∈ p'.seen := by
  cases step_spec hstep with
  | load => exact ⟨fun rid h => absurd h (by simp [Event.rid?]), fun rid h => h⟩
  | refused rid =>
      refine ⟨fun rid' h => ?_, fun rid' h => List.mem_cons_of_mem _ h⟩
      rw [← Option.some.inj h]
      exact List.mem_cons_self
  | raised rid =>
      refine ⟨fun rid' h => ?_, fun rid' h => List.mem_cons_of_mem _ h⟩
      rw [← Option.some.inj h]
      exact List.mem_cons_self
  | replayed rid =>
      refine ⟨fun rid' h => ?_, fun rid' h => List.mem_cons_of_mem _ h⟩
      rw [← Option.some.inj h]
      exact List.mem_cons_self
  | posting rid =>
      refine ⟨fun rid' h => ?_, fun rid' h => List.mem_cons_of_mem _ h⟩
      rw [← Option.some.inj h]
      exact List.mem_cons_self
  | stored handler outcome uuid t client inFlight outputs body response hmem =>
      refine ⟨fun rid' h => ?_, fun rid' h => h⟩
      rw [← Option.some.inj h]
      exact hp.named handler hmem
  | failed handler outcome uuid t client inFlight outputs reply hmem =>
      refine ⟨fun rid' h => ?_, fun rid' h => h⟩
      rw [← Option.some.inj h]
      exact hp.named handler hmem
  | fallback handler outcome uuid t client inFlight outputs credential hmem =>
      refine ⟨fun rid' h => ?_, fun rid' h => h⟩
      rw [← Option.some.inj h]
      exact hp.named handler hmem

/-- The steps of other requests leave a request where it is. -/
theorem step_others {p p' : Process} {e : Event} {obs : List Obs} {rid : Nat}
    (hstep : p.step e = some (p', obs)) (hother : e.rid? ≠ some rid) :
    (rid ∈ p'.seen ↔ rid ∈ p.seen) ∧
      ∀ h, h.rid = rid → (h ∈ p'.waiting ↔ h ∈ p.waiting) := by
  have hfilter : ∀ (rid' : Nat) (h : Handler), some rid' ≠ some rid → h.rid = rid →
      (h ∈ p.waiting.filter (fun h' => h'.rid ≠ rid') ↔ h ∈ p.waiting) := by
    intro rid' h hne hrid
    have hkept : h.rid ≠ rid' := by
      rw [hrid]
      exact fun heq => hne (by rw [heq])
    simp [hkept]
  have hcons : ∀ rid' : Nat, some rid' ≠ some rid → (rid ∈ rid' :: p.seen ↔ rid ∈ p.seen) := by
    intro rid' hne
    have hkept : rid ≠ rid' := fun heq => hne (by rw [heq])
    simp [hkept]
  cases step_spec hstep with
  | load => exact ⟨Iff.rfl, fun _ _ => Iff.rfl⟩
  | refused rid' => exact ⟨hcons rid' hother, fun _ _ => Iff.rfl⟩
  | raised rid' => exact ⟨hcons rid' hother, fun _ _ => Iff.rfl⟩
  | replayed rid' => exact ⟨hcons rid' hother, fun _ _ => Iff.rfl⟩
  | posting rid' =>
      refine ⟨hcons rid' hother, ?_⟩
      intro h hrid
      rw [List.mem_append, List.mem_singleton]
      refine or_iff_left ?_
      intro heq
      rw [heq] at hrid
      exact hother (congrArg some hrid)
  | stored h' => exact ⟨Iff.rfl, fun h hrid => hfilter h'.rid h hother hrid⟩
  | failed h' => exact ⟨Iff.rfl, fun h hrid => hfilter h'.rid h hother hrid⟩
  | fallback h' =>
      refine ⟨Iff.rfl, ?_⟩
      intro h hrid
      rw [List.mem_append, List.mem_singleton, hfilter h'.rid h hother hrid]
      refine or_iff_left ?_
      intro heq
      rw [heq] at hrid
      exact hother (congrArg some hrid)

/-- A request that has arrived and is not suspended is over. -/
def Process.Over (rid : Nat) (p : Process) : Prop :=
  rid ∈ p.seen ∧ ∀ h ∈ p.waiting, h.rid ≠ rid

private theorem step_over {rid : Nat} {p p' : Process} {e : Event} {obs : List Obs}
    (hp : p.WellNamed) (hover : p.Over rid) (hstep : p.step e = some (p', obs)) :
    p'.Over rid ∧ e.rid? ≠ some rid := by
  have hseen := (step_gives hp hstep).2 rid hover.1
  cases step_spec hstep with
  | load => exact ⟨⟨hseen, hover.2⟩, fun h => by cases h⟩
  | refused rid' request t client code detail outputs hfresh =>
      refine ⟨⟨hseen, hover.2⟩, ?_⟩
      intro h
      rw [Option.some.inj h] at hfresh
      exact hfresh hover.1
  | raised rid' request t exc outputs hfresh =>
      refine ⟨⟨hseen, hover.2⟩, ?_⟩
      intro h
      rw [Option.some.inj h] at hfresh
      exact hfresh hover.1
  | replayed rid' request t manager cached outputs hfresh =>
      refine ⟨⟨hseen, hover.2⟩, ?_⟩
      intro h
      rw [Option.some.inj h] at hfresh
      exact hfresh hover.1
  | posting rid' request t manager client primary hfresh =>
      have hne : rid' ≠ rid := by
        intro h
        rw [h] at hfresh
        exact hfresh hover.1
      refine ⟨⟨hseen, ?_⟩, fun h => hne (Option.some.inj h)⟩
      intro h hin
      rcases List.mem_append.mp hin with hold | hnew
      · exact hover.2 h hold
      · rw [List.mem_singleton.mp hnew]
        exact hne
  | stored handler outcome uuid t client inFlight outputs body response hmem =>
      exact ⟨⟨hseen, fun h hin => hover.2 h (mem_filter_rid hin).1⟩,
        fun h => hover.2 handler hmem (Option.some.inj h)⟩
  | failed handler outcome uuid t client inFlight outputs reply hmem =>
      exact ⟨⟨hseen, fun h hin => hover.2 h (mem_filter_rid hin).1⟩,
        fun h => hover.2 handler hmem (Option.some.inj h)⟩
  | fallback handler outcome uuid t client inFlight outputs credential hmem =>
      refine ⟨⟨hseen, ?_⟩, fun h => hover.2 handler hmem (Option.some.inj h)⟩
      intro h hin
      rcases List.mem_append.mp hin with hold | hnew
      · exact hover.2 h (mem_filter_rid hold).1
      · rw [List.mem_singleton.mp hnew]
        exact hover.2 handler hmem

/-- Nothing more is shown of a request that is over. -/
theorem run_over {rid : Nat} {p p' : Process} {es : List Event} {tr : List Obs}
    (hp : p.WellNamed) (hover : p.Over rid) (hrun : run Process.step p es = some (p', tr)) :
    ∀ x ∈ tr, x.rid? ≠ some rid := by
  have hinv : (p'.WellNamed ∧ p'.Over rid) ∧ ∀ x ∈ tr, x.rid? ≠ some rid :=
    run_invariant (I := fun p tr => (p.WellNamed ∧ p.Over rid) ∧ ∀ x ∈ tr, x.rid? ≠ some rid)
      (by
        intro q tr e q' obs hq hstep
        have hnext := step_over hq.1.1 hq.1.2 hstep
        refine ⟨⟨step_wellNamed hq.1.1 hstep, hnext.1⟩, ?_⟩
        intro x hx
        rcases List.mem_append.mp hx with hold | hnew
        · exact hq.2 x hold
        · exact fun h => hnext.2 (step_rid hstep x hnew h))
      ⟨⟨hp, hover⟩, fun x hx => absurd hx List.not_mem_nil⟩ hrun
  exact hinv.2

/-- Nothing is shown of a request before its name is given out. -/
theorem run_seen {p p' : Process} {es : List Event} {tr : List Obs} (hp : p.WellNamed)
    (hrun : run Process.step p es = some (p', tr)) :
    p'.WellNamed ∧ ∀ x ∈ tr, ∀ rid, x.rid? = some rid → rid ∈ p'.seen := by
  refine run_invariant
    (I := fun p tr => p.WellNamed ∧ ∀ x ∈ tr, ∀ rid, x.rid? = some rid → rid ∈ p.seen) ?_
    ⟨hp, fun x hx => absurd hx List.not_mem_nil⟩ hrun
  intro q tr e q' obs hq hstep
  have hseen := step_gives hq.1 hstep
  refine ⟨step_wellNamed hq.1 hstep, ?_⟩
  intro x hx rid hrid
  rcases List.mem_append.mp hx with hold | hnew
  · exact hseen.2 rid (hq.2 x hold rid hrid)
  · exact hseen.1 rid (step_rid hstep x hnew hrid)

end PaymentConnector
