import PaymentConnector.RefreshBackoff

/-!
# Starting and stopping the refresh loop

`start_refresh_loop` sets `_running` and creates a task of `_refresh_loop`;
`stop_refresh_loop` clears `_running`, cancels the task that it finds in
`_refresh_task` and awaits it.  Any number of callers may call them, and the others
and the tasks go on while one of them awaits.

A cancelled task finds `CancelledError` in its next stretch: at its `sleep`, where the
loop breaks, or before its first line, which then never runs.

## Main results

* `Supervisor.supervised` — whatever the calls, a task loads only while it is the turn of
  `_running`, and a stop that returned has seen the end of the task it cancelled.
* `Supervisor.soleLoop` — where each start finds all the loops before it stopped, every load is
  that of the loop started last.
-/

namespace PaymentConnector

open Library Library.Machine

/-- A task of `_refresh_loop` that is not done: asleep once `begun`. -/
structure RefreshTask where
  id : Nat
  loop : RefreshLoop
  begun : Bool
  cancelled : Bool

/-- What the two calls and the tasks share, and the calls of `stop_refresh_loop` that await
a task.  Tasks are named by the order of their creation. -/
structure Supervisor where
  checkInterval : Int
  running : Bool
  refreshTask : Option Nat
  tasks : List RefreshTask
  stops : List (Nat × Nat)
  created : Nat

inductive TaskEvent
  /-- `start_refresh_loop`. -/
  | start
  /-- `stop_refresh_loop` up to its `await`. -/
  | stop (call : Nat)
  /-- The rest of it. -/
  | joined (call : Nat)
  /-- A task goes on; `outcome` is that of its load if it makes one. -/
  | resume (id : Nat) (outcome : LoadOutcome)

inductive TaskObs
  | started (id : Nat)
  | stopping (call : Nat)
  | stopped (call : Nat) (awaited : Option Nat)
  | slept (id : Nat) (seconds : Int)
  | loaded (id : Nat) (outcome : LoadOutcome)
  | ended (id : Nat)

namespace Supervisor

/-- `__init__`. -/
def init (checkInterval : Int) : Supervisor := ⟨checkInterval, false, none, [], [], 0⟩

def task? (s : Supervisor) (id : Nat) : Option RefreshTask :=
  s.tasks.find? (fun task => task.id = id)

/-- `cancel`, which does nothing to a task that is done. -/
def cancel (s : Supervisor) (id : Nat) : Supervisor :=
  { s with
    tasks := s.tasks.map fun task =>
      if task.id = id then { task with cancelled := true } else task }

/-- The task is done. -/
def finish (s : Supervisor) (id : Nat) : Supervisor :=
  { s with tasks := s.tasks.filter fun task => task.id ≠ id }

/-- The task goes to sleep. -/
def sleep (s : Supervisor) (id : Nat) (loop : RefreshLoop) : Supervisor :=
  { s with
    tasks := s.tasks.map fun task =>
      if task.id = id then { task with loop := loop, begun := true } else task }

/-- Whether the next stretch of a task makes a load. -/
def Loads (s : Supervisor) (task : RefreshTask) : Prop :=
  task.cancelled = false ∧ task.begun = true ∧ s.running = true

instance (s : Supervisor) (task : RefreshTask) : Decidable (s.Loads task) :=
  inferInstanceAs (Decidable (_ ∧ _))

/-- One stretch of code without suspension. -/
def step (s : Supervisor) : TaskEvent → Option (Supervisor × List TaskObs)
  | .start =>
      some
        ({ s with
            running := true
            refreshTask := some s.created
            tasks := s.tasks ++ [⟨s.created, .start s.checkInterval, false, false⟩]
            created := s.created + 1 },
          [.started s.created])
  | .stop call =>
      if call ∈ s.stops.map Prod.fst then none
      else
        let s := { s with running := false }
        match s.refreshTask with
        | none => some (s, [.stopping call, .stopped call none])
        | some id =>
            match s.task? id with
            | none =>
                some ({ s with refreshTask := none }, [.stopping call, .stopped call (some id)])
            | some _ =>
                some ({ s.cancel id with stops := s.stops ++ [(call, id)] }, [.stopping call])
  | .joined call =>
      match s.stops.find? (fun stop => stop.1 = call) with
      | none => none
      | some (_, id) =>
          match s.task? id with
          | some _ => none
          | none =>
              some
                ({ s with
                    refreshTask := none
                    stops := s.stops.filter fun stop => stop.1 ≠ call },
                  [.stopped call (some id)])
  | .resume id outcome =>
      match s.task? id with
      | none => none
      | some task =>
          if s.Loads task then
            some (s.sleep id (task.loop.after outcome),
              [.loaded id outcome, .slept id (task.loop.after outcome).delay])
          else if task.cancelled = false ∧ s.running = true then
            some (s.sleep id task.loop, [.slept id task.loop.delay])
          else some (s.finish id, [.ended id])

end Supervisor

/-! ## What a trace says -/

/-- What an observation makes of `_running`. -/
def TaskObs.switch (running : Bool) : TaskObs → Bool
  | .started _ => true
  | .stopping _ => false
  | _ => running

/-- `_running` after a trace. -/
def runningAfter (tr : List TaskObs) : Bool := tr.foldl TaskObs.switch false

/-- An observation, seen with those before it: only a task that was started and has not
ended loads, and only while `_running`; a stop returns when the task it awaited has ended. -/
structure TaskObs.Supervised (before : List TaskObs) (x : TaskObs) : Prop where
  load_running : ∀ id outcome, x = .loaded id outcome → runningAfter before = true
  load_live : ∀ id outcome, x = .loaded id outcome →
    TaskObs.started id ∈ before ∧ ¬ TaskObs.ended id ∈ before
  returned : ∀ call id, x = .stopped call (some id) → TaskObs.ended id ∈ before

/-- A load is that of the loop started last. -/
def TaskObs.Sole (before : List TaskObs) (x : TaskObs) : Prop :=
  ∀ id outcome, x = .loaded id outcome →
    ∀ id', TaskObs.started id' ∈ before → id' ≤ id

/-- A start finds no loop started and no stop under way. -/
def Supervisor.Serial (s : Supervisor) : TaskEvent → Prop
  | .start => s.refreshTask = none ∧ s.stops = []
  | _ => True

instance (s : Supervisor) : ∀ e, Decidable (s.Serial e)
  | .start => inferInstanceAs (Decidable (_ ∧ _))
  | .stop _ | .joined _ | .resume _ _ => inferInstanceAs (Decidable True)

/-! ## What a step can do -/

namespace Supervisor

variable {s s' : Supervisor} {tr obs : List TaskObs} {e : TaskEvent}

/-- A task that is not done. -/
def Live (s : Supervisor) (id : Nat) : Prop := id ∈ s.tasks.map RefreshTask.id

theorem live_of_task? {id : Nat} {task : RefreshTask} (h : s.task? id = some task) :
    task ∈ s.tasks ∧ task.id = id :=
  ⟨List.mem_of_find?_eq_some h, by simpa using List.find?_some h⟩

theorem not_live_of_task? {id : Nat} (h : s.task? id = none) : ¬ s.Live id := by
  intro hlive
  obtain ⟨task, hmem, hid⟩ := List.mem_map.mp hlive
  have hne := List.find?_eq_none.mp h task hmem
  exact hne (by simpa using hid)

@[simp] theorem cancel_ids (id : Nat) :
    (s.cancel id).tasks.map RefreshTask.id = s.tasks.map RefreshTask.id := by
  rw [cancel, List.map_map]
  refine List.map_congr_left fun task _ => ?_
  simp only [Function.comp_apply]
  split <;> rfl

@[simp] theorem sleep_ids (id : Nat) (loop : RefreshLoop) :
    (s.sleep id loop).tasks.map RefreshTask.id = s.tasks.map RefreshTask.id := by
  rw [sleep, List.map_map]
  refine List.map_congr_left fun task _ => ?_
  simp only [Function.comp_apply]
  split <;> rfl

@[simp] theorem finish_ids (id : Nat) :
    (s.finish id).tasks.map RefreshTask.id =
      (s.tasks.map RefreshTask.id).filter (fun id' => id' ≠ id) := by
  rw [finish, List.filter_map]
  rfl

/-- Everything a step can do. -/
inductive Move (s : Supervisor) : TaskEvent → Supervisor → List TaskObs → Prop
  | started :
      Move s .start
        { s with
          running := true
          refreshTask := some s.created
          tasks := s.tasks ++ [⟨s.created, .start s.checkInterval, false, false⟩]
          created := s.created + 1 }
        [.started s.created]
  | stoppedAtOnce (call : Nat) (awaited : Option Nat) (hawaited : s.refreshTask = awaited)
      (hdone : ∀ id, awaited = some id → ¬ s.Live id) :
      Move s (.stop call) { s with running := false, refreshTask := none }
        [.stopping call, .stopped call awaited]
  | stopping (call id : Nat) (hfresh : ¬ call ∈ s.stops.map Prod.fst)
      (htask : s.refreshTask = some id) (hlive : s.Live id) :
      Move s (.stop call) { s.cancel id with running := false, stops := s.stops ++ [(call, id)] }
        [.stopping call]
  | joined (call id : Nat) (hmem : (call, id) ∈ s.stops) (hdone : ¬ s.Live id) :
      Move s (.joined call)
        { s with refreshTask := none, stops := s.stops.filter fun stop => stop.1 ≠ call }
        [.stopped call (some id)]
  | loaded (task : RefreshTask) (outcome : LoadOutcome) (hmem : task ∈ s.tasks)
      (hloads : s.Loads task) :
      Move s (.resume task.id outcome) (s.sleep task.id (task.loop.after outcome))
        [.loaded task.id outcome, .slept task.id (task.loop.after outcome).delay]
  | slept (task : RefreshTask) (outcome : LoadOutcome) (hmem : task ∈ s.tasks) :
      Move s (.resume task.id outcome) (s.sleep task.id task.loop)
        [.slept task.id task.loop.delay]
  | ended (task : RefreshTask) (outcome : LoadOutcome) (hmem : task ∈ s.tasks) :
      Move s (.resume task.id outcome) (s.finish task.id) [.ended task.id]

theorem step_move (h : s.step e = some (s', obs)) : Move s e s' obs := by
  cases e with
  | start =>
      cases h
      exact .started
  | stop call =>
      obtain ⟨interval, running, refreshTask, tasks, stops, created⟩ := s
      simp only [step] at h
      split at h
      · cases h
      · rename_i hfresh
        cases refreshTask with
        | none =>
            cases h
            exact .stoppedAtOnce call none rfl (fun id h => by cases h)
        | some id =>
            dsimp only at h
            split at h
            · rename_i hnone
              cases h
              refine .stoppedAtOnce call (some id) rfl ?_
              intro id' heq
              cases heq
              exact not_live_of_task? hnone
            · rename_i task hsome
              cases h
              have hlive := live_of_task? hsome
              exact .stopping call id hfresh rfl (List.mem_map.mpr ⟨task, hlive⟩)
  | joined call =>
      simp only [step] at h
      split at h
      · cases h
      · rename_i call' id hfind
        have hcall : call' = call := by simpa using List.find?_some hfind
        split at h
        · cases h
        · rename_i hnone
          cases h
          have hmem := List.mem_of_find?_eq_some hfind
          rw [hcall] at hmem
          exact .joined call id hmem (not_live_of_task? hnone)
  | resume id outcome =>
      simp only [step] at h
      split at h
      · cases h
      · rename_i task hsome
        obtain ⟨hmem, rfl⟩ := live_of_task? hsome
        split at h
        · rename_i hloads
          cases h
          exact .loaded task outcome hmem hloads
        · split at h
          · cases h
            exact .slept task outcome hmem
          · cases h
            exact .ended task outcome hmem

/-- Only a start sets `_running`, and a stop clears it. -/
theorem step_running (h : s.step e = some (s', obs)) (hstart : e ≠ .start) :
    (s.running = false → s'.running = false) ∧ ∀ call, e = .stop call → s'.running = false := by
  cases step_move h with
  | started => exact absurd rfl hstart
  | stoppedAtOnce => exact ⟨fun _ => rfl, fun _ _ => rfl⟩
  | stopping => exact ⟨fun _ => rfl, fun _ _ => rfl⟩
  | joined => exact ⟨id, fun _ heq => by cases heq⟩
  | loaded => exact ⟨id, fun _ heq => by cases heq⟩
  | slept => exact ⟨id, fun _ heq => by cases heq⟩
  | ended => exact ⟨id, fun _ heq => by cases heq⟩

/-! ## Any calls -/

/-- What the shared variables say about the trace. -/
structure Tracks (s : Supervisor) (tr : List TaskObs) : Prop where
  running_eq : s.running = runningAfter tr
  started_iff : ∀ id, TaskObs.started id ∈ tr ↔ id < s.created
  live_iff : ∀ id, s.Live id ↔ id < s.created ∧ ¬ TaskObs.ended id ∈ tr
  ended_lt : ∀ id, TaskObs.ended id ∈ tr → id < s.created
  named : ∀ id, s.refreshTask = some id → id < s.created
  awaited : ∀ call id, (call, id) ∈ s.stops → id < s.created
  doomed : ∀ call id, (call, id) ∈ s.stops → ∀ task ∈ s.tasks, task.id = id →
    task.cancelled = true
  distinct : (s.stops.map Prod.fst).Nodup

theorem init_tracks (checkInterval : Int) : (init checkInterval).Tracks [] where
  running_eq := rfl
  started_iff := fun id => by simp [init]
  live_iff := fun id => by simp [init, Live]
  ended_lt := fun _ h => absurd h List.not_mem_nil
  named := fun _ h => by cases h
  awaited := fun _ _ h => absurd h List.not_mem_nil
  doomed := fun _ _ h => absurd h List.not_mem_nil
  distinct := List.nodup_nil

theorem runningAfter_append (tr obs : List TaskObs) :
    runningAfter (tr ++ obs) = obs.foldl TaskObs.switch (runningAfter tr) := by
  rw [runningAfter, List.foldl_append]
  rfl

/-- Neither cancelling a task nor putting it to sleep takes back a cancellation. -/
private theorem cancelled_of_map {tasks : List RefreshTask} {f : RefreshTask → RefreshTask}
    {id : Nat} (hid : ∀ task, (f task).id = task.id)
    (hkeeps : ∀ task, task.cancelled = true → (f task).cancelled = true)
    (h : ∀ task ∈ tasks, task.id = id → task.cancelled = true) :
    ∀ task ∈ tasks.map f, task.id = id → task.cancelled = true := by
  intro task hmem heq
  obtain ⟨old, hold, rfl⟩ := List.mem_map.mp hmem
  rw [hid] at heq
  exact hkeeps old (h old hold heq)

private theorem sleep_cancelled {id id' : Nat} {loop : RefreshLoop}
    (h : ∀ task ∈ s.tasks, task.id = id → task.cancelled = true) :
    ∀ task ∈ (s.sleep id' loop).tasks, task.id = id → task.cancelled = true :=
  cancelled_of_map (fun task => by split <;> rfl)
    (fun task hcancelled => by split <;> exact hcancelled) h

private theorem cancel_cancelled {id id' : Nat}
    (h : ∀ task ∈ s.tasks, task.id = id → task.cancelled = true) :
    ∀ task ∈ (s.cancel id').tasks, task.id = id → task.cancelled = true :=
  cancelled_of_map (fun task => by split <;> rfl)
    (fun task hcancelled => by split <;> first | rfl | exact hcancelled) h

private theorem cancel_cancelled_self {id : Nat} :
    ∀ task ∈ (s.cancel id).tasks, task.id = id → task.cancelled = true := by
  intro task hmem heq
  obtain ⟨old, hold, rfl⟩ := List.mem_map.mp hmem
  split at heq
  · rename_i hid
    rw [if_pos hid]
  · rename_i hid
    exact absurd heq hid

/-- A step that leaves the names of the tasks alone. -/
private theorem Tracks.of_same_ids (h : s.Tracks tr) (hcreated : s'.created = s.created)
    (hids : s'.tasks.map RefreshTask.id = s.tasks.map RefreshTask.id)
    (hrunning : s'.running = runningAfter (tr ++ obs))
    (hstarted : ∀ id, ¬ TaskObs.started id ∈ obs) (hended : ∀ id, ¬ TaskObs.ended id ∈ obs)
    (hnamed : ∀ id, s'.refreshTask = some id → s.refreshTask = some id)
    (hawaited : ∀ call id, (call, id) ∈ s'.stops → id < s.created ∧
      ∀ task ∈ s'.tasks, task.id = id → task.cancelled = true)
    (hdistinct : (s'.stops.map Prod.fst).Nodup) : s'.Tracks (tr ++ obs) where
  running_eq := hrunning
  started_iff := fun id => by simp [hstarted, h.started_iff, hcreated]
  live_iff := fun id => by simpa [Live, hended, hids, hcreated] using h.live_iff id
  ended_lt := fun id hin => by
    rw [hcreated]
    exact h.ended_lt id (by simpa [hended] using hin)
  named := fun id heq => hcreated ▸ h.named id (hnamed id heq)
  awaited := fun call id hmem => hcreated ▸ (hawaited call id hmem).1
  doomed := fun call id hmem => (hawaited call id hmem).2
  distinct := hdistinct

private theorem Tracks.step_started (h : s.Tracks tr) :
    Tracks
      { s with
        running := true
        refreshTask := some s.created
        tasks := s.tasks ++ [⟨s.created, .start s.checkInterval, false, false⟩]
        created := s.created + 1 }
      (tr ++ [.started s.created]) where
  running_eq := by rw [runningAfter_append]; rfl
  started_iff := fun id => by
    rw [List.mem_append, h.started_iff, List.mem_singleton, TaskObs.started.injEq]
    exact Nat.lt_succ_iff_lt_or_eq.symm
  live_iff := fun id => by
    have hlive := h.live_iff id
    have hended := h.ended_lt id
    simp only [Live, List.map_append, List.map_cons, List.map_nil, List.mem_append,
      List.mem_singleton, reduceCtorEq, or_false] at hlive ⊢
    rw [hlive]
    by_cases hid : id = s.created
    · have hnew : ¬ TaskObs.ended id ∈ tr := fun hin => by
        have hlt := hended hin
        omega
      simp [hid, hid ▸ hnew]
    · have hlt : id < s.created + 1 ↔ id < s.created := by omega
      simp [hid, hlt]
  ended_lt := fun id hin => by
    have hold := h.ended_lt id (by simpa using hin)
    show id < s.created + 1
    omega
  named := fun id heq => by
    cases heq
    exact Nat.lt_succ_self _
  awaited := fun call id hmem => Nat.lt_succ_of_lt (h.awaited call id hmem)
  doomed := fun call id hmem task hin heq => by
    rcases List.mem_append.mp hin with hold | hnew
    · exact h.doomed call id hmem task hold heq
    · rw [List.mem_singleton] at hnew
      have hlt := h.awaited call id hmem
      rw [hnew] at heq
      dsimp only at heq
      omega
  distinct := h.distinct

private theorem Tracks.step_ended (h : s.Tracks tr) {task : RefreshTask} (hmem : task ∈ s.tasks) :
    (s.finish task.id).Tracks (tr ++ [.ended task.id]) where
  running_eq := by rw [runningAfter_append]; exact h.running_eq
  started_iff := fun id => by simpa [finish] using h.started_iff id
  live_iff := fun id => by
    have hlive := h.live_iff id
    rw [Live] at hlive ⊢
    rw [finish_ids, List.mem_filter, hlive]
    simp [finish, and_assoc]
  ended_lt := fun id hin => by
    have hlive := (h.live_iff task.id).mp (List.mem_map_of_mem hmem)
    rcases List.mem_append.mp hin with hold | hnew
    · exact h.ended_lt id hold
    · rw [List.mem_singleton, TaskObs.ended.injEq] at hnew
      exact hnew ▸ hlive.1
  named := h.named
  awaited := h.awaited
  doomed := fun call id hstop task hin =>
    h.doomed call id hstop task (List.mem_of_mem_filter hin)
  distinct := h.distinct

theorem Tracks.step (h : s.Tracks tr) (hstep : s.step e = some (s', obs)) :
    s'.Tracks (tr ++ obs) := by
  have hold : ∀ call id, (call, id) ∈ s.stops → id < s.created ∧
      ∀ task ∈ s.tasks, task.id = id → task.cancelled = true :=
    fun call id hmem => ⟨h.awaited call id hmem, h.doomed call id hmem⟩
  cases step_move hstep with
  | started => exact h.step_started
  | stoppedAtOnce call awaited =>
      exact h.of_same_ids rfl rfl (by rw [runningAfter_append]; rfl) (by simp) (by simp)
        (fun id heq => by cases heq) hold h.distinct
  | stopping call id hfresh htask hlive =>
      refine h.of_same_ids rfl (cancel_ids id) (by rw [runningAfter_append]; rfl) (by simp)
        (by simp) (fun id heq => heq) ?_ ?_
      · intro call' id' hmem
        rcases List.mem_append.mp hmem with hin | hnew
        · exact ⟨h.awaited call' id' hin, cancel_cancelled (h.doomed call' id' hin)⟩
        · obtain ⟨rfl, rfl⟩ := Prod.mk.inj (List.mem_singleton.mp hnew)
          exact ⟨h.named id' htask, cancel_cancelled_self⟩
      · rw [List.map_append, List.map_cons, List.map_nil, ← List.concat_eq_append]
        exact h.distinct.concat hfresh
  | joined call id hmem hdone =>
      exact h.of_same_ids rfl rfl (by rw [runningAfter_append]; exact h.running_eq) (by simp)
        (by simp) (fun id heq => by cases heq)
        (fun call' id' hin => hold call' id' (List.mem_of_mem_filter hin))
        (h.distinct.sublist (List.filter_sublist.map Prod.fst))
  | loaded task outcome hmem hloads =>
      exact h.of_same_ids rfl (sleep_ids task.id _)
        (by rw [runningAfter_append]; exact h.running_eq) (by simp) (by simp)
        (fun id heq => heq)
        (fun call id hin => ⟨h.awaited call id hin, sleep_cancelled (h.doomed call id hin)⟩)
        h.distinct
  | slept task outcome hmem =>
      exact h.of_same_ids rfl (sleep_ids task.id _)
        (by rw [runningAfter_append]; exact h.running_eq) (by simp) (by simp)
        (fun id heq => heq)
        (fun call id hin => ⟨h.awaited call id hin, sleep_cancelled (h.doomed call id hin)⟩)
        h.distinct
  | ended task outcome hmem => exact h.step_ended hmem

/-- Observations that neither load nor return from a stop are always in order. -/
private theorem supervised_of_silent {before : List TaskObs} {x : TaskObs}
    (hload : ∀ id outcome, x ≠ .loaded id outcome)
    (hstop : ∀ call id, x ≠ .stopped call (some id)) : x.Supervised before where
  load_running := fun id outcome heq => absurd heq (hload id outcome)
  load_live := fun id outcome heq => absurd heq (hload id outcome)
  returned := fun call id heq => absurd heq (hstop call id)

/-- A stop that returns has seen the end of the task it awaited. -/
private theorem supervised_of_stopped {before : List TaskObs} {call : Nat} {awaited : Option Nat}
    (h : ∀ id, awaited = some id → TaskObs.ended id ∈ before) :
    (TaskObs.stopped call awaited).Supervised before where
  load_running := fun id outcome heq => by cases heq
  load_live := fun id outcome heq => by cases heq
  returned := fun call' id heq => h id (TaskObs.stopped.inj heq).2

theorem Tracks.step_supervised (h : s.Tracks tr) (hstep : s.step e = some (s', obs)) :
    Chronicle TaskObs.Supervised tr obs := by
  have hended : ∀ id, id < s.created → ¬ s.Live id → TaskObs.ended id ∈ tr := by
    intro id hlt hdone
    by_contra hnot
    exact hdone ((h.live_iff id).mpr ⟨hlt, hnot⟩)
  cases step_move hstep with
  | started => exact ⟨supervised_of_silent (by simp) (by simp), trivial⟩
  | stoppedAtOnce call awaited hawaited hdone =>
      refine ⟨supervised_of_silent (by simp) (by simp), supervised_of_stopped ?_, trivial⟩
      intro id heq
      exact List.mem_append_left _ (hended id (h.named id (hawaited.trans heq)) (hdone id heq))
  | stopping => exact ⟨supervised_of_silent (by simp) (by simp), trivial⟩
  | joined call id hmem hdone =>
      refine ⟨supervised_of_stopped ?_, trivial⟩
      intro id' heq
      cases heq
      exact hended id (h.awaited call id hmem) hdone
  | loaded task outcome hmem hloads =>
      have hlive := (h.live_iff task.id).mp (List.mem_map_of_mem hmem)
      refine ⟨⟨?_, ?_, fun call id heq => by cases heq⟩,
        supervised_of_silent (by simp) (by simp), trivial⟩
      · exact fun _ _ _ => h.running_eq ▸ hloads.2.2
      · intro id outcome' heq
        cases heq
        exact ⟨(h.started_iff task.id).mpr hlive.1, hlive.2⟩
  | slept => exact ⟨supervised_of_silent (by simp) (by simp), trivial⟩
  | ended => exact ⟨supervised_of_silent (by simp) (by simp), trivial⟩

theorem run_tracks {checkInterval : Int} {es : List TaskEvent}
    (hrun : run step (init checkInterval) es = some (s, tr)) :
    s.Tracks tr ∧ Chronicle TaskObs.Supervised [] tr :=
  run_chronicle_along (C := fun _ _ => True)
    (fun _ _ _ _ _ h _ hs => ⟨h.step hs, h.step_supervised hs⟩) (init_tracks checkInterval)
    (along_of_forall (fun _ _ _ => trivial) _) hrun

/-! ## One call after the other -/

/-- The only task there can be is the one in `_refresh_task`, started last. -/
structure Alone (s : Supervisor) : Prop where
  only : ∀ task ∈ s.tasks, s.refreshTask = some task.id ∧ task.id + 1 = s.created
  awaited : ∀ call id, (call, id) ∈ s.stops → ∀ task ∈ s.tasks, task.id = id

theorem init_alone (checkInterval : Int) : (init checkInterval).Alone :=
  ⟨fun _ h => absurd h List.not_mem_nil, fun _ _ h => absurd h List.not_mem_nil⟩

/-- A task keeps its name when it is cancelled and when it goes to sleep. -/
private theorem forall_mem_map_id {tasks : List RefreshTask} {f : RefreshTask → RefreshTask}
    {P : Nat → Prop} (hid : ∀ task, (f task).id = task.id) (h : ∀ task ∈ tasks, P task.id) :
    ∀ task ∈ tasks.map f, P task.id := by
  intro task hmem
  obtain ⟨old, hold, rfl⟩ := List.mem_map.mp hmem
  rw [hid]
  exact h old hold

theorem Alone.step (h : s.Alone) (hserial : s.Serial e) (hstep : s.step e = some (s', obs)) :
    s'.Alone := by
  have hcancel : ∀ id task, (if RefreshTask.id task = id then { task with cancelled := true }
      else task).id = task.id := fun id task => by split <;> rfl
  cases step_move hstep with
  | started =>
      obtain ⟨hnone, hstops⟩ := hserial
      have hempty : s.tasks = [] := by
        refine List.eq_nil_iff_forall_not_mem.mpr fun task hmem => ?_
        have hsome := (h.only task hmem).1
        rw [hnone] at hsome
        cases hsome
      refine ⟨?_, ?_⟩
      · intro task hmem
        simp only [hempty, List.nil_append, List.mem_singleton] at hmem
        subst hmem
        exact ⟨rfl, rfl⟩
      · intro call id hmem
        simp only [hstops, List.not_mem_nil] at hmem
  | stoppedAtOnce call awaited hawaited hdone =>
      refine ⟨?_, h.awaited⟩
      intro task hmem
      have hsome := (h.only task hmem).1
      exact absurd (List.mem_map_of_mem hmem) (hdone task.id (hawaited ▸ hsome))
  | stopping call id hfresh htask hlive =>
      refine ⟨forall_mem_map_id (P := fun id' => s.refreshTask = some id' ∧ id' + 1 = s.created)
        (hcancel id) h.only, ?_⟩
      intro call' id' hmem
      refine forall_mem_map_id (P := fun id'' => id'' = id') (hcancel id) ?_
      rcases List.mem_append.mp hmem with hin | hnew
      · exact h.awaited call' id' hin
      · obtain ⟨rfl, rfl⟩ := Prod.mk.inj (List.mem_singleton.mp hnew)
        intro task hin
        have hsome := (h.only task hin).1
        rw [htask, Option.some.injEq] at hsome
        exact hsome.symm
  | joined call id hmem hdone =>
      have hempty : ∀ task, ¬ task ∈ s.tasks := fun task hin =>
        hdone (h.awaited call id hmem task hin ▸ List.mem_map_of_mem hin)
      exact ⟨fun task hin => absurd hin (hempty task),
        fun _ _ _ task hin => absurd hin (hempty task)⟩
  | loaded task outcome hmem =>
      have hsleep : ∀ other, (if RefreshTask.id other = task.id then
          { other with loop := task.loop.after outcome, begun := true } else other).id =
            other.id := fun other => by split <;> rfl
      exact ⟨forall_mem_map_id
          (P := fun id' => s.refreshTask = some id' ∧ id' + 1 = s.created) hsleep h.only,
        fun call id hin => forall_mem_map_id (P := fun id' => id' = id) hsleep
          (h.awaited call id hin)⟩
  | slept task outcome hmem =>
      have hsleep : ∀ other, (if RefreshTask.id other = task.id then
          { other with loop := task.loop, begun := true } else other).id = other.id :=
        fun other => by split <;> rfl
      exact ⟨forall_mem_map_id
          (P := fun id' => s.refreshTask = some id' ∧ id' + 1 = s.created) hsleep h.only,
        fun call id hin => forall_mem_map_id (P := fun id' => id' = id) hsleep
          (h.awaited call id hin)⟩
  | ended task outcome hmem =>
      exact ⟨fun task hin => h.only task (List.mem_of_mem_filter hin),
        fun call id hstop task hin => h.awaited call id hstop task (List.mem_of_mem_filter hin)⟩

private theorem sole_of_silent {before : List TaskObs} {x : TaskObs}
    (h : ∀ id outcome, x ≠ .loaded id outcome) : x.Sole before :=
  fun id outcome heq => absurd heq (h id outcome)

private theorem Alone.step_sole (h : s.Alone) (htracks : s.Tracks tr)
    (hstep : s.step e = some (s', obs)) : Chronicle TaskObs.Sole tr obs := by
  cases step_move hstep with
  | loaded task outcome hmem hloads =>
      refine ⟨?_, sole_of_silent (by simp), trivial⟩
      intro id outcome' heq id' hstarted
      cases heq
      have hlast := (h.only task hmem).2
      have hlt := (htracks.started_iff id').mp hstarted
      omega
  | stoppedAtOnce => exact ⟨sole_of_silent (by simp), sole_of_silent (by simp), trivial⟩
  | _ => exact ⟨sole_of_silent (by simp), trivial⟩

/-! ## The end of a stop -/

theorem task?_of_live {id : Nat} (h : s.Live id) : ∃ task, s.task? id = some task := by
  cases htask : s.task? id with
  | none => exact absurd h (not_live_of_task? htask)
  | some task => exact ⟨task, rfl⟩

theorem task?_of_not_live {id : Nat} (h : ¬ s.Live id) : s.task? id = none := by
  refine List.find?_eq_none.mpr fun task hmem heq => ?_
  exact h (List.mem_map.mpr ⟨task, hmem, by simpa using heq⟩)

/-- A stop is done as soon as its task is. -/
theorem Tracks.joined (h : s.Tracks tr) {call id : Nat} (hmem : (call, id) ∈ s.stops)
    (hdone : ¬ s.Live id) :
    ∃ s', s.step (.joined call) = some (s', [.stopped call (some id)]) := by
  have hfind : s.stops.find? (fun stop => stop.1 = call) = some (call, id) := by
    cases hsome : s.stops.find? (fun stop => stop.1 = call) with
    | none => exact absurd (decide_eq_true rfl) (List.find?_eq_none.mp hsome _ hmem)
    | some stop =>
        have hcall : stop.1 = call := by simpa using List.find?_some hsome
        rw [List.inj_on_of_nodup_map h.distinct (List.mem_of_find?_eq_some hsome) hmem hcall]
  simp only [Supervisor.step, hfind, task?_of_not_live hdone]
  exact ⟨_, rfl⟩

/-- The next stretch of the task that a stop awaits is its last one. -/
theorem Tracks.last_stretch (h : s.Tracks tr) {call id : Nat} (hmem : (call, id) ∈ s.stops)
    (hlive : s.Live id) (outcome : LoadOutcome) :
    s.step (.resume id outcome) = some (s.finish id, [.ended id]) := by
  obtain ⟨task, htask⟩ := task?_of_live hlive
  obtain ⟨hin, hid⟩ := live_of_task? htask
  have hcancelled := h.doomed call id hmem task hin hid
  have hloads : ¬ s.Loads task := fun hloads => by
    rw [hloads.1] at hcancelled
    cases hcancelled
  simp [Supervisor.step, htask, hloads, hcancelled]

/-- A stop awaits nothing but one more stretch of its task. -/
def StopsSoon (s : Supervisor) (call id : Nat) : Prop :=
  (∃ s', s.step (.joined call) = some (s', [.stopped call (some id)])) ∨
    ∀ outcome, ∃ s₁ s₂, s.step (.resume id outcome) = some (s₁, [.ended id]) ∧
      s₁.step (.joined call) = some (s₂, [.stopped call (some id)])

theorem Tracks.stopsSoon (h : s.Tracks tr) {call id : Nat} (hmem : (call, id) ∈ s.stops) :
    s.StopsSoon call id := by
  by_cases hlive : s.Live id
  · refine Or.inr fun outcome => ?_
    have hlast := h.last_stretch hmem hlive outcome
    have hdone : ¬ (s.finish id).Live id := by
      rw [Live, finish_ids]
      simp
    obtain ⟨s₂, hjoined⟩ := (h.step hlast).joined (s := s.finish id) hmem hdone
    exact ⟨s.finish id, s₂, hlast, hjoined⟩
  · exact Or.inl (h.joined hmem hlive)

/-- For every order in which any number of calls and tasks go on: a task loads only while
`_running`, and after a stop returned the task that it cancelled makes no more loads; a stop
under way is done after at most one more stretch of that task. -/
theorem supervised (checkInterval : Int) (es : List TaskEvent) (s : Supervisor)
    (tr : List TaskObs) (hrun : run step (init checkInterval) es = some (s, tr)) :
    Chronicle TaskObs.Supervised [] tr ∧
      ∀ call id, (call, id) ∈ s.stops → s.StopsSoon call id :=
  ⟨(run_tracks hrun).2, fun _ _ hmem => (run_tracks hrun).1.stopsSoon hmem⟩

/-- A loop that loads, is stopped and replaced by another one. -/
def restart : List TaskEvent :=
  [.start, .resume 0 (.returned true), .resume 0 (.returned true), .stop 7,
    .resume 0 (.returned true), .joined 7, .start, .resume 1 (.returned true),
    .resume 1 (.returned false)]

/-- The loop whose load an observation is. -/
def loaded? : TaskObs → Option Nat
  | .loaded id _ => some id
  | _ => none

theorem supervised_restart :
    ∃ s tr, run step (init 30) restart = some (s, tr) ∧ tr.filterMap loaded? = [0, 1] ∧
      Chronicle TaskObs.Supervised [] tr ∧
      ∀ call id, (call, id) ∈ s.stops → s.StopsSoon call id :=
  ⟨_, _, rfl, rfl, supervised 30 restart _ _ rfl⟩

/-- Where no loop is started before all those started earlier have been stopped, every load is that
of the loop started last. -/
theorem soleLoop (checkInterval : Int) (es : List TaskEvent) (s : Supervisor)
    (tr : List TaskObs) (hserial : Along step Serial (init checkInterval) es)
    (hrun : run step (init checkInterval) es = some (s, tr)) : Chronicle TaskObs.Sole [] tr :=
  (run_chronicle_along (I := fun s tr => s.Tracks tr ∧ s.Alone)
    (fun _ _ _ _ _ hboth hserial hs =>
      ⟨⟨hboth.1.step hs, hboth.2.step hserial hs⟩, hboth.2.step_sole hboth.1 hs⟩)
    ⟨init_tracks checkInterval, init_alone checkInterval⟩ hserial hrun).2

theorem soleLoop_restart :
    ∃ s tr, run step (init 30) restart = some (s, tr) ∧ tr.filterMap loaded? = [0, 1] ∧
      Chronicle TaskObs.Sole [] tr :=
  ⟨_, _, rfl, rfl, soleLoop 30 restart _ _ (by decide) rfl⟩

/-- A start while the first loop still sleeps leaves two loops that load. -/
example : ((run step (init 30)
    [.start, .resume 0 (.returned true), .start, .resume 1 (.returned true),
      .resume 0 (.returned true), .resume 1 (.returned true)]).map
        fun r => r.2.filterMap loaded?) = some [0, 1] := rfl

end Supervisor

end PaymentConnector
