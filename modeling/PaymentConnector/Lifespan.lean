import PaymentConnector.InFlight
import PaymentConnector.Noninterference
import PaymentConnector.RefreshTask

/-!
# The life of the process

`lifespan` around the service: the first load and the start of the refresh loop, then
requests and loads, then on shutdown the end of the loop and the wait for the handlers
under way, for `graceful_shutdown_timeout` seconds at most.

The server may hand in requests until the very end.  Between the creation of the refresh
task and its first stretch nothing else runs, so the two are one step here.

## Main results

* `Lifespan.run_service` — whatever the schedule, the service inside makes a run of its own.
* `Lifespan.gracefulShutdown` — nothing is loaded after the shutdown begins; the process
  ends when no request is left without its answer, or with a warning that counts those left.
* `Lifespan.drain_bounded` — the wait is over after ten tests a second.
-/

namespace PaymentConnector

open Library Library.Machine

/-- The settings that only `lifespan` reads, beside the others. -/
structure LifespanSettings extends Settings where
  gracefulShutdownTimeout : Int := 30
  servicePort : Int := 8000

/-- Where `lifespan` is: at its `yield`, in `stop_refresh_loop`, asleep in the loop that
waits for the handlers, or at its end. -/
inductive LifespanStage
  | serving
  | stopping
  | draining (deadline : Rat)
  | stopped

structure Lifespan where
  gracefulShutdownTimeout : Int
  service : Service
  supervisor : Supervisor
  stage : LifespanStage

inductive LifespanEvent
  /-- A step of the service that is not a load. -/
  | serve (e : ServiceEvent)
  /-- A refresh task goes on. -/
  | refresh (id : Nat) (env : Nat → VaultAttempt) (t : LoadReadings)
  /-- The server shuts down; the readings count if there is nothing to await. -/
  | shutdown (now test : Rat)
  /-- `stop_refresh_loop` returns, the deadline is set and tested. -/
  | joined (now test : Rat)
  /-- The `sleep` of the wait ends and the deadline is tested. -/
  | poll (now : Rat)

/-- What becomes visible; the readings at which the deadline is set and the process ends
are not logged. -/
inductive LifespanObs
  | service (obs : ServiceObs)
  | task (obs : TaskObs)
  | serviceStarted (port : Int)
  | serviceShuttingDown
  | deadlineSet (deadline : Rat)
  | gracefulShutdownTimeoutExceeded (inFlight : Int)
  | serviceStopped (now : Rat)

/-- What `load_credentials` returned, as its caller sees it. -/
def loadOutcome (obs : List ServiceObs) : LoadOutcome :=
  .returned (!(obs.filterMap ServiceObs.process?).any Obs.loadFailed)

/-- The name of the only call of `stop_refresh_loop`. -/
def shutdownCall : Nat := 0

namespace Lifespan

/-- `lifespan` up to its `yield`. -/
def begin (settings : LifespanSettings) (now : Rat) (env : Nat → VaultAttempt)
    (t : LoadReadings) : Option (Lifespan × List LifespanObs) :=
  match (Service.start settings.toSettings now).load env t with
  | none => none
  | some (service, obs) =>
      match run Supervisor.step (.init (checkIntervalOf settings.toSettings none))
          [.start, .resume 0 (.returned true)] with
      | none => none
      | some (supervisor, tasks) =>
          some (⟨settings.gracefulShutdownTimeout, service, supervisor, .serving⟩,
            obs.map .service ++ tasks.map .task ++ [.serviceStarted settings.servicePort])

/-- The test of the wait, and what follows when it fails. -/
def drain (l : Lifespan) (deadline now : Rat) : Lifespan × List LifespanObs :=
  let inFlight := l.service.process.connector.inFlight
  if 0 < inFlight ∧ now < deadline then ({ l with stage := .draining deadline }, [])
  else
    ({ l with stage := .stopped },
      (if 0 < inFlight then [.gracefulShutdownTimeoutExceeded inFlight] else []) ++
        [.serviceStopped now])

/-- `stop_refresh_loop` is over: the deadline is set, and tested for the first time. -/
def await (l : Lifespan) (now test : Rat) : Lifespan × List LifespanObs :=
  let deadline := now + l.gracefulShutdownTimeout
  let (l, obs) := l.drain deadline test
  (l, .deadlineSet deadline :: obs)

/-- One stretch of code without suspension. -/
def step (l : Lifespan) : LifespanEvent → Option (Lifespan × List LifespanObs)
  | .serve e =>
      match l.stage with
      | .stopped => none
      | _ =>
          if e.isLoad then none
          else
            match l.service.step e with
            | none => none
            | some (service, obs) => some ({ l with service := service }, obs.map .service)
  | .refresh id env t =>
      match l.stage, l.supervisor.task? id with
      | .stopped, _ => none
      | _, none => none
      | _, some task =>
          if l.supervisor.Loads task then
            match l.service.load env t with
            | none => none
            | some (service, obs) =>
                match l.supervisor.step (.resume id (loadOutcome obs)) with
                | none => none
                | some (supervisor, tasks) =>
                    some ({ l with service := service, supervisor := supervisor },
                      obs.map .service ++ tasks.map .task)
          else
            match l.supervisor.step (.resume id (.returned true)) with
            | none => none
            | some (supervisor, tasks) =>
                some ({ l with supervisor := supervisor }, tasks.map .task)
  | .shutdown now test =>
      match l.stage with
      | .serving =>
          match l.supervisor.step (.stop shutdownCall) with
          | none => none
          | some (supervisor, tasks) =>
              let l := { l with supervisor := supervisor }
              if supervisor.stops = [] then
                let (l, obs) := l.await now test
                some (l, .serviceShuttingDown :: tasks.map .task ++ obs)
              else
                some ({ l with stage := .stopping }, .serviceShuttingDown :: tasks.map .task)
      | _ => none
  | .joined now test =>
      match l.stage with
      | .stopping =>
          match l.supervisor.step (.joined shutdownCall) with
          | none => none
          | some (supervisor, tasks) =>
              let (l, obs) := { l with supervisor := supervisor }.await now test
              some (l, tasks.map .task ++ obs)
      | _ => none
  | .poll now =>
      match l.stage with
      | .draining deadline => some (l.drain deadline now)
      | _ => none

/-- The life of a process, from its start on. -/
def life (settings : LifespanSettings) (now : Rat) (env : Nat → VaultAttempt)
    (t : LoadReadings) (es : List LifespanEvent) : Option (Lifespan × List LifespanObs) :=
  match begin settings now env t with
  | none => none
  | some (l, pre) => (run step l es).map fun r => (r.1, pre ++ r.2)

end Lifespan

/-! ## What a trace says -/

/-- What the service shows. -/
def LifespanObs.service? : LifespanObs → Option ServiceObs
  | .service obs => some obs
  | _ => none

/-- What the refresh tasks show. -/
def LifespanObs.task? : LifespanObs → Option TaskObs
  | .task obs => some obs
  | _ => none

/-- What the process inside shows. -/
def processObs (tr : List LifespanObs) : List Obs :=
  (tr.filterMap LifespanObs.service?).filterMap ServiceObs.process?

/-- An observation of the process's life, seen with those before it. -/
structure LifespanObs.Drains (before : List LifespanObs) (x : LifespanObs) : Prop where
  /-- Nothing follows the end. -/
  last : ∀ now, ¬ LifespanObs.serviceStopped now ∈ before
  /-- No load follows the beginning of the shutdown. -/
  quiet : LifespanObs.serviceShuttingDown ∈ before →
    ∀ result, x ≠ .service (.process (.loaded result))
  /-- The warning counts the requests without an answer. -/
  warned : ∀ n, x = .gracefulShutdownTimeoutExceeded n →
    n = (unanswered (processObs before)).length ∧ 0 < n
  /-- At the end there are none, or there was a warning, and the deadline that was set is over. -/
  stopped : ∀ now, x = .serviceStopped now →
    unanswered (processObs before) = [] ∨
      (∃ n, LifespanObs.gracefulShutdownTimeoutExceeded n ∈ before) ∧
        (∃ deadline, LifespanObs.deadlineSet deadline ∈ before) ∧
          ∀ deadline, LifespanObs.deadlineSet deadline ∈ before → deadline ≤ now

namespace Lifespan

variable {l l' : Lifespan} {e : LifespanEvent} {tr obs : List LifespanObs}

/-! ## What a step does to the service inside -/

@[simp] private theorem service?_service (obs : List ServiceObs) :
    (obs.map LifespanObs.service).filterMap LifespanObs.service? = obs := by
  rw [List.filterMap_map]
  exact List.filterMap_some

@[simp] private theorem service?_task (obs : List TaskObs) :
    (obs.map LifespanObs.task).filterMap LifespanObs.service? = [] := by
  rw [List.filterMap_map]
  exact List.filterMap_none obs

@[simp] private theorem task?_service (obs : List ServiceObs) :
    (obs.map LifespanObs.service).filterMap LifespanObs.task? = [] := by
  rw [List.filterMap_map]
  exact List.filterMap_none obs

@[simp] private theorem task?_task (obs : List TaskObs) :
    (obs.map LifespanObs.task).filterMap LifespanObs.task? = obs := by
  rw [List.filterMap_map]
  exact List.filterMap_some

/-- The end of the shutdown is neither the service's nor a task's. -/
theorem drain_silent (l : Lifespan) (deadline now : Rat) :
    (l.drain deadline now).1.service = l.service ∧
      (l.drain deadline now).1.supervisor = l.supervisor ∧
      (l.drain deadline now).2.filterMap LifespanObs.service? = [] ∧
      (l.drain deadline now).2.filterMap LifespanObs.task? = [] := by
  unfold drain
  dsimp only
  split
  · exact ⟨rfl, rfl, rfl, rfl⟩
  · split <;> exact ⟨rfl, rfl, rfl, rfl⟩

theorem await_silent (l : Lifespan) (now test : Rat) :
    (l.await now test).1.service = l.service ∧
      (l.await now test).1.supervisor = l.supervisor ∧
      (l.await now test).2.filterMap LifespanObs.service? = [] ∧
      (l.await now test).2.filterMap LifespanObs.task? = [] :=
  l.drain_silent (now + l.gracefulShutdownTimeout) test

/-- Everything a step can do. -/
inductive Move (l : Lifespan) : LifespanEvent → Lifespan → List LifespanObs → Prop
  | served (e : ServiceEvent) (service : Service) (obs : List ServiceObs)
      (hstage : l.stage ≠ .stopped) (hload : e.isLoad = false)
      (hstep : l.service.step e = some (service, obs)) :
      Move l (.serve e) { l with service := service } (obs.map .service)
  | loaded (id : Nat) (env : Nat → VaultAttempt) (t : LoadReadings) (service : Service)
      (obs : List ServiceObs) (supervisor : Supervisor) (tasks : List TaskObs)
      (hstage : l.stage ≠ .stopped) (hrunning : l.supervisor.running = true)
      (hload : l.service.step (.load env t) = some (service, obs))
      (htask : l.supervisor.step (.resume id (loadOutcome obs)) = some (supervisor, tasks)) :
      Move l (.refresh id env t) { l with service := service, supervisor := supervisor }
        (obs.map .service ++ tasks.map .task)
  | resumed (id : Nat) (env : Nat → VaultAttempt) (t : LoadReadings) (supervisor : Supervisor)
      (tasks : List TaskObs) (hstage : l.stage ≠ .stopped)
      (htask : l.supervisor.step (.resume id (.returned true)) = some (supervisor, tasks)) :
      Move l (.refresh id env t) { l with supervisor := supervisor } (tasks.map .task)
  | stopping (now test : Rat) (supervisor : Supervisor) (tasks : List TaskObs)
      (hstage : l.stage = .serving)
      (htask : l.supervisor.step (.stop shutdownCall) = some (supervisor, tasks)) :
      Move l (.shutdown now test) { l with supervisor := supervisor, stage := .stopping }
        (.serviceShuttingDown :: tasks.map .task)
  | stoppedAtOnce (now test : Rat) (supervisor : Supervisor) (tasks : List TaskObs)
      (hstage : l.stage = .serving)
      (htask : l.supervisor.step (.stop shutdownCall) = some (supervisor, tasks)) :
      Move l (.shutdown now test) ({ l with supervisor := supervisor }.await now test).1
        (.serviceShuttingDown :: tasks.map .task ++
          ({ l with supervisor := supervisor }.await now test).2)
  | joined (now test : Rat) (supervisor : Supervisor) (tasks : List TaskObs)
      (hstage : l.stage = .stopping)
      (htask : l.supervisor.step (.joined shutdownCall) = some (supervisor, tasks)) :
      Move l (.joined now test) ({ l with supervisor := supervisor }.await now test).1
        (tasks.map .task ++ ({ l with supervisor := supervisor }.await now test).2)
  | polled (deadline now : Rat) (hstage : l.stage = .draining deadline) :
      Move l (.poll now) (l.drain deadline now).1 (l.drain deadline now).2

theorem step_move (h : l.step e = some (l', obs)) : Move l e l' obs := by
  cases e with
  | serve e =>
      simp only [step] at h
      split at h
      · cases h
      · rename_i hstage
        split at h
        · cases h
        · rename_i hload
          split at h
          · cases h
          · rename_i service obs' hstep
            cases h
            exact .served e service obs' hstage (by simpa using hload) hstep
  | refresh id env t =>
      simp only [step] at h
      split at h
      · cases h
      · cases h
      · rename_i task htask hstage
        split at h
        · rename_i hloads
          split at h
          · cases h
          · rename_i service obs' hload
            split at h
            · cases h
            · rename_i supervisor tasks hresume
              cases h
              exact .loaded id env t service obs' supervisor tasks hstage hloads.2.2 hload hresume
        · split at h
          · cases h
          · rename_i supervisor tasks hresume
            cases h
            exact .resumed id env t supervisor tasks hstage hresume
  | shutdown now test =>
      simp only [step] at h
      split at h
      · rename_i hstage
        split at h
        · cases h
        · rename_i supervisor tasks htask
          split at h
          · cases h
            exact .stoppedAtOnce now test supervisor tasks hstage htask
          · cases h
            exact .stopping now test supervisor tasks hstage htask
      · cases h
  | joined now test =>
      simp only [step] at h
      split at h
      · rename_i hstage
        split at h
        · cases h
        · rename_i supervisor tasks htask
          cases h
          exact .joined now test supervisor tasks hstage htask
      · cases h
  | poll now =>
      simp only [step] at h
      split at h
      · rename_i deadline hstage
        simp only [Option.some.injEq, Prod.ext_iff] at h
        obtain ⟨rfl, rfl⟩ := h
        exact .polled deadline now hstage
      · cases h

/-- A step of the process's life is invisible to the service inside or one of its steps. -/
theorem step_service (h : l.step e = some (l', obs)) :
    (l'.service = l.service ∧ obs.filterMap LifespanObs.service? = []) ∨
      ∃ e', l.service.step e' = some (l'.service, obs.filterMap LifespanObs.service?) := by
  cases step_move h with
  | served e service obs hstage hload hstep =>
      rw [service?_service]
      exact Or.inr ⟨e, hstep⟩
  | loaded id env t service obs supervisor tasks hstage hrunning hload htask =>
      rw [List.filterMap_append, service?_service, service?_task, List.append_nil]
      exact Or.inr ⟨_, hload⟩
  | resumed => exact Or.inl ⟨rfl, service?_task _⟩
  | stopping => exact Or.inl ⟨rfl, service?_task _⟩
  | stoppedAtOnce now test supervisor tasks =>
      have hsilent := ({ l with supervisor := supervisor } : Lifespan).await_silent now test
      refine Or.inl ⟨hsilent.1, ?_⟩
      rw [List.cons_append, List.filterMap_cons_none rfl, List.filterMap_append, service?_task,
        hsilent.2.2.1]
      rfl
  | joined now test supervisor tasks =>
      have hsilent := ({ l with supervisor := supervisor } : Lifespan).await_silent now test
      refine Or.inl ⟨hsilent.1, ?_⟩
      rw [List.filterMap_append, service?_task, hsilent.2.2.1]
      rfl
  | polled deadline now =>
      have hsilent := l.drain_silent deadline now
      exact Or.inl ⟨hsilent.1, hsilent.2.2.1⟩

/-- A step of the process's life is invisible to the refresh tasks or one of their steps. -/
theorem step_supervisor (h : l.step e = some (l', obs)) :
    (l'.supervisor = l.supervisor ∧ obs.filterMap LifespanObs.task? = []) ∨
      ∃ e', l.supervisor.step e' = some (l'.supervisor, obs.filterMap LifespanObs.task?) := by
  cases step_move h with
  | served => exact Or.inl ⟨rfl, task?_service _⟩
  | loaded id env t service obs supervisor tasks hstage hrunning hload htask =>
      rw [List.filterMap_append, task?_service, task?_task, List.nil_append]
      exact Or.inr ⟨_, htask⟩
  | resumed id env t supervisor tasks hstage htask =>
      rw [task?_task]
      exact Or.inr ⟨_, htask⟩
  | stopping now test supervisor tasks hstage htask =>
      rw [List.filterMap_cons_none rfl, task?_task]
      exact Or.inr ⟨_, htask⟩
  | stoppedAtOnce now test supervisor tasks hstage htask =>
      have hsilent := ({ l with supervisor := supervisor } : Lifespan).await_silent now test
      rw [hsilent.2.1, List.cons_append, List.filterMap_cons_none rfl, List.filterMap_append,
        task?_task, hsilent.2.2.2, List.append_nil]
      exact Or.inr ⟨_, htask⟩
  | joined now test supervisor tasks hstage htask =>
      have hsilent := ({ l with supervisor := supervisor } : Lifespan).await_silent now test
      rw [hsilent.2.1, List.filterMap_append, task?_task, hsilent.2.2.2, List.append_nil]
      exact Or.inr ⟨_, htask⟩
  | polled deadline now =>
      have hsilent := l.drain_silent deadline now
      exact Or.inl ⟨hsilent.2.1, hsilent.2.2.2⟩

/-! ## Runs of the life -/

theorem processObs_append (tr obs : List LifespanObs) :
    processObs (tr ++ obs) = processObs tr ++ processObs obs := by
  rw [processObs, List.filterMap_append, List.filterMap_append]
  rfl

/-- A step of the process's life is invisible to the process or one of its steps. -/
theorem step_process (h : l.step e = some (l', obs)) :
    (l'.service.process = l.service.process ∧ processObs obs = []) ∨
      ∃ e', l.service.process.step e' = some (l'.service.process, processObs obs) := by
  rcases step_service h with ⟨hsame, hnil⟩ | ⟨e', hstep⟩
  · exact Or.inl ⟨by rw [hsame], by rw [processObs, hnil]; rfl⟩
  · exact Service.step_process hstep

/-- What the stage says about the trace, beside what the parts say. -/
structure Runs (l : Lifespan) (tr : List LifespanObs) : Prop where
  underWay : l.service.process.UnderWay (processObs tr)
  tracks : l.supervisor.Tracks (tr.filterMap LifespanObs.task?)
  idle : l.stage ≠ .serving → l.supervisor.running = false
  shut : LifespanObs.serviceShuttingDown ∈ tr → l.stage ≠ .serving
  deadline : ∀ d, LifespanObs.deadlineSet d ∈ tr → l.stage = .draining d ∨ l.stage = .stopped
  awaited : ∀ d, l.stage = .draining d → LifespanObs.deadlineSet d ∈ tr
  ended : ∀ now, LifespanObs.serviceStopped now ∈ tr → l.stage = .stopped

private theorem Runs.step_underWay (h : l.Runs tr) (hstep : l.step e = some (l', obs)) :
    l'.service.process.UnderWay (processObs (tr ++ obs)) := by
  rw [processObs_append]
  rcases step_process hstep with ⟨hsame, hnil⟩ | ⟨e', he'⟩
  · rw [hsame, hnil, List.append_nil]
    exact h.underWay
  · exact h.underWay.step he'

private theorem Runs.step_tracks (h : l.Runs tr) (hstep : l.step e = some (l', obs)) :
    l'.supervisor.Tracks ((tr ++ obs).filterMap LifespanObs.task?) := by
  rw [List.filterMap_append]
  rcases step_supervisor hstep with ⟨hsame, hnil⟩ | ⟨e', he'⟩
  · rw [hsame, hnil, List.append_nil]
    exact h.tracks
  · exact h.tracks.step he'

/-- The service and its tasks show nothing of the life around them. -/
private theorem mem_parts {x : LifespanObs} {obs : List ServiceObs} {tasks : List TaskObs}
    (h : x ∈ obs.map LifespanObs.service ++ tasks.map LifespanObs.task) :
    (∃ o, x = .service o) ∨ ∃ o, x = .task o := by
  rcases List.mem_append.mp h with hin | hin
  · obtain ⟨o, -, rfl⟩ := List.mem_map.mp hin
    exact Or.inl ⟨o, rfl⟩
  · obtain ⟨o, -, rfl⟩ := List.mem_map.mp hin
    exact Or.inr ⟨o, rfl⟩

/-- A step that shows only the parts and leaves the stage. -/
private theorem Runs.of_parts (h : l.Runs tr) (hstep : l.step e = some (l', obs))
    (parts : List ServiceObs) (tasks : List TaskObs)
    (hobs : obs = parts.map LifespanObs.service ++ tasks.map LifespanObs.task)
    (hstage : l'.stage = l.stage)
    (hidle : l.supervisor.running = false → l'.supervisor.running = false) :
    l'.Runs (tr ++ obs) := by
  have hold : ∀ x, (∀ o, x ≠ LifespanObs.service o) → (∀ o, x ≠ LifespanObs.task o) →
      x ∈ tr ++ obs → x ∈ tr := by
    intro x hservice htask hin
    rcases List.mem_append.mp hin with hin | hin
    · exact hin
    · rw [hobs] at hin
      rcases mem_parts hin with ⟨o, heq⟩ | ⟨o, heq⟩
      · exact absurd heq (hservice o)
      · exact absurd heq (htask o)
  refine ⟨h.step_underWay hstep, h.step_tracks hstep, ?_, ?_, ?_, ?_, ?_⟩
  · rw [hstage]
    exact fun hne => hidle (h.idle hne)
  · rw [hstage]
    exact fun hin => h.shut (hold _ (by simp) (by simp) hin)
  · rw [hstage]
    exact fun d hin => h.deadline d (hold _ (by simp) (by simp) hin)
  · rw [hstage]
    exact fun d heq => List.mem_append_left obs (h.awaited d heq)
  · rw [hstage]
    exact fun now hin => h.ended now (hold _ (by simp) (by simp) hin)

/-- The test of the wait leads on before the deadline, or to the end. -/
theorem drain_stage (l : Lifespan) (deadline now : Rat) :
    (l.drain deadline now).1.stage = .draining deadline ∧ now < deadline ∨
      (l.drain deadline now).1.stage = .stopped := by
  unfold drain
  dsimp only
  split
  · rename_i hwait
    exact Or.inl ⟨rfl, hwait.2⟩
  · exact Or.inr rfl

/-- No deadline is set by the test, and only the last one shows the end. -/
theorem mem_drain {l : Lifespan} {deadline now : Rat} {x : LifespanObs}
    (h : x ∈ (l.drain deadline now).2) :
    (l.drain deadline now).1.stage = .stopped ∧
      (x = .serviceStopped now ∨
        x = .gracefulShutdownTimeoutExceeded l.service.process.connector.inFlight) := by
  unfold drain at h ⊢
  dsimp only at h ⊢
  split at h
  · cases h
  · rename_i hover
    rw [if_neg hover]
    refine ⟨rfl, ?_⟩
    rcases List.mem_append.mp h with hin | hin
    · split at hin
      · exact Or.inr (List.mem_singleton.mp hin)
      · cases hin
    · exact Or.inl (List.mem_singleton.mp hin)

/-- Before the wait no deadline was set and nothing has ended. -/
private theorem Runs.fresh (h : l.Runs tr) (hstage : l.stage = .serving ∨ l.stage = .stopping) :
    (∀ d, ¬ LifespanObs.deadlineSet d ∈ tr) ∧ ∀ now, ¬ LifespanObs.serviceStopped now ∈ tr := by
  refine ⟨fun d hin => ?_, fun now hin => ?_⟩
  · rcases hstage with heq | heq <;> rcases h.deadline d hin with h' | h' <;>
      rw [heq] at h' <;> cases h'
  · rcases hstage with heq | heq <;> have h' := h.ended now hin <;> rw [heq] at h' <;> cases h'

/-- A step that ends with the first test of the deadline. -/
private theorem Runs.of_await (h : l.Runs tr) (hstep : l.step e = some (l', obs))
    (hstage : l.stage = .serving ∨ l.stage = .stopping) {l₁ : Lifespan} {now test : Rat}
    {pre : List LifespanObs} (hl' : l' = (l₁.await now test).1)
    (hobs : obs = pre ++ (l₁.await now test).2)
    (hpre : ∀ x ∈ pre, x = .serviceShuttingDown ∨ ∃ o, x = .task o)
    (hidle : l₁.supervisor.running = false) : l'.Runs (tr ++ obs) := by
  have hstages := l₁.drain_stage (now + l₁.gracefulShutdownTimeout) test
  have hsilent := l₁.await_silent now test
  have hfresh := h.fresh hstage
  rw [← hl'] at hsilent
  have hnew : ∀ x ∈ obs, (∀ o, x ≠ LifespanObs.task o) → x ≠ .serviceShuttingDown →
      x = .deadlineSet (now + l₁.gracefulShutdownTimeout) ∨
        x ∈ (l₁.drain (now + l₁.gracefulShutdownTimeout) test).2 := by
    intro x hin htask hshut
    rw [hobs, List.mem_append] at hin
    rcases hin with hin | hin
    · rcases hpre x hin with heq | ⟨o, heq⟩
      · exact absurd heq hshut
      · exact absurd heq (htask o)
    · exact List.mem_cons.mp hin
  have hmoved : l'.stage = .draining (now + l₁.gracefulShutdownTimeout) ∨ l'.stage = .stopped := by
    rw [hl']
    exact hstages.imp And.left id
  refine ⟨h.step_underWay hstep, h.step_tracks hstep, ?_, ?_, ?_, ?_, ?_⟩
  · rw [hsilent.2.1]
    exact fun _ => hidle
  · intro _ hserving
    rw [hserving] at hmoved
    rcases hmoved with hmoved | hmoved <;> cases hmoved
  · intro d hin
    rcases List.mem_append.mp hin with hold | hin
    · exact absurd hold (hfresh.1 d)
    · rcases hnew _ hin (by simp) (by simp) with heq | hend
      · rw [LifespanObs.deadlineSet.inj heq]
        exact hmoved
      · rcases (mem_drain hend).2 with heq | heq <;> cases heq
  · intro d heq
    rw [heq] at hmoved
    rcases hmoved with hdraining | hstopped
    · rw [LifespanStage.draining.inj hdraining, hobs]
      exact List.mem_append_right tr (List.mem_append_right pre List.mem_cons_self)
    · cases hstopped
  · intro end' hin
    rcases List.mem_append.mp hin with hold | hin
    · exact absurd hold (hfresh.2 end')
    · rcases hnew _ hin (by simp) (by simp) with heq | hend
      · cases heq
      · rw [hl']
        exact (mem_drain hend).1

theorem Runs.step (h : l.Runs tr) (hstep : l.step e = some (l', obs)) : l'.Runs (tr ++ obs) := by
  have htasks : ∀ {tasks : List TaskObs}, ∀ x ∈ tasks.map LifespanObs.task,
      x = .serviceShuttingDown ∨ ∃ o, x = .task o := by
    intro tasks x hin
    obtain ⟨o, -, rfl⟩ := List.mem_map.mp hin
    exact Or.inr ⟨o, rfl⟩
  cases step_move hstep with
  | served e service obs hstage hload hs =>
      exact h.of_parts hstep obs [] (List.append_nil _).symm rfl id
  | loaded id env t service obs supervisor tasks hstage hrunning hload htask =>
      exact h.of_parts hstep obs tasks rfl rfl (Supervisor.step_running htask (by simp)).1
  | resumed id env t supervisor tasks hstage htask =>
      exact h.of_parts hstep [] tasks rfl rfl (Supervisor.step_running htask (by simp)).1
  | stopping now test supervisor tasks hstage htask =>
      have hfresh := h.fresh (Or.inl hstage)
      have hstopped := (Supervisor.step_running htask (by simp)).2 _ rfl
      refine ⟨h.step_underWay hstep, h.step_tracks hstep, fun _ => hstopped, ?_, ?_, ?_, ?_⟩
      · exact fun _ heq => by cases heq
      · intro d hin
        simp [hfresh.1 d] at hin
      · intro d hdraining
        cases hdraining
      · intro now' hin
        simp [hfresh.2 now'] at hin
  | stoppedAtOnce now test supervisor tasks hstage htask =>
      refine h.of_await hstep (Or.inl hstage) rfl rfl ?_
        ((Supervisor.step_running htask (by simp)).2 _ rfl)
      rw [List.forall_mem_cons]
      exact ⟨Or.inl rfl, htasks⟩
  | joined now test supervisor tasks hstage htask =>
      exact h.of_await hstep (Or.inr hstage) rfl rfl htasks
        ((Supervisor.step_running htask (by simp)).1 (h.idle (by rw [hstage]; simp)))
  | polled deadline now hstage =>
      have hsilent := l.drain_silent deadline now
      have hdrain := l.drain_stage deadline now
      refine ⟨h.step_underWay hstep, h.step_tracks hstep, ?_, ?_, ?_, ?_, ?_⟩
      · rw [hsilent.2.1]
        exact fun _ => h.idle (by rw [hstage]; simp)
      · intro _ hserving
        rcases hdrain with ⟨hmoved, -⟩ | hmoved <;> rw [hserving] at hmoved <;> cases hmoved
      · intro d hin
        rcases List.mem_append.mp hin with hold | hin
        · have hd : d = deadline := by
            rcases h.deadline d hold with heq | heq <;> rw [hstage] at heq <;> cases heq
            rfl
          rw [hd]
          exact hdrain.imp And.left id
        · rcases (mem_drain hin).2 with heq | heq <;> cases heq
      · intro d heq
        rcases hdrain with ⟨hmoved, -⟩ | hmoved
        · have hd : deadline = d := LifespanStage.draining.inj (hmoved.symm.trans heq)
          rw [← hd]
          exact List.mem_append_left _ (h.awaited deadline hstage)
        · cases hmoved.symm.trans heq
      · intro now' hin
        rcases List.mem_append.mp hin with hold | hin
        · have heq := h.ended now' hold
          rw [hstage] at heq
          cases heq
        · exact (mem_drain hin).1

/-! ## What a step shows -/

/-- Only a load of the process shows one. -/
private theorem step_loaded {p p' : Process} {e : Event} {obs : List Obs} {result : Bool}
    (hstep : p.step e = some (p', obs)) (hmem : Obs.loaded result ∈ obs) :
    ∃ read t, e = .load read t := by
  cases step_spec hstep with
  | load read t => exact ⟨read, t, rfl⟩
  | refused => simp at hmem
  | raised => simp at hmem
  | replayed => simp at hmem
  | posting => simp at hmem
  | stored => simp [storedObs] at hmem
  | failed => simp at hmem
  | fallback => simp at hmem

/-- The service shows no load in its other steps. -/
private theorem service_loaded {s s' : Service} {e : ServiceEvent} {obs : List ServiceObs}
    {result : Bool} (hstep : s.step e = some (s', obs)) (hload : e.isLoad = false) :
    ¬ ServiceObs.process (.loaded result) ∈ obs := by
  intro hmem
  cases e with
  | load env t => cases hload
  | receive rid request uuid now =>
      simp only [Service.step] at hstep
      split at hstep
      · cases hstep
      · cases hstep
        cases hmem
  | limit rid created now =>
      simp only [Service.step] at hstep
      split at hstep
      · cases hstep
        simp at hmem
      · cases hstep
  | handle rid vault t =>
      simp only [Service.step] at hstep
      split at hstep
      · unfold Service.handle at hstep
        split at hstep
        · dsimp only at hstep
          split at hstep
          · cases hstep
          · rename_i process obs' hprocess
            cases hstep
            obtain ⟨obs'', hin, heq⟩ := List.mem_map.mp hmem
            cases heq
            obtain ⟨read, t, heq⟩ := step_loaded hprocess hin
            cases heq
        · cases hstep
          cases hmem
        · cases hstep
          simp at hmem
        · cases hstep
          cases hmem
        · cases hstep
          cases hmem
      · cases hstep
  | answer rid outcome uuid t =>
      simp only [Service.step] at hstep
      split at hstep
      · cases hstep
      · rename_i process obs' hprocess
        cases hstep
        obtain ⟨obs'', hin, heq⟩ := List.mem_map.mp hmem
        cases heq
        obtain ⟨read, t, heq⟩ := step_loaded hprocess hin
        cases heq
  | reach rid statusCode now =>
      simp only [Service.step] at hstep
      split at hstep
      · cases hstep
        simp at hmem
      · cases hstep
  | respond rid now =>
      simp only [Service.step] at hstep
      split at hstep
      · cases hstep
        unfold Service.respond at hmem
        split at hmem
        · simp at hmem
        · simp at hmem
      · cases hstep

/-- Observations that neither warn nor end. -/
private theorem chronicle_plain {xs : List LifespanObs} :
    ∀ {before : List LifespanObs}, (∀ now, ¬ LifespanObs.serviceStopped now ∈ before) →
      (∀ x ∈ xs, (∀ n, x ≠ LifespanObs.gracefulShutdownTimeoutExceeded n) ∧
        ∀ now, x ≠ LifespanObs.serviceStopped now) →
      (LifespanObs.serviceShuttingDown ∈ before ++ xs →
        ∀ result, ¬ LifespanObs.service (.process (.loaded result)) ∈ xs) →
      Chronicle LifespanObs.Drains before xs := by
  induction xs with
  | nil => exact fun _ _ _ => trivial
  | cons x xs ih =>
      intro before hlast hplain hquiet
      have hx := hplain x List.mem_cons_self
      refine ⟨⟨hlast, ?_, fun n heq => absurd heq (hx.1 n), fun now heq => absurd heq (hx.2 now)⟩,
        ih ?_ (fun y hy => hplain y (List.mem_cons_of_mem x hy)) ?_⟩
      · intro hin result heq
        exact hquiet (List.mem_append_left _ hin) result (heq ▸ List.mem_cons_self)
      · intro now hin
        rcases List.mem_append.mp hin with hin | hin
        · exact hlast now hin
        · exact hx.2 now (List.mem_singleton.mp hin).symm
      · intro hin result hmem
        refine hquiet ?_ result (List.mem_cons_of_mem x hmem)
        rw [List.append_assoc, List.singleton_append] at hin
        exact hin

/-- The end of the wait, or nothing. -/
private theorem chronicle_drain {before : List LifespanObs} {deadline now : Rat}
    (hcount : l.service.process.connector.inFlight = (unanswered (processObs before)).length)
    (hlast : ∀ now, ¬ LifespanObs.serviceStopped now ∈ before)
    (hset : LifespanObs.deadlineSet deadline ∈ before)
    (hdeadline : ∀ d, LifespanObs.deadlineSet d ∈ before → d = deadline) :
    Chronicle LifespanObs.Drains before (l.drain deadline now).2 := by
  unfold drain
  dsimp only
  split
  · trivial
  · rename_i hover
    by_cases hleft : 0 < l.service.process.connector.inFlight
    · have hlate : deadline ≤ now := not_lt.mp fun hlt => hover ⟨hleft, hlt⟩
      rw [if_pos hleft, List.singleton_append]
      refine ⟨⟨hlast, fun _ _ heq => (by cases heq), ?_, fun _ heq => (by cases heq)⟩,
        ⟨?_, fun _ _ heq => (by cases heq), fun _ heq => (by cases heq), ?_⟩, trivial⟩
      · intro n heq
        cases heq
        exact ⟨hcount, hleft⟩
      · intro now' hin
        simp [hlast now'] at hin
      · intro now' heq
        cases heq
        refine Or.inr ⟨⟨_, List.mem_append_right _ List.mem_cons_self⟩,
          ⟨deadline, List.mem_append_left _ hset⟩, ?_⟩
        intro d hin
        rw [hdeadline d (by simpa using hin)]
        exact hlate
    · rw [if_neg hleft, List.nil_append]
      refine ⟨⟨hlast, fun _ _ heq => (by cases heq), fun _ heq => (by cases heq), ?_⟩, trivial⟩
      intro now' _
      refine Or.inl (List.length_eq_zero_iff.mp ?_)
      omega

/-- What is not the service's shows no step of the process. -/
private theorem processObs_of_silent {xs : List LifespanObs}
    (h : xs.filterMap LifespanObs.service? = []) (before : List LifespanObs) :
    processObs (before ++ xs) = processObs before := by
  rw [processObs_append]
  simp [processObs, h]

/-- A deadline is set, and tested for the first time. -/
private theorem chronicle_await {before : List LifespanObs} {now test : Rat}
    (hcount : l.service.process.connector.inFlight = (unanswered (processObs before)).length)
    (hlast : ∀ now, ¬ LifespanObs.serviceStopped now ∈ before)
    (hfresh : ∀ d, ¬ LifespanObs.deadlineSet d ∈ before) :
    Chronicle LifespanObs.Drains before (l.await now test).2 := by
  refine ⟨⟨hlast, fun _ _ heq => (by cases heq), fun _ heq => (by cases heq),
    fun _ heq => (by cases heq)⟩, chronicle_drain ?_ ?_ ?_ ?_⟩
  · rw [processObs_of_silent rfl]
    exact hcount
  · intro now' hin
    simp [hlast now'] at hin
  · exact List.mem_append_right _ List.mem_cons_self
  · intro d hin
    simpa [hfresh d] using hin

theorem Runs.step_drains (h : l.Runs tr) (hstep : l.step e = some (l', obs)) :
    Chronicle LifespanObs.Drains tr obs := by
  have hcount := h.underWay.inFlight_eq
  have hrunning : l.stage ≠ .stopped → ∀ now, ¬ LifespanObs.serviceStopped now ∈ tr :=
    fun hne now hin => hne (h.ended now hin)
  cases step_move hstep with
  | served e service obs hstage hload hs =>
      refine chronicle_plain (hrunning hstage) (by simp) ?_
      intro _ result hin
      obtain ⟨o, ho, heq⟩ := List.mem_map.mp hin
      cases heq
      exact service_loaded hs hload ho
  | loaded id env t service obs supervisor tasks hstage hup hload htask =>
      refine chronicle_plain (hrunning hstage) ?_ ?_
      · intro x hin
        rcases mem_parts hin with ⟨o, rfl⟩ | ⟨o, rfl⟩ <;> simp
      · intro hin
        have hbegun : LifespanObs.serviceShuttingDown ∈ tr := by simpa using hin
        rw [h.idle (h.shut hbegun)] at hup
        cases hup
  | resumed id env t supervisor tasks hstage htask =>
      exact chronicle_plain (hrunning hstage) (by simp) (by simp)
  | stopping now test supervisor tasks hstage htask =>
      exact chronicle_plain (h.fresh (Or.inl hstage)).2 (by simp) (by simp)
  | stoppedAtOnce now test supervisor tasks hstage htask =>
      have hfresh := h.fresh (Or.inl hstage)
      refine chronicle_append.mpr ⟨chronicle_plain hfresh.2 (by simp) (by simp), ?_⟩
      refine chronicle_await ?_ ?_ ?_
      · rw [processObs_of_silent (by rw [List.filterMap_cons_none rfl, service?_task])]
        exact hcount
      · intro now' hin
        simp [hfresh.2 now'] at hin
      · intro d hin
        simp [hfresh.1 d] at hin
  | joined now test supervisor tasks hstage htask =>
      have hfresh := h.fresh (Or.inr hstage)
      refine chronicle_append.mpr ⟨chronicle_plain hfresh.2 (by simp) (by simp), ?_⟩
      refine chronicle_await ?_ ?_ ?_
      · rw [processObs_of_silent (service?_task _)]
        exact hcount
      · intro now' hin
        simp [hfresh.2 now'] at hin
      · intro d hin
        simp [hfresh.1 d] at hin
  | polled deadline now hstage =>
      refine chronicle_drain hcount (hrunning (by rw [hstage]; simp)) (h.awaited deadline hstage) ?_
      intro d hin
      rcases h.deadline d hin with heq | heq <;> rw [hstage] at heq <;> cases heq
      rfl

/-! ## Whole runs -/

variable {settings : LifespanSettings} {now : Rat} {env : Nat → VaultAttempt}
  {t : LoadReadings} {es : List LifespanEvent}

/-- The first load is one of the service, and the tasks make their first steps. -/
theorem begin_spec {pre : List LifespanObs} (h : begin settings now env t = some (l, pre)) :
    ∃ obs tasks,
      pre = obs.map LifespanObs.service ++ tasks.map LifespanObs.task ++
        [.serviceStarted settings.servicePort] ∧
      (Service.start settings.toSettings now).step (.load env t) = some (l.service, obs) ∧
      run Supervisor.step (.init (checkIntervalOf settings.toSettings none))
        [.start, .resume 0 (.returned true)] = some (l.supervisor, tasks) ∧
      l.gracefulShutdownTimeout = settings.gracefulShutdownTimeout ∧ l.stage = .serving := by
  unfold begin at h
  split at h
  · cases h
  · rename_i service obs hload
    split at h
    · cases h
    · rename_i supervisor tasks htasks
      cases h
      exact ⟨obs, tasks, rfl, hload, htasks, rfl, rfl⟩

private theorem begin_service? {obs : List ServiceObs} {tasks : List TaskObs} {port : Int} :
    (obs.map LifespanObs.service ++ tasks.map LifespanObs.task ++
      [LifespanObs.serviceStarted port]).filterMap LifespanObs.service? = obs := by
  rw [List.filterMap_append, List.filterMap_append, service?_service, service?_task,
    List.append_nil]
  exact List.append_nil obs

theorem begin_runs {pre : List LifespanObs} (h : begin settings now env t = some (l, pre)) :
    l.Runs pre ∧ Chronicle LifespanObs.Drains [] pre := by
  obtain ⟨obs, tasks, rfl, hload, htasks, -, hserving⟩ := begin_spec h
  have hstage : ∀ stage, l.stage = stage → stage = .serving := fun _ heq => heq ▸ hserving
  have hplain : ∀ x ∈ obs.map LifespanObs.service ++ tasks.map LifespanObs.task ++
      [.serviceStarted settings.servicePort], x ≠ .serviceShuttingDown ∧
        (∀ d, x ≠ .deadlineSet d) ∧ (∀ n, x ≠ .gracefulShutdownTimeoutExceeded n) ∧
        ∀ now, x ≠ .serviceStopped now := by
    intro x hin
    rcases List.mem_append.mp hin with hin | hin
    · rcases mem_parts hin with ⟨o, rfl⟩ | ⟨o, rfl⟩ <;> simp
    · rw [List.mem_singleton.mp hin]
      simp
  refine ⟨⟨?_, ?_, ?_, ?_, ?_, ?_, ?_⟩, chronicle_plain (by simp) ?_ ?_⟩
  · rw [processObs, begin_service?]
    have hstart := Process.start_underWay settings.toSettings .init
    rcases Service.step_process hload with ⟨hsame, hnil⟩ | ⟨e', he'⟩
    · rw [hsame, hnil]
      exact hstart
    · exact hstart.step he'
  · have hnone : [LifespanObs.serviceStarted settings.servicePort].filterMap LifespanObs.task? =
      [] := rfl
    rw [List.filterMap_append, List.filterMap_append, task?_service, task?_task, hnone,
      List.nil_append, List.append_nil]
    exact (Supervisor.run_tracks htasks).1
  · exact fun hne => absurd hserving hne
  · exact fun hin => absurd rfl (hplain _ hin).1
  · exact fun d hin => absurd rfl ((hplain _ hin).2.1 d)
  · exact fun d hdraining => by cases hstage _ hdraining
  · exact fun now' hin => absurd rfl ((hplain _ hin).2.2.2 now')
  · exact fun x hin => (hplain x hin).2.2
  · intro hin
    rw [List.nil_append] at hin
    exact absurd rfl (hplain _ hin).1

theorem life_iff :
    life settings now env t es = some (l, tr) ↔
      ∃ l₀ pre tr', begin settings now env t = some (l₀, pre) ∧
        run step l₀ es = some (l, tr') ∧ tr = pre ++ tr' := by
  unfold life
  cases hbegin : begin settings now env t with
  | none => simp
  | some r =>
      obtain ⟨l₀, pre⟩ := r
      simp only [Option.map_eq_some_iff, Option.some.injEq, Prod.mk.injEq]
      constructor
      · intro h
        obtain ⟨⟨l', tr'⟩, hrun, rfl, rfl⟩ := h
        exact ⟨l₀, pre, tr', ⟨rfl, rfl⟩, hrun, rfl⟩
      · intro h
        obtain ⟨_, _, tr', ⟨rfl, rfl⟩, hrun, rfl⟩ := h
        exact ⟨(l, tr'), hrun, rfl, rfl⟩

theorem life_runs (hlife : life settings now env t es = some (l, tr)) :
    l.Runs tr ∧ Chronicle LifespanObs.Drains [] tr := by
  obtain ⟨l₀, pre, tr', hbegin, hrun, rfl⟩ := life_iff.mp hlife
  obtain ⟨hruns, hdrains⟩ := begin_runs hbegin
  refine run_invariant
    (I := fun l tr => l.Runs (pre ++ tr) ∧ Chronicle LifespanObs.Drains [] (pre ++ tr)) ?_ ?_ hrun
  · intro l tr e l' obs hboth hstep
    rw [← List.append_assoc]
    refine ⟨hboth.1.step hstep, chronicle_append.mpr ⟨hboth.2, ?_⟩⟩
    rw [List.nil_append]
    exact hboth.1.step_drains hstep
  · rw [List.append_nil]
    exact ⟨hruns, hdrains⟩

/-- The whole life is, as far as the service goes, a run of the service: what holds of all of
those holds until the end of the process. -/
theorem life_service (hlife : life settings now env t es = some (l, tr)) :
    ∃ es', run Service.step (Service.start settings.toSettings now) es' =
      some (l.service, tr.filterMap LifespanObs.service?) := by
  obtain ⟨l₀, pre, tr', hbegin, hrun, rfl⟩ := life_iff.mp hlife
  obtain ⟨obs, tasks, rfl, hload, -, -, -⟩ := begin_spec hbegin
  obtain ⟨es', hes'⟩ := run_projection (f := Lifespan.service) (g := LifespanObs.service?)
    (fun _ _ _ _ hs => step_service hs) hrun
  refine ⟨.load env t :: es', run_cons_iff.mpr ⟨_, obs, _, hload, hes', ?_⟩⟩
  rw [List.filterMap_append, begin_service?]

/-- For every life of the process, with any schedule of its handlers, its refresh task and its
shutdown: once the shutdown has begun no load is made; the process ends when every request
with a POST has its answer, or when the deadline is over, with a warning that counts those
without; and `_in_flight` is their number all along. -/
theorem gracefulShutdown (settings : LifespanSettings) (now : Rat) (env : Nat → VaultAttempt)
    (t : LoadReadings) (es : List LifespanEvent) (l : Lifespan) (tr : List LifespanObs)
    (hlife : life settings now env t es = some (l, tr)) :
    Chronicle LifespanObs.Drains [] tr ∧
      l.service.process.connector.inFlight = (unanswered (processObs tr)).length :=
  ⟨(life_runs hlife).2, (life_runs hlife).1.underWay.inFlight_eq⟩

/-- The number of handlers that each warning of a trace counts. -/
def warned? : LifespanObs → Option Int
  | .gracefulShutdownTimeoutExceeded inFlight => some inFlight
  | _ => none

/-- The readings of the ends of a trace. -/
def stopped? : LifespanObs → Option Rat
  | .serviceStopped now => some now
  | _ => none

/-- A payment suspended at its POST when the server shuts down with a limit of one second. -/
def hangingPayment (tests : List Rat) : List LifespanEvent :=
  [.serve (.receive 1 Service.sampleHttpRequest "uuid-1" 2), .serve (.limit 1 2 2),
    .serve (.handle 1 (Service.attemptWith "key-v1") (.at 2)), .shutdown 3 3,
    .refresh 0 (fun _ => Service.attemptWith "key-v1") (.at 3), .joined 3 3] ++ tests.map .poll

theorem gracefulShutdown_hanging :
    ∃ l tr, life { sampleSettings with gracefulShutdownTimeout := 1 } 1
          (fun _ => Service.attemptWith "key-v1") (.at 1) (hangingPayment [7 / 2, 5]) =
        some (l, tr) ∧
      tr.filterMap warned? = [1] ∧ tr.filterMap stopped? = [5] ∧
      Chronicle LifespanObs.Drains [] tr ∧
      l.service.process.connector.inFlight = (unanswered (processObs tr)).length := by
  have hlife : ∃ l tr, life { sampleSettings with gracefulShutdownTimeout := 1 } 1
          (fun _ => Service.attemptWith "key-v1") (.at 1) (hangingPayment [7 / 2, 5]) =
        some (l, tr) ∧
      tr.filterMap warned? = [1] ∧ tr.filterMap stopped? = [5] := by
    have hsome : ((life { sampleSettings with gracefulShutdownTimeout := 1 } 1
        (fun _ => Service.attemptWith "key-v1") (.at 1) (hangingPayment [7 / 2, 5])).any
          fun r => decide (r.2.filterMap warned? = [1] ∧ r.2.filterMap stopped? = [5])) = true := by
      decide +kernel
    obtain ⟨r, hr, hp⟩ := (Option.any_eq_true _ _).mp hsome
    exact ⟨r.1, r.2, hr, of_decide_eq_true hp⟩
  obtain ⟨l, tr, hlife, hwarned, hstopped⟩ := hlife
  exact ⟨l, tr, hlife, hwarned, hstopped, gracefulShutdown _ 1 _ _ _ l tr hlife⟩

/-! ## The length of the wait -/

/-- The reading at which an event of the wait tests the deadline. -/
def polled? : LifespanEvent → Option Rat
  | .poll now => some now
  | _ => none

/-- The end is the end. -/
theorem step_stopped (hstage : l.stage = .stopped) (e : LifespanEvent) : l.step e = none := by
  cases e <;> simp [step, hstage]

theorem run_stopped (hstage : l.stage = .stopped) (hrun : run step l es = some (l', tr)) :
    es = [] := by
  cases es with
  | nil => rfl
  | cons e es =>
      obtain ⟨_, _, _, hs, -⟩ := run_cons_iff.mp hrun
      rw [step_stopped hstage] at hs
      cases hs

/-- After the end of the loop the wait begins, or there is nothing to wait for. -/
theorem joined_stage {test : Rat} (hstep : l.step (.joined now test) = some (l', obs)) :
    l'.stage = .draining (now + l.gracefulShutdownTimeout) ∧
        test < now + l.gracefulShutdownTimeout ∨ l'.stage = .stopped := by
  cases step_move hstep with
  | joined now test supervisor tasks hstage htask =>
      exact ({ l with supervisor := supervisor } : Lifespan).drain_stage
        (now + l.gracefulShutdownTimeout) test

/-- A step during the wait that is no test of the deadline leaves it. -/
theorem step_draining {deadline : Rat} (hstage : l.stage = .draining deadline)
    (hstep : l.step e = some (l', obs)) (hpoll : polled? e = none) :
    l'.stage = .draining deadline := by
  cases step_move hstep with
  | served => exact hstage
  | loaded => exact hstage
  | resumed => exact hstage
  | stopping now test supervisor tasks hserving =>
      rw [hstage] at hserving
      cases hserving
  | stoppedAtOnce now test supervisor tasks hserving =>
      rw [hstage] at hserving
      cases hserving
  | joined now test supervisor tasks hstopping =>
      rw [hstage] at hstopping
      cases hstopping
  | polled => cases hpoll

/-- Between two tests there is the tenth of a second that `sleep` takes. -/
def Spaced (readings : List Rat) : Prop := readings.IsChain fun a b => a + 1 / 10 ≤ b

theorem polls_bounded {deadline : Rat} (es : List LifespanEvent) :
    ∀ {l l' : Lifespan} {tr : List LifespanObs} {from' : Rat}, l.stage = .draining deadline →
      from' ≤ deadline → run step l es = some (l', tr) →
      Spaced (from' :: es.filterMap polled?) →
      ((es.filterMap polled?).length : Rat) ≤ 10 * (deadline - from') + 1 := by
  induction es with
  | nil =>
      intro l l' tr from' _ hfrom _ _
      simp only [List.filterMap_nil, List.length_nil, Nat.cast_zero]
      linarith
  | cons e es ih =>
      intro l l' tr from' hstage hfrom hrun hspaced
      obtain ⟨l₁, o₁, tr₁, hs, hr, -⟩ := run_cons_iff.mp hrun
      cases hpoll : polled? e with
      | none =>
          rw [List.filterMap_cons_none hpoll] at hspaced ⊢
          exact ih (step_draining hstage hs hpoll) hfrom hr hspaced
      | some now =>
          rw [List.filterMap_cons_some hpoll] at hspaced ⊢
          have hnext : from' + 1 / 10 ≤ now := (List.isChain_cons_cons.mp hspaced).1
          have hrest : Spaced (now :: es.filterMap polled?) := (List.isChain_cons_cons.mp hspaced).2
          obtain rfl : e = .poll now := by
            cases e <;> cases hpoll
            rfl
          have hdrained : l.drain deadline now = (l₁, o₁) := by
            simpa [step, hstage] using hs
          have hstages := l.drain_stage deadline now
          rw [hdrained] at hstages
          rw [List.length_cons, Nat.cast_succ]
          rcases hstages with ⟨hwait, hlt⟩ | hend
          · have hbound := ih hwait (le_of_lt hlt) hr hrest
            linarith
          · rw [run_stopped hend hr]
            simp only [List.filterMap_nil, List.length_nil, Nat.cast_zero]
            linarith

private theorem drain_timeout (l : Lifespan) (deadline now : Rat) :
    (l.drain deadline now).1.gracefulShutdownTimeout = l.gracefulShutdownTimeout := by
  unfold drain
  dsimp only
  split <;> rfl

theorem step_timeout (hstep : l.step e = some (l', obs)) :
    l'.gracefulShutdownTimeout = l.gracefulShutdownTimeout := by
  cases step_move hstep with
  | stoppedAtOnce => exact drain_timeout _ _ _
  | joined => exact drain_timeout _ _ _
  | polled => exact drain_timeout _ _ _
  | _ => rfl

/-- The wait makes at most ten tests a second, and one more. -/
theorem drain_bounded (settings : LifespanSettings) (start : Rat) (env : Nat → VaultAttempt)
    (t : LoadReadings) (es₁ es₂ : List LifespanEvent) (now test : Rat) (l : Lifespan)
    (tr : List LifespanObs) (htimeout : 0 ≤ settings.gracefulShutdownTimeout)
    (hlife : life settings start env t (es₁ ++ .joined now test :: es₂) = some (l, tr))
    (hclock : now ≤ test) (hspaced : Spaced (test :: es₂.filterMap polled?)) :
    ((es₂.filterMap polled?).length : Rat) ≤ 10 * settings.gracefulShutdownTimeout + 1 := by
  obtain ⟨l₀, pre, tr', hbegin, hrun, -⟩ := life_iff.mp hlife
  obtain ⟨-, -, -, -, -, hset, -⟩ := begin_spec hbegin
  obtain ⟨l₁, tr₁, l₂, o, tr₂, hfirst, hjoined, hwait⟩ := run_cut hrun
  have htimeout₁ : l₁.gracefulShutdownTimeout = settings.gracefulShutdownTimeout :=
    run_state_invariant
      (I := fun l => l.gracefulShutdownTimeout = settings.gracefulShutdownTimeout)
      (fun _ _ _ _ heq hs => (step_timeout hs).trans heq) hset hfirst
  have hseconds : (0 : Rat) ≤ settings.gracefulShutdownTimeout := by exact_mod_cast htimeout
  have hstages := joined_stage hjoined
  rw [htimeout₁] at hstages
  rcases hstages with ⟨hdraining, hlt⟩ | hend
  · have hbound := polls_bounded es₂ hdraining (le_of_lt hlt) hwait hspaced
    linarith
  · rw [run_stopped hend hwait]
    simp only [List.filterMap_nil, List.length_nil, Nat.cast_zero]
    linarith

theorem drain_bounded_hanging :
    ∃ l tr, life { sampleSettings with gracefulShutdownTimeout := 1 } 1
          (fun _ => Service.attemptWith "key-v1") (.at 1) (hangingPayment [7 / 2, 5]) =
        some (l, tr) ∧ (([7 / 2, 5] : List Rat).length : Rat) ≤ 10 * ((1 : Int) : Rat) + 1 := by
  obtain ⟨r, hr⟩ := Option.isSome_iff_exists.mp
    (show (life { sampleSettings with gracefulShutdownTimeout := 1 } 1
      (fun _ => Service.attemptWith "key-v1") (.at 1) (hangingPayment [7 / 2, 5])).isSome = true by
        decide +kernel)
  refine ⟨r.1, r.2, hr, ?_⟩
  exact drain_bounded { sampleSettings with gracefulShutdownTimeout := 1 } 1 _ _
    [.serve (.receive 1 Service.sampleHttpRequest "uuid-1" 2), .serve (.limit 1 2 2),
      .serve (.handle 1 (Service.attemptWith "key-v1") (.at 2)), .shutdown 3 3,
      .refresh 0 (fun _ => Service.attemptWith "key-v1") (.at 3)]
    [.poll (7 / 2), .poll 5] 3 3 r.1 r.2 (by decide) hr (le_refl _)
    (show Spaced [3, 7 / 2, 5] by unfold Spaced; decide +kernel)

end Lifespan

end PaymentConnector
