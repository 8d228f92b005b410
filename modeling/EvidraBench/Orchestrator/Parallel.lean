import EvidraBench.Lib.Transition

/-!
# Parallel runs

`pkg/orchestrator/orchestrator.go` `RunParallel` with `pkg/jobqueue`: the jobs are enqueued, at most
`parallel` of them are worked on at a time, and the caller waits for a counter of completed jobs.

The workers, the queue and the caller are one transition system. A worker's function is cut where
other workers can see or be seen: at its accesses to shared counters, at the mutex, and around the
calls that take time (`provider.Recreate` and the run itself). What the outside answers (does a
workspace get made, what does the run return, does `Recreate` work) is a `World`; when things
happen is the schedule.
-/

namespace EvidraBench.Orchestrator

open EvidraBench.Lib

/-! ### Jobs -/

/-- Source: `pkg/jobqueue/types.go` `MaxJobAttempts` -/
def maxJobAttempts : Nat := 2

/-- Source: `pkg/config/config.go` `DefaultNamespace` -/
def defaultNamespace : String := "bench"

/-- Source: `pkg/jobqueue/types.go` `BenchJobArgs` -/
structure BenchJobArgs where
  scenarioID : String
  model : String
  namespaceSlot : Nat
  parallel : Nat
deriving DecidableEq, Repr

/-- Source: `pkg/jobqueue/client.go` `Client.InsertBatch` -/
def insertBatch (scenarios : List String) (model : String) (parallel : Nat) : List BenchJobArgs :=
  scenarios.zipIdx.map fun (sid, i) =>
    { scenarioID := sid, model := model, namespaceSlot := i % parallel, parallel := parallel }

/-- The namespace that a job is run in.
Source: `pkg/jobqueue/worker.go` `BenchWorker.Work` -/
def workNamespace (args : BenchJobArgs) : String :=
  if args.parallel > 1 then defaultNamespace ++ "-w" ++ toString args.namespaceSlot
  else defaultNamespace

/-! ### Outcomes -/

/-- What `errors.As` finds in the error of a run. -/
structure RunError where
  incompatibleProvider : Bool
  infra : Bool
deriving DecidableEq, Repr

/-- The part of `harness.RunResult` that is read here. -/
structure HarnessResult where
  passed : Bool
  exitCode : Int
deriving DecidableEq, Repr

structure RunReturn where
  result : Option HarnessResult
  err : Option RunError
deriving DecidableEq, Repr

structure ScenarioOutcome where
  status : String
  exitCode : Int
  passed : Bool := false
  failed : Bool := false
  skipped : Bool := false
  infra : Bool := false
deriving DecidableEq, Repr

def classifyScenarioError : Option RunError → ScenarioOutcome
  | none => { status := "passed", exitCode := 0, passed := true }
  | some err =>
      if err.incompatibleProvider then { status := "skipped", exitCode := 0, skipped := true }
      else if err.infra then { status := "error", exitCode := -1, failed := true, infra := true }
      else { status := "failed", exitCode := 1, failed := true }

def classifyScenarioResult (ret : RunReturn) : ScenarioOutcome :=
  match ret.err, ret.result with
  | some err, _ => classifyScenarioError (some err)
  | none, none => { status := "error", exitCode := -1, failed := true, infra := true }
  | none, some result =>
      if result.passed then { status := "passed", exitCode := result.exitCode, passed := true }
      else
        { status := "failed"
          exitCode := if result.exitCode = 0 then 1 else result.exitCode
          failed := true }

/-! ### The system -/

/-- The arguments of `RunParallel` and the orchestrator's cluster. The queue is not created with
less than one worker. -/
structure Setup where
  scenarios : List String
  models : List String
  repeats : Int
  parallel : Nat
  parallel_pos : 0 < parallel
  /-- Whether there is a provider: an external kubeconfig has none. -/
  provider : Bool
  kubeconfigPath : String

/-- The jobs in the order in which they are enqueued.
Source: `RunParallel`, "Enqueue" -/
def Setup.jobs (c : Setup) : List BenchJobArgs :=
  c.models.flatMap fun model =>
    (List.range c.repeats.toNat).flatMap fun _ => insertBatch c.scenarios model c.parallel

/-- Source: `RunParallel`, `total` -/
def Setup.total (c : Setup) : Int := c.scenarios.length * c.models.length * c.repeats

/-- Source: `RunParallel`, `infraFailureThreshold` -/
def infraFailureThreshold : Nat := 2

/-- What the outside answers to each attempt of each job. -/
structure World where
  /-- Whether `workspace.New` makes a workspace. -/
  workspace : Nat → Nat → Bool
  run : Nat → Nat → RunReturn
  /-- The kubeconfig of the new cluster, if `provider.Recreate` makes one. -/
  recreate : Nat → Nat → Option String

inductive Phase where
  | start
  /-- The workspace is made and the start is reported. -/
  | made
  /-- It holds `recreateMu`. -/
  | locked
  /-- It holds `recreateMu` and has called `provider.Recreate`. -/
  | recreating
  /-- It has its kubeconfig path and has called the run function. -/
  | running (kubeconfigPath : String)
  /-- The run has returned. -/
  | returned
  /-- `completed` is counted. -/
  | ended
  /-- The infra failure counter is updated. -/
  | noted
  /-- The outcome is counted. -/
  | booked
deriving DecidableEq, Repr

/-- A job in the queue; numbers are the attempts before. -/
inductive Status where
  | available (tries : Nat)
  | working (tries : Nat) (phase : Phase)
  /-- The last attempt failed; the job is available again later. -/
  | retryable (tries : Nat)
  | dropped
  | done
deriving DecidableEq, Repr

/-- What happened to the cluster and the failure counter. -/
inductive Event where
  | infraFailure
  | recreated
deriving DecidableEq, Repr

structure Shared where
  completed : Nat
  passed : Nat
  failed : Nat
  skipped : Nat
  consecutiveInfraFailures : Nat
  /-- The kubeconfig path of the cluster. -/
  cluster : String
  /-- The latest event first. -/
  history : List Event
deriving DecidableEq, Repr

structure RunResult where
  total : Int
  completed : Nat
  passed : Nat
  failed : Nat
  skipped : Nat
deriving DecidableEq, Repr

/-- Where `RunParallel` is. -/
inductive Main where
  | waiting
  /-- In `client.Stop`. -/
  | stopping
  | returned (result : RunResult)
  | cancelled
deriving DecidableEq, Repr

structure State where
  /-- The available jobs, the oldest first. -/
  queue : List Nat
  status : Nat → Status
  shared : Shared
  main : Main

inductive Act where
  /-- Time passes. -/
  | tick
  /-- A free worker takes the oldest available job. -/
  | fetch
  /-- A job that waited for its retry is available again. -/
  | promote (job : Nat)
  | work (job : Nat)
  /-- The caller looks at `completed`. -/
  | poll
  /-- `client.Stop` has waited for the last worker. -/
  | stop
  /-- `client.Stop` has waited long enough. -/
  | stopTimeout
  /-- The caller's context is done. -/
  | cancel
deriving DecidableEq, Repr

/-! ### Steps -/

def Status.isWorking : Status → Bool
  | .working _ _ => true
  | _ => false

/-- Whether the worker of a job holds `recreateMu`. -/
def Status.holdsMutex : Status → Bool
  | .working _ .locked => true
  | .working _ .recreating => true
  | _ => false

def Setup.count (c : Setup) (s : State) (p : Status → Bool) : Nat :=
  ∑ j ∈ Finset.range c.jobs.length, (p (s.status j)).toNat

def retry (tries : Nat) : Status :=
  if tries + 1 < maxJobAttempts then .retryable (tries + 1) else .dropped

/-- The counters after the switch over the outcome, the infra failure counter.
Source: `RunParallel`, worker function -/
def note (o : ScenarioOutcome) (sh : Shared) : Shared :=
  if !o.passed && !o.skipped && o.infra then
    { sh with
      consecutiveInfraFailures := sh.consecutiveInfraFailures + 1
      history := .infraFailure :: sh.history }
  else { sh with consecutiveInfraFailures := 0 }

/-- The counters after the switch over the outcome, the counter of the outcome.
Source: `RunParallel`, worker function -/
def book (o : ScenarioOutcome) (sh : Shared) : Shared :=
  if o.passed then { sh with passed := sh.passed + 1 }
  else if o.skipped then { sh with skipped := sh.skipped + 1 }
  else { sh with failed := sh.failed + 1 }

/-- What the worker of an attempt does next, `none` if it has to wait for the mutex.
Source: `RunParallel`, worker function; `selectWorkerKubeconfigPath` -/
def advance (c : Setup) (w : World) (mutexFree : Bool) (job tries : Nat) (sh : Shared) :
    Phase → Option (Status × Shared)
  | .start =>
      some (if w.workspace job tries then .working tries .made else retry tries, sh)
  | .made =>
      if !c.provider then some (.working tries (.running sh.cluster), sh)
      else if mutexFree then some (.working tries .locked, sh)
      else none
  | .locked =>
      if infraFailureThreshold ≤ sh.consecutiveInfraFailures then
        some (.working tries .recreating, sh)
      else some (.working tries (.running sh.cluster), sh)
  | .recreating =>
      match w.recreate job tries with
      | none => some (.working tries (.running sh.cluster), sh)
      | some path =>
          some (.working tries (.running path),
            { sh with
              cluster := path
              consecutiveInfraFailures := 0
              history := .recreated :: sh.history })
  | .running _ => some (.working tries .returned, sh)
  | .returned => some (.working tries .ended, { sh with completed := sh.completed + 1 })
  | .ended => some (.working tries .noted, note (classifyScenarioResult (w.run job tries)) sh)
  | .noted => some (.working tries .booked, book (classifyScenarioResult (w.run job tries)) sh)
  | .booked => some (.done, sh)

/-- What `RunParallel` returns. -/
def Setup.result (c : Setup) (sh : Shared) : RunResult :=
  { total := c.total
    completed := sh.completed
    passed := sh.passed
    failed := sh.failed
    skipped := sh.skipped }

/-- One step of a parallel run.
Source: `RunParallel` -/
def step (c : Setup) (w : World) (s : State) : Act → Option State
  | .tick => some s
  | .fetch =>
      match s.queue with
      | [] => none
      | job :: rest =>
          match s.status job with
          | .available tries =>
              if s.main = .waiting ∧ c.count s Status.isWorking < c.parallel then
                some { s with
                  queue := rest
                  status := Function.update s.status job (.working tries .start) }
              else none
          | _ => none
  | .promote job =>
      match s.status job with
      | .retryable tries =>
          some { s with
            queue := s.queue ++ [job]
            status := Function.update s.status job (.available tries) }
      | _ => none
  | .work job =>
      match s.status job with
      | .working tries phase =>
          match advance c w (c.count s Status.holdsMutex = 0) job tries s.shared phase with
          | none => none
          | some (status, shared) =>
              some { s with
                status := Function.update s.status job status
                shared := shared }
      | _ => none
  | .poll =>
      if s.main = .waiting then
        some (if c.total ≤ s.shared.completed then { s with main := .stopping } else s)
      else none
  | .stop =>
      if s.main = .stopping ∧ c.count s Status.isWorking = 0 then
        some { s with main := .returned (c.result s.shared) }
      else none
  | .stopTimeout =>
      if s.main = .stopping then some { s with main := .returned (c.result s.shared) } else none
  | .cancel => if s.main = .waiting then some { s with main := .cancelled } else none

/-- The state when the workers have been started. -/
def start (c : Setup) : State where
  queue := List.range c.jobs.length
  status j := if j < c.jobs.length then .available 0 else .dropped
  shared := ⟨0, 0, 0, 0, 0, c.kubeconfigPath, []⟩
  main := .waiting

def runParallel (c : Setup) (w : World) : System State Act := ⟨start c, step c w⟩
/-- Some scenarios for one model and two workers. -/
def twoWorkers (scenarios : List String) : Setup where
  scenarios := scenarios
  models := ["sonnet"]
  repeats := 1
  parallel := 2
  parallel_pos := by decide
  provider := false
  kubeconfigPath := "/tmp/kubeconfig"

def barren : World := ⟨fun _ _ => false, fun _ _ => ⟨none, none⟩, fun _ _ => none⟩

theorem retry_cases (k : Nat) : retry k = .retryable (k + 1) ∧ k + 1 < maxJobAttempts ∨
    retry k = .dropped ∧ maxJobAttempts ≤ k + 1 := by
  unfold retry
  split_ifs with h
  · exact Or.inl ⟨rfl, h⟩
  · exact Or.inr ⟨rfl, by omega⟩

theorem apply_retry {β : Type} (f : Status → β) (h : ∀ k, f (.retryable k) = f .dropped)
    (k : Nat) : f (retry k) = f .dropped := by
  rcases retry_cases k with ⟨heq, -⟩ | ⟨heq, -⟩
  · rw [heq, h]
  · rw [heq]

theorem status_start {c : Setup} {j : Nat} (hj : j < c.jobs.length) :
    (start c).status j = .available 0 := if_pos hj

theorem start_status_cases (c : Setup) (j : Nat) :
    (start c).status j = .available 0 ∨ (start c).status j = .dropped := by
  by_cases hj : j < c.jobs.length
  · exact Or.inl (if_pos hj)
  · exact Or.inr (if_neg hj)

theorem reach_step {c : Setup} {w : World} {s s' : State} {a : Act}
    (h : (runParallel c w).Reach s) (hs : step c w s a = some s') : (runParallel c w).Reach s' :=
  h.step hs

theorem exists_fetch {c : Setup} {w : World} {s : State} {job k : Nat} {rest : List Nat}
    (hmain : s.main = .waiting) (hqueue : s.queue = job :: rest)
    (hjob : s.status job = .available k) (hroom : c.count s Status.isWorking < c.parallel) :
    ∃ s', step c w s .fetch = some s' ∧ s'.main = .waiting ∧ s'.queue = rest ∧
      s'.shared = s.shared ∧ s'.status = Function.update s.status job (.working k .start) := by
  simp only [step, hqueue, hjob]
  rw [if_pos ⟨hmain, hroom⟩]
  exact ⟨_, rfl, hmain, rfl, rfl, rfl⟩

theorem exists_work {c : Setup} {w : World} {s : State} {job k : Nat} {p : Phase} {new : Status}
    {sh : Shared} (hjob : s.status job = .working k p)
    (h : advance c w (c.count s Status.holdsMutex = 0) job k s.shared p = some (new, sh)) :
    ∃ s', step c w s (.work job) = some s' ∧ s'.main = s.main ∧ s'.queue = s.queue ∧
      s'.shared = sh ∧ s'.status = Function.update s.status job new := by
  simp only [step, hjob, h]
  exact ⟨_, rfl, rfl, rfl, rfl, rfl⟩

/-! ### What a step can do -/

/-- Whether an action is one of the queue and its workers. -/
def Act.isWorker : Act → Bool
  | .fetch => true
  | .promote _ => true
  | .work _ => true
  | _ => false

/-- What the queue and the worker of a job can do to it, with the shared data and the queue after
it. -/
inductive Moves (c : Setup) (w : World) (s : State) (job : Nat) :
    Status → Status → Shared → List Nat → Prop
  | fetch {k : Nat} {rest : List Nat} (hmain : s.main = .waiting)
      (hqueue : s.queue = job :: rest) (hroom : c.count s Status.isWorking < c.parallel) :
      Moves c w s job (.available k) (.working k .start) s.shared rest
  | promote {k : Nat} :
      Moves c w s job (.retryable k) (.available k) s.shared (s.queue ++ [job])
  | make {k : Nat} (hws : w.workspace job k = true) :
      Moves c w s job (.working k .start) (.working k .made) s.shared s.queue
  | fail {k : Nat} (hws : w.workspace job k = false) :
      Moves c w s job (.working k .start) (retry k) s.shared s.queue
  | external {k : Nat} (hprovider : c.provider = false) :
      Moves c w s job (.working k .made) (.working k (.running s.shared.cluster)) s.shared s.queue
  | lock {k : Nat} (hprovider : c.provider = true) (hfree : c.count s Status.holdsMutex = 0) :
      Moves c w s job (.working k .made) (.working k .locked) s.shared s.queue
  | call {k : Nat} (h : infraFailureThreshold ≤ s.shared.consecutiveInfraFailures) :
      Moves c w s job (.working k .locked) (.working k .recreating) s.shared s.queue
  | pass {k : Nat} (h : s.shared.consecutiveInfraFailures < infraFailureThreshold) :
      Moves c w s job (.working k .locked) (.working k (.running s.shared.cluster)) s.shared s.queue
  | recreateFailed {k : Nat} :
      Moves c w s job (.working k .recreating) (.working k (.running s.shared.cluster)) s.shared
        s.queue
  | recreated {k : Nat} {path : String} :
      Moves c w s job (.working k .recreating) (.working k (.running path))
        { s.shared with
          cluster := path
          consecutiveInfraFailures := 0
          history := .recreated :: s.shared.history } s.queue
  | runReturns {k : Nat} {path : String} :
      Moves c w s job (.working k (.running path)) (.working k .returned) s.shared s.queue
  | complete {k : Nat} :
      Moves c w s job (.working k .returned) (.working k .ended)
        { s.shared with completed := s.shared.completed + 1 } s.queue
  | note {k : Nat} :
      Moves c w s job (.working k .ended) (.working k .noted)
        (note (classifyScenarioResult (w.run job k)) s.shared) s.queue
  | book {k : Nat} :
      Moves c w s job (.working k .noted) (.working k .booked)
        (book (classifyScenarioResult (w.run job k)) s.shared) s.queue
  | finish {k : Nat} : Moves c w s job (.working k .booked) .done s.shared s.queue

variable {c : Setup} {w : World} {s s' : State} {a : Act} {job : Nat} {old new : Status}
  {sh : Shared} {queue : List Nat}

theorem moves_of_advance {k : Nat} {p : Phase}
    (h : advance c w (c.count s Status.holdsMutex = 0) job k s.shared p = some (new, sh)) :
    Moves c w s job (.working k p) new sh s.queue := by
  cases p with
  | start =>
      obtain ⟨rfl, rfl⟩ := Prod.mk.inj (Option.some.inj h)
      split_ifs with hws
      · exact .make hws
      · exact .fail (Bool.eq_false_iff.mpr hws)
  | made =>
      simp only [advance] at h
      split_ifs at h with hprovider hfree
      · obtain ⟨rfl, rfl⟩ := Prod.mk.inj (Option.some.inj h)
        exact .external (Bool.not_eq_true' _ ▸ hprovider)
      · obtain ⟨rfl, rfl⟩ := Prod.mk.inj (Option.some.inj h)
        exact .lock (by simpa using hprovider) (of_decide_eq_true hfree)
  | locked =>
      simp only [advance] at h
      split_ifs at h with hcount
      · obtain ⟨rfl, rfl⟩ := Prod.mk.inj (Option.some.inj h)
        exact .call hcount
      · obtain ⟨rfl, rfl⟩ := Prod.mk.inj (Option.some.inj h)
        exact .pass (by omega)
  | recreating =>
      simp only [advance] at h
      split at h
      · obtain ⟨rfl, rfl⟩ := Prod.mk.inj (Option.some.inj h)
        exact .recreateFailed
      · obtain ⟨rfl, rfl⟩ := Prod.mk.inj (Option.some.inj h)
        exact .recreated
  | running path =>
      obtain ⟨rfl, rfl⟩ := Prod.mk.inj (Option.some.inj h)
      exact .runReturns
  | returned =>
      obtain ⟨rfl, rfl⟩ := Prod.mk.inj (Option.some.inj h)
      exact .complete
  | ended =>
      obtain ⟨rfl, rfl⟩ := Prod.mk.inj (Option.some.inj h)
      exact .note
  | noted =>
      obtain ⟨rfl, rfl⟩ := Prod.mk.inj (Option.some.inj h)
      exact .book
  | booked =>
      obtain ⟨rfl, rfl⟩ := Prod.mk.inj (Option.some.inj h)
      exact .finish

inductive CallerMoves (c : Setup) (s : State) : Act → Main → Prop
  | tick : CallerMoves c s .tick s.main
  | wait (hmain : s.main = .waiting) (h : s.shared.completed < c.total) :
      CallerMoves c s .poll s.main
  | leave (hmain : s.main = .waiting) (h : c.total ≤ s.shared.completed) :
      CallerMoves c s .poll .stopping
  | stop (hmain : s.main = .stopping) (hidle : c.count s Status.isWorking = 0) :
      CallerMoves c s .stop (.returned (c.result s.shared))
  | stopTimeout (hmain : s.main = .stopping) :
      CallerMoves c s .stopTimeout (.returned (c.result s.shared))
  | cancel (hmain : s.main = .waiting) : CallerMoves c s .cancel .cancelled

/-- **What a step can do.** It is one of the caller and nothing but `main` changes, or it is one of
the queue or a worker, and one job moves. -/
theorem step_cases (h : step c w s a = some s') :
    (a.isWorker = false ∧ CallerMoves c s a s'.main ∧ s' = { s with main := s'.main }) ∨
      (a.isWorker = true ∧ s'.main = s.main ∧ ∃ job new,
        Moves c w s job (s.status job) new s'.shared s'.queue ∧
          s'.status = Function.update s.status job new) := by
  cases a with
  | tick =>
      obtain rfl := Option.some.inj h
      exact Or.inl ⟨rfl, .tick, rfl⟩
  | fetch =>
      refine Or.inr ⟨rfl, ?_⟩
      simp only [step] at h
      split at h
      · cases h
      · rename_i job rest hqueue
        split at h
        · rename_i k hk
          split_ifs at h with hcan
          obtain rfl := Option.some.inj h
          exact ⟨rfl, job, _, hk ▸ .fetch hcan.1 hqueue hcan.2, rfl⟩
        · cases h
  | promote job =>
      refine Or.inr ⟨rfl, ?_⟩
      simp only [step] at h
      split at h
      · rename_i k hk
        obtain rfl := Option.some.inj h
        exact ⟨rfl, job, _, hk ▸ .promote, rfl⟩
      · cases h
  | work job =>
      refine Or.inr ⟨rfl, ?_⟩
      simp only [step] at h
      split at h
      · rename_i k p hk
        split at h
        · cases h
        · rename_i new sh hadvance
          obtain rfl := Option.some.inj h
          exact ⟨rfl, job, new, hk ▸ moves_of_advance hadvance, rfl⟩
      · cases h
  | poll =>
      simp only [step] at h
      split_ifs at h with hmain htotal
      · obtain rfl := Option.some.inj h
        exact Or.inl ⟨rfl, .leave hmain htotal, rfl⟩
      · obtain rfl := Option.some.inj h
        exact Or.inl ⟨rfl, .wait hmain (by omega), rfl⟩
  | stop =>
      simp only [step] at h
      split_ifs at h with hmain
      obtain rfl := Option.some.inj h
      exact Or.inl ⟨rfl, .stop hmain.1 hmain.2, rfl⟩
  | stopTimeout =>
      simp only [step] at h
      split_ifs at h with hmain
      obtain rfl := Option.some.inj h
      exact Or.inl ⟨rfl, .stopTimeout hmain, rfl⟩
  | cancel =>
      simp only [step] at h
      split_ifs at h with hmain
      obtain rfl := Option.some.inj h
      exact Or.inl ⟨rfl, .cancel hmain, rfl⟩

/-! ### Counting jobs -/

theorem length_jobs (c : Setup) : (c.jobs.length : ℤ) = max c.total 0 := by
  have hlen : c.jobs.length = c.scenarios.length * c.models.length * c.repeats.toNat := by
    have hbatch : ∀ model, (insertBatch c.scenarios model c.parallel).length =
        c.scenarios.length := by
      intro model
      simp [insertBatch]
    simp only [Setup.jobs, List.length_flatMap, hbatch, List.map_const', List.sum_replicate,
      List.length_range, smul_eq_mul]
    ring
  rw [hlen, Setup.total]
  rcases le_or_gt 0 c.repeats with hrepeats | hrepeats
  · rw [Nat.cast_mul, Nat.cast_mul, Int.toNat_of_nonneg hrepeats, max_eq_left (by positivity)]
  · rw [Int.toNat_of_nonpos hrepeats.le, Nat.mul_zero, max_eq_right]
    · rfl
    · exact mul_nonpos_of_nonneg_of_nonpos (by positivity) hrepeats.le

theorem Moves.ne_dropped (h : Moves c w s job old new sh queue) : old ≠ .dropped := by
  rintro rfl
  cases h

theorem status_invariant {P : Nat → Status → Prop} (hstart : ∀ j, P j ((start c).status j))
    (hmoves : ∀ {s job old new sh queue}, Moves c w s job old new sh queue → P job old →
      P job new) (h : (runParallel c w).Reach s) (j : Nat) : P j (s.status j) := by
  revert j
  refine h.invariant (I := fun s => ∀ j, P j (s.status j)) hstart ?_
  intro s s' a _ ih hs j
  rcases step_cases hs with ⟨-, -, heq⟩ | ⟨-, -, job, new, hmove, heq⟩
  · rw [heq]
    exact ih j
  · rw [heq]
    by_cases hj : j = job
    · subst hj
      rw [Function.update_self]
      exact hmoves hmove (ih j)
    · rw [Function.update_of_ne hj]
      exact ih j

theorem lt_of_reach (h : (runParallel c w).Reach s) {j : Nat} (hj : s.status j ≠ .dropped) :
    j < c.jobs.length := by
  refine status_invariant (P := fun j x => x ≠ .dropped → j < c.jobs.length) ?_ ?_ h j hj
  · intro j hj
    by_contra hlen
    exact hj (if_neg hlen)
  · intro s job old new sh queue hmove ih _
    exact ih hmove.ne_dropped

theorem count_update (hjob : job < c.jobs.length)
    (hs : s'.status = Function.update s.status job new) (p : Status → Bool) :
    c.count s' p + (p (s.status job)).toNat = c.count s p + (p new).toNat := by
  unfold Setup.count
  rw [hs]
  exact sum_update (Finset.mem_range.mpr hjob) s.status new fun x => (p x).toNat

theorem count_pos (p : Status → Bool) (hjob : job < c.jobs.length) (h : p (s.status job) = true) :
    0 < c.count s p := by
  refine Finset.sum_pos' (fun _ _ => Nat.zero_le _) ⟨job, Finset.mem_range.mpr hjob, ?_⟩
  rw [h]
  exact Nat.one_pos

theorem eq_false_of_count (p : Status → Bool) (hcount : c.count s p = 0)
    (hjob : job < c.jobs.length) : p (s.status job) = false := by
  by_contra h
  have hpos := count_pos p hjob (Bool.eq_true_of_not_eq_false h)
  omega

theorem count_le (p : Status → Bool) : c.count s p ≤ c.jobs.length := by
  have hle : c.count s p ≤ ∑ j ∈ Finset.range c.jobs.length, 1 :=
    Finset.sum_le_sum fun j _ => Bool.toNat_le _
  rwa [Finset.sum_const, Finset.card_range, smul_eq_mul, mul_one] at hle

theorem count_lt (p : Status → Bool) (hjob : job < c.jobs.length)
    (h : p (s.status job) = false) : c.count s p < c.jobs.length := by
  have hlt : c.count s p < ∑ j ∈ Finset.range c.jobs.length, 1 := by
    refine Finset.sum_lt_sum (fun j _ => Bool.toNat_le _) ⟨job, Finset.mem_range.mpr hjob, ?_⟩
    rw [h]
    exact Nat.one_pos
  rwa [Finset.sum_const, Finset.card_range, smul_eq_mul, mul_one] at hlt

theorem two_le_count (p : Status → Bool) {i j : Nat} (hi : i < c.jobs.length)
    (hj : j < c.jobs.length) (hne : i ≠ j) (hpi : p (s.status i) = true)
    (hpj : p (s.status j) = true) : 2 ≤ c.count s p := by
  have hsub : ({i, j} : Finset ℕ) ⊆ Finset.range c.jobs.length := by
    intro k hk
    rcases Finset.mem_insert.mp hk with rfl | hk
    · exact Finset.mem_range.mpr hi
    · rw [Finset.mem_singleton.mp hk]
      exact Finset.mem_range.mpr hj
  have hpair : ∑ k ∈ ({i, j} : Finset ℕ), (p (s.status k)).toNat = 2 := by
    rw [Finset.sum_pair hne, hpi, hpj]
    rfl
  rw [← hpair]
  exact Finset.sum_le_sum_of_subset hsub

theorem Moves.isWorking_le (h : Moves c w s job old new sh queue) :
    new.isWorking = true → old.isWorking = true ∨ c.count s Status.isWorking < c.parallel := by
  intro hnew
  cases h with
  | fetch hmain hqueue hroom => exact Or.inr hroom
  | promote => cases hnew
  | finish => cases hnew
  | _ => exact Or.inl rfl

theorem count_le_of_moves {p : Status → Bool} {n : Nat} (hstart : ∀ k, p (.available k) = false)
    (hmoves : ∀ {s job old new sh queue}, Moves c w s job old new sh queue → p new = true →
      p old = true ∨ c.count s p < n) (h : (runParallel c w).Reach s) : c.count s p ≤ n := by
  refine h.invariant (I := fun s => c.count s p ≤ n) ?_ ?_
  · refine (Finset.sum_eq_zero fun j hj => ?_).le.trans (Nat.zero_le n)
    change (p ((start c).status j)).toNat = 0
    rw [status_start (Finset.mem_range.mp hj), hstart]
    rfl
  · intro s s' a hreach ih hs
    rcases step_cases hs with ⟨-, -, heq⟩ | ⟨-, -, job, new, hmove, heq⟩
    · rw [heq]
      exact ih
    · have hupdate := count_update (lt_of_reach hreach hmove.ne_dropped) heq p
      cases hnew : p new with
      | false =>
          rw [hnew, Bool.toNat_false] at hupdate
          omega
      | true =>
          rw [hnew, Bool.toNat_true] at hupdate
          rcases hmoves hmove hnew with hold | hroom
          · rw [hold, Bool.toNat_true] at hupdate
            omega
          · omega

theorem working_le (h : (runParallel c w).Reach s) :
    c.count s Status.isWorking ≤ c.parallel :=
  count_le_of_moves (fun _ => rfl) Moves.isWorking_le h

end EvidraBench.Orchestrator
