import EvidraBench.Benchsvc.Jobs

/-!
# The in-memory trigger store

A server keeps, beside the table, a map from job ids to trigger jobs, which hold the progress of
each scenario. Progress messages update it, a completion overwrites it, and a job that is not in it,
after a restart for example, is rebuilt from its row. The map knows ids only: a trigger job has no
tenant.

`TriggerJob.update` follows the source step by step: the scenario's entry, the totals and run ids,
the counters as differences of what the entry counted before and counts now, and the status from the
counters. The channels of the subscribers are not part of the store here.

Source: `internal/benchsvc/executor.go`
-/

namespace EvidraBench.Benchsvc

/-! ### Trigger jobs -/

structure ScenarioProgress where
  scenario : String
  status : Status
  runID : String := ""
deriving DecidableEq, Repr

structure TriggerJob where
  id : String
  status : Status
  model : String
  provider : String
  executionMode : String
  mcpServer : String
  toolServer : String
  toolServerVersion : String
  skillFile : String
  skillID : String
  skillVersion : String
  skillSource : String
  skillSHA256 : String
  total : Int
  completed : Int := 0
  passed : Int := 0
  failed : Int := 0
  currentScenario : String := ""
  runIDs : List String := []
  progress : List ScenarioProgress
  createdAt : Int
deriving DecidableEq, Repr

structure ProgressUpdate where
  contractVersion : String := ""
  jobID : String := ""
  scenario : String
  status : Status
  runID : String := ""
  completed : Int
  total : Int
deriving DecidableEq, Repr

/-- What a scenario with this status adds to the passed and to the failed ones.
Source: `progressStatusCounts` -/
def progressStatusCounts (status : Status) : Int × Int :=
  if status = .passed then (1, 0)
  else if status = .failed ∨ status = .error then (0, 1)
  else (0, 0)

/-- The first entry of the scenario gets the new status; with it, the status it had.
Source: `TriggerStore.Update` -/
def markScenario (u : ProgressUpdate) : List ScenarioProgress →
    Option (Status × List ScenarioProgress)
  | [] => none
  | p :: ps =>
      if p.scenario = u.scenario then
        some (p.status, { p with status := u.status, runID := u.runID } :: ps)
      else
        match markScenario u ps with
        | some (old, ps') => some (old, p :: ps')
        | none => none

namespace TriggerJob

variable (u : ProgressUpdate) (j : TriggerJob)

/-- The entries, and what the scenario counted before if the message is about a scenario. One that
has no entry is added, unless it has no name.
Source: `TriggerStore.Update` -/
def recordScenario : List ScenarioProgress × Option (Int × Int) :=
  match markScenario u j.progress with
  | some (old, progress) => (progress, some (progressStatusCounts old))
  | none =>
      if u.scenario ≠ "" then (j.progress ++ [⟨u.scenario, u.status, u.runID⟩], some (0, 0))
      else (j.progress, none)

/-- Source: `TriggerStore.Update` -/
def recordRun : List String :=
  if u.runID ≠ "" ∧ u.runID ∉ j.runIDs then j.runIDs ++ [u.runID] else j.runIDs

/-- A counter after a change, never negative.
Source: `TriggerStore.Update` -/
def adjust (count new old : Int) : Int :=
  if count + (new - old) < 0 then 0 else count + (new - old)

/-- The passed and the failed scenarios.
Source: `TriggerStore.Update` -/
def recount : Option (Int × Int) → Int × Int
  | some (oldPassed, oldFailed) =>
      (adjust j.passed (progressStatusCounts u.status).1 oldPassed,
        adjust j.failed (progressStatusCounts u.status).2 oldFailed)
  | none => (j.passed, if u.status = .error ∧ j.failed = 0 then 1 else j.failed)

/-- The status and the current scenario that follow from the counters.
Source: `TriggerStore.Update` -/
def conclude : TriggerJob :=
  if j.completed ≥ j.total then
    { j with status := if j.failed > 0 then .failed else .completed, currentScenario := "" }
  else { j with status := .running }

def update : TriggerJob :=
  let recorded := j.recordScenario u
  let counts := j.recount u recorded.2
  conclude { j with
    progress := recorded.1
    completed := u.completed
    total := u.total
    runIDs := j.recordRun u
    passed := counts.1
    failed := counts.2
    currentScenario := if u.status = .running then u.scenario else j.currentScenario }

def complete (status : Status) (passed failed : Int) : TriggerJob :=
  { j with
    status := status, passed := passed, failed := failed, completed := passed + failed,
    currentScenario := "" }

end TriggerJob

/-! ### The store -/

/-- A map from ids to jobs.
Source: `TriggerStore` -/
@[ext]
structure TriggerStore where
  get : String → Option TriggerJob

namespace TriggerStore

variable (s : TriggerStore)

/-- Source: `NewTriggerStore` -/
def new : TriggerStore := ⟨fun _ => none⟩

def create (job : TriggerJob) : TriggerStore := ⟨Function.update s.get job.id (some job)⟩

/-- Nothing if the job is not in the store.
Source: `TriggerStore.Update` -/
def update (u : ProgressUpdate) : Option TriggerStore :=
  (s.get u.jobID).map fun j => ⟨Function.update s.get u.jobID (some (j.update u))⟩

/-- The store as it was if the job is not in it.
Source: `TriggerStore.Complete` -/
def complete (id : String) (status : Status) (passed failed : Int) : TriggerStore :=
  match s.get id with
  | some j => ⟨Function.update s.get id (some (j.complete status passed failed))⟩
  | none => s

variable {s} {u : ProgressUpdate}

theorem update_of_get {j : TriggerJob} (h : s.get u.jobID = some j) :
    s.update u = some ⟨Function.update s.get u.jobID (some (j.update u))⟩ := by
  rw [update, h, Option.map_some]

theorem update_eq_none : s.update u = none ↔ s.get u.jobID = none := by
  rw [update, Option.map_eq_none_iff]

theorem get_complete_of_ne {id id' : String} {status : Status} {passed failed : Int}
    (h : id' ≠ id) : (s.complete id status passed failed).get id' = s.get id' := by
  rw [complete]
  split
  · exact Function.update_of_ne h _ _
  · rfl

theorem get_complete_self {id : String} {status : Status} {passed failed : Int} :
    (s.complete id status passed failed).get id =
      (s.get id).map fun j => j.complete status passed failed := by
  rw [complete]
  rcases hget : s.get id with _ | j
  · exact hget
  · exact Function.update_self _ _ _

end TriggerStore

/-! ### Rebuilding a job from its row -/

/-- Source: `internal/benchsvc/trigger_handler.go` `pendingScenarioProgress` -/
def pendingScenarioProgress (scenarios : List String) : List ScenarioProgress :=
  scenarios.map fun scenario => { scenario := scenario, status := .pending }

/-- The first scenarios passed, the next ones failed, the others are pending.
Source: `internal/benchsvc/trigger_handler.go` `scenarioProgressFromBenchJob` -/
def scenarioProgressFromBenchJob : List String → Int → Int → List ScenarioProgress
  | [], _, _ => []
  | scenario :: rest, passed, failed =>
      if passed > 0 then
        { scenario := scenario, status := .passed } ::
          scenarioProgressFromBenchJob rest (passed - 1) failed
      else if failed > 0 then
        { scenario := scenario, status := .failed } ::
          scenarioProgressFromBenchJob rest passed (failed - 1)
      else pendingScenarioProgress (scenario :: rest)

/-- Source: `internal/benchsvc/trigger_handler.go` `triggerStatusFromBenchJobStatus` -/
def triggerStatusFromBenchJobStatus (status : Status) : Status :=
  if status = ⟨""⟩ ∨ status = .queued then .pending
  else if status = .claimed ∨ status = .running then .running
  else status

def firstText (text fallback : String) : String := if text = "" then fallback else text

/-- Source: `internal/benchsvc/trigger_handler.go` `triggerJobFromBenchJob` -/
def triggerJobFromBenchJob (job : BenchJob) : TriggerJob :=
  let cfg := job.config
  { id := job.id
    status := triggerStatusFromBenchJobStatus job.status
    model := job.model
    provider := job.provider
    executionMode := firstText cfg.executionMode "provider"
    mcpServer := cfg.mcpServer
    toolServer := firstText job.toolServer cfg.toolServer
    toolServerVersion := firstText job.toolServerVersion cfg.toolServerVersion
    skillFile := cfg.skillFile
    skillID := firstText job.skillID cfg.skillID
    skillVersion := firstText job.skillVersion cfg.skillVersion
    skillSource := cfg.skillSource
    skillSHA256 := cfg.skillSHA256
    total := if job.total = 0 ∧ cfg.scenarios.length > 0 then cfg.scenarios.length else job.total
    completed := job.completed
    passed := job.passed
    failed := job.failed
    progress := scenarioProgressFromBenchJob cfg.scenarios job.passed job.failed
    createdAt := job.createdAt }

end EvidraBench.Benchsvc
