import EvidraBench.Benchsvc.TriggerStore

/-!
# The handlers of trigger jobs

A server is the table and the trigger store. The three handlers read and write both: the status of a
trigger job, a progress message for it, and the completion by its runner. Each is authenticated as a
tenant; the table is asked with that tenant, the store with the id alone.

A progress message is handled in two parts, since its statement reaches the table later than the
message reaches the store: `acceptProgress` ends with the statement to be sent, and `writeProgress`
sends it.

Results: `jobs_handleCompleteJob`.

Source: `internal/benchsvc/trigger_handler.go`
-/

namespace EvidraBench.Benchsvc

open EvidraBench.Lib

@[ext]
structure Server where
  jobs : Jobs
  store : TriggerStore

/-- What a handler writes back. In a `fault` the context is followed by the words of the database
driver; a `stream` begins with the events and then subscribes to the job or ends.
Source: `internal/benchsvc/runner_handler.go` -/
inductive Response
  | error (code : Nat) (message : String)
  | fault (context : String)
  | done (code : Nat)
  | job (job : TriggerJob)
  | stream (events : List (String × TriggerJob)) (subscribes : Bool)
deriving DecidableEq, Repr

/-- The body of a completion.
Source: `internal/benchsvc/runner_handler.go` `handleCompleteJob` -/
structure CompleteRequest where
  runnerID : String
  status : Status
  passed : Int
  failed : Int
  message : String := ""
deriving DecidableEq, Repr

/-- The arguments of the progress statement.
Source: `handleTriggerProgress` -/
structure ProgressCall where
  jobID : String
  completed : Int
  passed : Int
  failed : Int
deriving DecidableEq, Repr

/-- Source: `internal/benchsvc/executor.go` `ExecutorContractVersion` -/
def executorContractVersion : String := "v1.0.0"

/-- A message of this version is read.
Source: `handleTriggerProgress` -/
def ProgressUpdate.Supported (u : ProgressUpdate) : Prop :=
  u.contractVersion = "" ∨ u.contractVersion = executorContractVersion

instance (u : ProgressUpdate) : Decidable u.Supported := inferInstanceAs (Decidable (_ ∨ _))

/-! ### Starting a job -/

/-- Source: `internal/benchsvc/executor.go` `TriggerRequest` -/
structure TriggerRequest where
  model : String
  provider : String := ""
  runnerID : String := ""
  executionMode : String := ""
  mcpServer : String := ""
  toolServer : String := ""
  toolServerVersion : String := ""
  skillFile : String := ""
  skillID : String := ""
  skillVersion : String := ""
  skillSource : String := ""
  skillSHA256 : String := ""
  scenarios : List String
deriving DecidableEq, Repr

/-- What is stored with the row.
Source: `enqueueRunnerTrigger` -/
def TriggerRequest.config (req : TriggerRequest) : JobConfig where
  scenarios := req.scenarios
  runnerID := req.runnerID
  executionMode := req.executionMode
  mcpServer := req.mcpServer
  toolServer := req.toolServer
  toolServerVersion := req.toolServerVersion
  skillFile := req.skillFile
  skillID := req.skillID
  skillVersion := req.skillVersion
  skillSource := req.skillSource
  skillSHA256 := req.skillSHA256

/-- The trigger job of a request, with a runner and without.
Source: `enqueueRunnerTrigger`, `startTriggerRequest` -/
def TriggerRequest.job (req : TriggerRequest) (id provider : String) (now : Int) : TriggerJob where
  id := id
  status := .pending
  model := req.model
  provider := provider
  executionMode := req.executionMode
  mcpServer := req.mcpServer
  toolServer := req.toolServer
  toolServerVersion := req.toolServerVersion
  skillFile := req.skillFile
  skillID := req.skillID
  skillVersion := req.skillVersion
  skillSource := req.skillSource
  skillSHA256 := req.skillSHA256
  total := req.scenarios.length
  progress := pendingScenarioProgress req.scenarios
  createdAt := now

/-! ### The handlers -/

namespace Server

variable (s : Server) (tenant id : String)

def restoreTriggerJobFromPersistentJob : Option (TriggerJob × Server) :=
  (s.jobs.getJob tenant id).map fun row =>
    (triggerJobFromBenchJob row, { s with store := s.store.create (triggerJobFromBenchJob row) })

/-- The answer to a question for the status, as a snapshot or as a stream.
Source: `handleTriggerStatus` -/
def reply (stream : Bool) (job : TriggerJob) : Response :=
  if stream then
    if job.status.Terminal then .stream [("status", job), ("complete", job)] false
    else .stream [("status", job)] true
  else .job job

def handleTriggerStatus (stream : Bool) : Server × Response :=
  match s.store.get id with
  | some job => (s, reply stream job)
  | none =>
      match s.restoreTriggerJobFromPersistentJob tenant id with
      | some (job, s') => (s', reply stream job)
      | none => (s, .error 404 "job not found")

/-- The statement that follows an update of the store.
Source: `handleTriggerProgress` -/
def progressCall (u : ProgressUpdate) : ProgressCall :=
  match s.store.get u.jobID with
  | some current => ⟨u.jobID, u.completed, current.passed, current.failed⟩
  | none => ⟨u.jobID, u.completed, 0, 0⟩

/-- The store's part of a progress message that is read; the job is restored first if it is not in
the store.
Source: `handleTriggerProgress` -/
def applyProgress (u : ProgressUpdate) : Server × Except Response ProgressCall :=
  match s.store.update u with
  | some store => ({ s with store := store }, .ok (progressCall { s with store := store } u))
  | none =>
      match s.restoreTriggerJobFromPersistentJob tenant u.jobID with
      | none => (s, .error (.error 404 "job not found"))
      | some (_, s') =>
          match s'.store.update u with
          | some store =>
              ({ s' with store := store }, .ok (progressCall { s' with store := store } u))
          | none => (s', .error (.error 404 "job not found"))

/-- Source: `handleTriggerProgress` -/
def acceptProgress (body : Except String ProgressUpdate) : Server × Except Response ProgressCall :=
  match body with
  | .error e => (s, .error (.error 400 ("invalid JSON: " ++ e)))
  | .ok u =>
      if u.Supported then s.applyProgress tenant { u with jobID := id }
      else (s, .error (.error 400 "unsupported contract version"))

/-- The statement is sent; whether it fails is not looked at.
Source: `handleTriggerProgress` -/
def writeProgress (call : ProgressCall) (now : Int) : Server :=
  { s with
    jobs := s.jobs.step
      (.updateJobProgress call.jobID call.completed call.passed call.failed now) }

def handleTriggerProgress (body : Except String ProgressUpdate) (now : Int) : Server × Response :=
  match s.acceptProgress tenant id body with
  | (s', .error r) => (s', r)
  | (s', .ok call) => (s'.writeProgress call now, .done 200)

/-- Source: `internal/benchsvc/runner_handler.go` `handleCompleteJob` -/
def handleCompleteJob (body : Except String CompleteRequest) (now : Int) : Server × Response :=
  match body with
  | .error e => (s, .error 400 ("invalid JSON: " ++ e))
  | .ok req =>
      if ¬ req.status.Terminal then (s, .error 400 "status must be completed or failed")
      else if req.runnerID = "" then (s, .error 400 "runner_id is required")
      else
        match s.jobs.completeJob tenant req.runnerID id req.status req.passed req.failed req.message
            now with
        | .error .notFound => (s, .error 404 "job not found or not owned by this runner")
        | .error _ => (s, .fault "benchsvc.CompleteJob: ")
        | .ok jobs =>
            (⟨jobs, s.store.complete id req.status req.passed req.failed⟩, .done 204)

end Server

/-! ### What the handlers do -/

theorem getJob_eq_some {t : Jobs} {tenant id : String} {r : BenchJob} :
    t.getJob tenant id = some r ↔ t.find id = some r ∧ r.tenantID = tenant := by
  constructor
  · intro h
    obtain ⟨htenant, hid⟩ : r.tenantID = tenant ∧ r.id = id := by simpa using List.find?_some h
    exact ⟨Table.find_eq_some.mpr ⟨List.mem_of_find?_eq_some h, hid⟩, htenant⟩
  · rintro ⟨hfind, htenant⟩
    obtain ⟨hr, hid⟩ := Table.find_eq_some.mp hfind
    rcases h : t.getJob tenant id with _ | r'
    · have hnot := List.find?_eq_none.mp h r hr
      simp [htenant, hid] at hnot
    · obtain ⟨-, hid'⟩ : r'.tenantID = tenant ∧ r'.id = id := by simpa using List.find?_some h
      have hfind' := Table.find_eq_some.mpr ⟨List.mem_of_find?_eq_some h, hid'⟩
      exact hfind'.symm.trans hfind

namespace Server

variable {s : Server} {tenant id : String} {u : ProgressUpdate}

def visible (s : Server) (tenant id : String) : Option TriggerJob :=
  s.store.get id <|> (s.jobs.getJob tenant id).map triggerJobFromBenchJob

def put (s : Server) (id : String) (job : TriggerJob) : Server :=
  { s with store := ⟨Function.update s.store.get id (some job)⟩ }

theorem get_put_of_ne {job : TriggerJob} {id' : String} (h : id' ≠ id) :
    (s.put id job).store.get id' = s.store.get id' := Function.update_of_ne h _ _

theorem restore_eq : s.restoreTriggerJobFromPersistentJob tenant id =
    (s.jobs.getJob tenant id).map fun row =>
      (triggerJobFromBenchJob row, s.put id (triggerJobFromBenchJob row)) := by
  rw [restoreTriggerJobFromPersistentJob]
  rcases h : s.jobs.getJob tenant id with _ | row
  · rfl
  · have hid : (triggerJobFromBenchJob row).id = id :=
      (Table.find_eq_some.mp (getJob_eq_some.mp h).1).2
    rw [Option.map_some, Option.map_some, TriggerStore.create, hid]
    rfl

theorem handleTriggerStatus_eq (stream : Bool) : s.handleTriggerStatus tenant id stream =
    match s.visible tenant id with
    | some job => (s.put id job, reply stream job)
    | none => (s, .error 404 "job not found") := by
  rw [handleTriggerStatus, visible, restore_eq]
  rcases hget : s.store.get id with _ | job
  · rcases s.jobs.getJob tenant id with _ | row <;> rfl
  · have hput : s.put id job = s := by
      rw [put, ← hget, Function.update_eq_self]
    rw [Option.orElse_eq_orElse, Option.orElse_some]
    simp only [hput]

theorem applyProgress_eq : s.applyProgress tenant u =
    match s.visible tenant u.jobID with
    | some job => (s.put u.jobID (job.update u),
        .ok ⟨u.jobID, u.completed, (job.update u).passed, (job.update u).failed⟩)
    | none => (s, .error (.error 404 "job not found")) := by
  -- after the update the store has the job, so the counters sent are the job's
  have hcall : ∀ job : TriggerJob,
      ((s.put u.jobID job, .ok (progressCall (s.put u.jobID job) u)) :
        Server × Except Response ProgressCall) =
      (s.put u.jobID job, .ok ⟨u.jobID, u.completed, job.passed, job.failed⟩) := by
    intro job
    simp [progressCall, put]
  rw [applyProgress, visible, restore_eq]
  rcases hget : s.store.get u.jobID with _ | job
  · rw [TriggerStore.update_eq_none.mpr hget]
    rcases s.jobs.getJob tenant u.jobID with _ | row
    · rfl
    · have hrow : (s.put u.jobID (triggerJobFromBenchJob row)).store.get u.jobID =
          some (triggerJobFromBenchJob row) := Function.update_self _ _ _
      have htwice : ∀ job job' : TriggerJob,
          (s.put u.jobID job).put u.jobID job' = s.put u.jobID job' := by
        intro job job'
        simp only [put, Function.update_idem]
      simp only [Option.map_some, TriggerStore.update_of_get hrow]
      exact (congrArg (fun s' : Server => (s', Except.ok (s'.progressCall u))) (htwice _ _)).trans
        (hcall _)
  · simp only [TriggerStore.update_of_get hget]
    exact hcall (job.update u)

theorem handleTriggerProgress_eq {now : Int} (hu : u.Supported) :
    s.handleTriggerProgress tenant id (.ok u) now =
      match s.visible tenant id with
      | some job =>
          let job' := job.update { u with jobID := id }
          ((s.put id job').writeProgress ⟨id, u.completed, job'.passed, job'.failed⟩ now, .done 200)
      | none => (s, .error 404 "job not found") := by
  rw [handleTriggerProgress, acceptProgress]
  simp only [if_pos hu, applyProgress_eq]
  rcases s.visible tenant id with _ | job <;> rfl

theorem jobs_acceptProgress {body : Except String ProgressUpdate} :
    (s.acceptProgress tenant id body).1.jobs = s.jobs := by
  rcases body with e | u
  · rfl
  · rw [acceptProgress]
    split
    · rw [applyProgress_eq]
      split <;> rfl
    · rfl

theorem jobs_handleTriggerStatus {stream : Bool} :
    (s.handleTriggerStatus tenant id stream).1.jobs = s.jobs := by
  rw [handleTriggerStatus_eq]
  split <;> rfl

theorem jobs_handleCompleteJob {req : CompleteRequest} {now : Int} :
    (s.handleCompleteJob tenant id (.ok req) now).1.jobs = s.jobs ∨
      (s.handleCompleteJob tenant id (.ok req) now).1.jobs = s.jobs.step (.completeJob tenant
        req.runnerID id req.status req.passed req.failed req.message now) := by
  rw [handleCompleteJob]
  split
  · exact .inl rfl
  split
  · exact .inl rfl
  rw [Jobs.step]
  split
  · exact .inl rfl
  · exact .inl rfl
  · rename_i hok
    rw [hok]
    exact .inr rfl

end Server

end EvidraBench.Benchsvc
