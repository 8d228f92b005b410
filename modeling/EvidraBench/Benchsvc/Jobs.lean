import EvidraBench.Lib.Table
import EvidraBench.Lib.Transition

/-!
# The `bench_jobs` table

Five statements write the table of persisted jobs: a trigger inserts a row, a runner claims one,
reports on it and completes it, and the janitor puts stale ones back into the queue. Each statement
is atomic and any number of runners and servers send them in any order, so a history of the table is
a list of statements with any arguments.

Results: `exists_find_step`, `find_step`.

The rows keep what the statements and the handlers read. Of the checks of the store only the primary
key and the range of the integer columns are kept; a statement that the store refuses changes
nothing.

Source: `internal/benchsvc/queries_runners.go`
-/

namespace EvidraBench.Benchsvc

open EvidraBench.Lib

/-! ### Rows -/

/-- A status, in a row as in a message: a text, which nothing but the code that compares it
limits.
Source: `internal/benchsvc/queries.go` `BenchJob`; `internal/benchsvc/executor.go` `TriggerJob` -/
structure Status where
  text : String
deriving DecidableEq, Repr

namespace Status

def queued : Status := ⟨"queued"⟩
def claimed : Status := ⟨"claimed"⟩
def pending : Status := ⟨"pending"⟩
def running : Status := ⟨"running"⟩
def completed : Status := ⟨"completed"⟩
def failed : Status := ⟨"failed"⟩
def passed : Status := ⟨"passed"⟩
def error : Status := ⟨"error"⟩

/-- A job with this status is finished.
Source: `internal/benchsvc/runner_handler.go` `handleCompleteJob` -/
def Terminal (s : Status) : Prop := s = completed ∨ s = failed

instance (s : Status) : Decidable s.Terminal := inferInstanceAs (Decidable (_ ∨ _))

/-- A runner holds a job with this status.
Source: `UpdateJobProgress` -/
def Held (s : Status) : Prop := s = claimed ∨ s = running

instance (s : Status) : Decidable s.Held := inferInstanceAs (Decidable (_ ∨ _))

theorem Terminal.not_held {s : Status} (h : s.Terminal) : ¬ s.Held := by
  rcases h with rfl | rfl <;> decide

theorem Terminal.ne_queued {s : Status} (h : s.Terminal) : s ≠ queued := by
  rcases h with rfl | rfl <;> decide

end Status

/-- What a trigger stores with its job, read back from `config_json`.
Source: `internal/benchsvc/queries.go` `JobConfig` -/
structure JobConfig where
  scenarios : List String
  timeout : Int := 0
  /-- The pinned runner; empty if any runner may take the job. -/
  runnerID : String := ""
  executionMode : String := ""
  mcpServer : String := ""
  toolServer : String := ""
  toolServerVersion : String := ""
  skillFile : String := ""
  skillID : String := ""
  skillVersion : String := ""
  skillSource : String := ""
  skillSHA256 : String := ""
deriving DecidableEq, Repr

/-- A row. Times are in microseconds.
Source: `internal/benchsvc/queries.go` `BenchJob`; -/
structure BenchJob where
  id : String
  tenantID : String
  /-- The runner that owns the job. -/
  infraID : Option String := none
  model : String
  provider : String
  status : Status := .queued
  total : Int := 0
  completed : Int := 0
  passed : Int := 0
  failed : Int := 0
  toolServer : String := ""
  toolServerVersion : String := ""
  skillID : String := ""
  skillVersion : String := ""
  errorMessage : String := ""
  config : JobConfig
  startedAt : Option Int := none
  completedAt : Option Int := none
  lastProgressAt : Option Int := none
  createdAt : Int
deriving DecidableEq, Repr

namespace BenchJob

/-- The last sign of life of the runner: `COALESCE(last_progress_at, started_at)`.
Source: `ResetStaleJobs` -/
def lastSign (r : BenchJob) : Option Int := r.lastProgressAt <|> r.startedAt

/-- The condition of the janitor's statement. A comparison with `NULL` does not hold.
Source: `ResetStaleJobs` -/
def Stale (limit : Int) (r : BenchJob) : Prop :=
  r.status = .claimed ∧ ∃ sign ∈ r.lastSign, sign < limit

instance (limit : Int) (r : BenchJob) : Decidable (r.Stale limit) :=
  inferInstanceAs (Decidable (_ ∧ _))

/-- The condition of the claim's inner query.
Source: `ClaimJob` -/
def Claimable (tenant runner : String) (models : List String) (r : BenchJob) : Prop :=
  r.tenantID = tenant ∧ r.status = .queued ∧ r.model ∈ models ∧
    (r.config.runnerID = "" ∨ r.config.runnerID = runner)

instance (tenant runner : String) (models : List String) (r : BenchJob) :
    Decidable (r.Claimable tenant runner models) := inferInstanceAs (Decidable (_ ∧ _))

/-- The condition of the completing statement.
Source: `CompleteJob` -/
def OwnedBy (tenant runner job : String) (r : BenchJob) : Prop :=
  r.id = job ∧ r.tenantID = tenant ∧ r.infraID = some runner

instance (tenant runner job : String) (r : BenchJob) : Decidable (r.OwnedBy tenant runner job) :=
  inferInstanceAs (Decidable (_ ∧ _))

/-- Source: `ClaimJob` -/
def claim (runner : String) (now : Int) (r : BenchJob) : BenchJob :=
  { r with status := .claimed, infraID := some runner, startedAt := some now }

/-- Source: `UpdateJobProgress` -/
def report (completed passed failed now : Int) (r : BenchJob) : BenchJob :=
  { r with
    status := .running, completed := completed, passed := passed, failed := failed,
    lastProgressAt := some now }

/-- Source: `CompleteJob` -/
def finish (status : Status) (passed failed : Int) (message : String) (now : Int)
    (r : BenchJob) : BenchJob :=
  { r with
    status := status, completed := passed + failed, passed := passed, failed := failed,
    errorMessage := message, completedAt := some now }

/-- Source: `ResetStaleJobs` -/
def requeue (r : BenchJob) : BenchJob :=
  { r with status := .queued, infraID := none, startedAt := none, lastProgressAt := none }

/-! No statement writes the key. -/

theorem id_claim (runner : String) (now : Int) (r : BenchJob) : (r.claim runner now).id = r.id :=
  rfl

theorem id_report (completed passed failed now : Int) (r : BenchJob) :
    (r.report completed passed failed now).id = r.id := rfl

theorem id_finish (status : Status) (passed failed : Int) (message : String) (now : Int)
    (r : BenchJob) : (r.finish status passed failed message now).id = r.id := rfl

theorem id_requeue (r : BenchJob) : r.requeue.id = r.id := rfl

end BenchJob

/-! ### Statements -/

abbrev Jobs := Table BenchJob.id

inductive QueryError
  | conflict
  | range
  | notFound
deriving DecidableEq, Repr

/-- The value fits an `INTEGER` column. -/
def FitsInteger (n : Int) : Prop := -2147483648 ≤ n ∧ n ≤ 2147483647

instance (n : Int) : Decidable (FitsInteger n) := inferInstanceAs (Decidable (_ ∧ _))

namespace Jobs

variable (t : Jobs)

def enqueueJob (id tenant model provider : String) (cfg : JobConfig) (now : Int) :
    Except QueryError Jobs :=
  if FitsInteger cfg.scenarios.length then
    match t.insert
        { id := id, tenantID := tenant, model := model, provider := provider
          total := cfg.scenarios.length, config := cfg, toolServer := cfg.toolServer
          toolServerVersion := cfg.toolServerVersion, skillID := cfg.skillID
          skillVersion := cfg.skillVersion, createdAt := now } with
    | some t' => .ok t'
    | none => .error .conflict
  else .error .range

/-- The row the claim's inner query chooses: the oldest that can be claimed and that no statement
running at the same time has locked.
Source: `ClaimJob` -/
def nextJob (tenant runner : String) (models locked : List String) : Option BenchJob :=
  List.minOn? BenchJob.createdAt
    (t.rows.filter fun r => r.Claimable tenant runner models ∧ r.id ∉ locked)

def claimJob (tenant runner : String) (models locked : List String) (now : Int) :
    Option BenchJob × Jobs :=
  match t.nextJob tenant runner models locked with
  | none => (none, t)
  | some r =>
      (some (r.claim runner now),
        t.update (fun r' => r'.id = r.id) (.claim runner now) (BenchJob.id_claim runner now))

def getJob (tenant job : String) : Option BenchJob :=
  t.rows.find? fun r => r.tenantID = tenant ∧ r.id = job

def completeJob (tenant runner job : String) (status : Status) (passed failed : Int)
    (message : String) (now : Int) : Except QueryError Jobs :=
  if ¬ (FitsInteger passed ∧ FitsInteger failed) then .error .range
  else if ¬ t.rows.any fun r => r.OwnedBy tenant runner job then .error .notFound
  -- the sum is computed by the store, for the row it is about to write
  else if ¬ FitsInteger (passed + failed) then .error .range
  else .ok (t.update (fun r => r.OwnedBy tenant runner job)
    (.finish status passed failed message now)
    (BenchJob.id_finish status passed failed message now))

/-- The number of rows and the table.
Source: `ResetStaleJobs` -/
def resetStaleJobs (threshold now : Int) : Nat × Jobs :=
  (t.rows.countP fun r => r.Stale (now - threshold),
    t.update (fun r => r.Stale (now - threshold)) .requeue BenchJob.id_requeue)

def updateJobProgress (job : String) (completed passed failed now : Int) : Except QueryError Jobs :=
  if FitsInteger completed ∧ FitsInteger passed ∧ FitsInteger failed then
    .ok (t.update (fun r => r.id = job ∧ r.status.Held) (.report completed passed failed now)
      (BenchJob.id_report completed passed failed now))
  else .error .range

end Jobs

/-! ### Histories -/

inductive Statement
  | enqueueJob (id tenant model provider : String) (cfg : JobConfig) (now : Int)
  | claimJob (tenant runner : String) (models locked : List String) (now : Int)
  | updateJobProgress (job : String) (completed passed failed now : Int)
  | completeJob (tenant runner job : String) (status : Status) (passed failed : Int)
      (message : String) (now : Int)
  | resetStaleJobs (threshold now : Int)
deriving DecidableEq, Repr

namespace Jobs

variable (t : Jobs)

def step : Statement → Jobs
  | .enqueueJob id tenant model provider cfg now =>
      (t.enqueueJob id tenant model provider cfg now).toOption.getD t
  | .claimJob tenant runner models locked now => (t.claimJob tenant runner models locked now).2
  | .updateJobProgress job completed passed failed now =>
      (t.updateJobProgress job completed passed failed now).toOption.getD t
  | .completeJob tenant runner job status passed failed message now =>
      (t.completeJob tenant runner job status passed failed message now).toOption.getD t
  | .resetStaleJobs threshold now => (t.resetStaleJobs threshold now).2

/-- Any statement at any time, from the empty table on. -/
def system : System Jobs Statement where
  init := .empty
  step t c := some (t.step c)

end Jobs

/-- What a statement can do to a row that is there. -/
inductive Changes : Statement → BenchJob → BenchJob → Prop
  | claim {tenant runner : String} {models locked : List String} {now : Int} {r : BenchJob}
      (hr : r.Claimable tenant runner models) :
      Changes (.claimJob tenant runner models locked now) r (r.claim runner now)
  | report {job : String} {completed passed failed now : Int} {r : BenchJob}
      (hfits : FitsInteger completed ∧ FitsInteger passed ∧ FitsInteger failed)
      (hid : r.id = job) (hr : r.status.Held) :
      Changes (.updateJobProgress job completed passed failed now) r
        (r.report completed passed failed now)
  | finish {tenant runner job message : String} {status : Status} {passed failed now : Int}
      {r : BenchJob}
      (hfits : FitsInteger passed ∧ FitsInteger failed ∧ FitsInteger (passed + failed))
      (hr : r.OwnedBy tenant runner job) :
      Changes (.completeJob tenant runner job status passed failed message now) r
        (r.finish status passed failed message now)
  | requeue {threshold now : Int} {r : BenchJob} (hr : r.Stale (now - threshold)) :
      Changes (.resetStaleJobs threshold now) r r.requeue

theorem Changes.tenantID_eq {c : Statement} {r r' : BenchJob} (h : Changes c r r') :
    r'.tenantID = r.tenantID := by
  cases h <;> rfl

theorem Changes.config_eq {c : Statement} {r r' : BenchJob} (h : Changes c r r') :
    r'.config = r.config := by
  cases h <;> rfl

/-- The row a trigger inserts, before anything has happened to it. -/
def BenchJob.Fresh (r : BenchJob) : Prop :=
  r.status = .queued ∧ r.infraID = none

section Step

variable {t : Jobs} {c : Statement} {id : String} {r r' : BenchJob}

theorem claimable_of_nextJob {tenant runner : String} {models locked : List String}
    (h : t.nextJob tenant runner models locked = some r) :
    t.find r.id = some r ∧ r.Claimable tenant runner models := by
  obtain ⟨hr, hclaim⟩ := List.mem_filter.mp (List.minOn?_mem h)
  exact ⟨Table.find_eq_some.mpr ⟨hr, rfl⟩, (of_decide_eq_true hclaim).1⟩

theorem insert_of_enqueueJob {t' : Jobs} {job tenant model provider : String} {cfg : JobConfig}
    {now : Int} (h : t.enqueueJob job tenant model provider cfg now = .ok t') :
    ∃ r, t.insert r = some t' ∧ r.Fresh ∧ r.id = job ∧ r.tenantID = tenant := by
  rw [Jobs.enqueueJob] at h
  split at h
  · split at h
    · rename_i hinsert
      obtain rfl := Except.ok.inj h
      exact ⟨_, hinsert, ⟨rfl, rfl⟩, rfl, rfl⟩
    · cases h
  · cases h

theorem completeJob_eq_ok {t' : Jobs} {tenant runner job message : String} {status : Status}
    {passed failed now : Int}
    (h : t.completeJob tenant runner job status passed failed message now = .ok t') :
    (FitsInteger passed ∧ FitsInteger failed ∧ FitsInteger (passed + failed)) ∧
      (∃ r, t.find job = some r ∧ r.OwnedBy tenant runner job) ∧
      t' = t.update (fun r => r.OwnedBy tenant runner job)
        (.finish status passed failed message now)
        (BenchJob.id_finish status passed failed message now) := by
  rw [Jobs.completeJob] at h
  split at h
  · cases h
  rename_i hfits
  split at h
  · cases h
  rename_i hany
  split at h
  · cases h
  rename_i hsum
  obtain ⟨hpassed, hfailed⟩ := not_not.mp hfits
  obtain ⟨r, hr, howned⟩ := List.any_eq_true.mp (not_not.mp hany)
  have howned := of_decide_eq_true howned
  exact ⟨⟨hpassed, hfailed, not_not.mp hsum⟩,
    ⟨r, Table.find_eq_some.mpr ⟨hr, howned.1⟩, howned⟩, (Except.ok.inj h).symm⟩

theorem exists_find_step (h : t.find id = some r) :
    ∃ r', (t.step c).find id = some r' ∧ (r' = r ∨ Changes c r r') := by
  have hid : r.id = id := (Table.find_eq_some.mp h).2
  cases c with
  | enqueueJob job tenant model provider cfg now =>
    refine ⟨r, ?_, .inl rfl⟩
    rw [Jobs.step]
    rcases hok : t.enqueueJob job tenant model provider cfg now with e | t'
    · exact h
    · obtain ⟨row, hinsert, -⟩ := insert_of_enqueueJob hok
      exact Table.find_insert_of_some hinsert h
  | claimJob tenant runner models locked now =>
    rw [Jobs.step, Jobs.claimJob]
    rcases hnext : t.nextJob tenant runner models locked with _ | row
    · exact ⟨r, h, .inl rfl⟩
    · obtain ⟨hrow, hclaim⟩ := claimable_of_nextJob hnext
      refine ⟨_, by rw [Table.find_update, h, Option.map_some], ?_⟩
      split
      · rename_i heq
        -- the key of the chosen row is the key of this one, so it is this one
        have hsame : row = r := by
          rw [← of_decide_eq_true heq, hid, h] at hrow
          exact (Option.some.inj hrow).symm
        exact .inr (.claim (hsame ▸ hclaim))
      · exact .inl rfl
  | updateJobProgress job completed passed failed now =>
    rw [Jobs.step, Jobs.updateJobProgress]
    split
    · rename_i hfits
      refine ⟨_, by rw [Except.toOption, Option.getD_some, Table.find_update, h, Option.map_some],
        ?_⟩
      split
      · rename_i hcond
        obtain ⟨hjob, hheld⟩ := of_decide_eq_true hcond
        exact .inr (.report hfits hjob hheld)
      · exact .inl rfl
    · exact ⟨r, h, .inl rfl⟩
  | completeJob tenant runner job status passed failed message now =>
    rw [Jobs.step, Jobs.completeJob]
    split
    · exact ⟨r, h, .inl rfl⟩
    rename_i hfits
    split
    · exact ⟨r, h, .inl rfl⟩
    split
    · exact ⟨r, h, .inl rfl⟩
    rename_i hsum
    refine ⟨_, by rw [Except.toOption, Option.getD_some, Table.find_update, h, Option.map_some], ?_⟩
    split
    · rename_i howned
      obtain ⟨hpassed, hfailed⟩ := not_not.mp hfits
      exact .inr (.finish ⟨hpassed, hfailed, not_not.mp hsum⟩ (of_decide_eq_true howned))
    · exact .inl rfl
  | resetStaleJobs threshold now =>
    refine ⟨_, by rw [Jobs.step, Jobs.resetStaleJobs, Table.find_update, h, Option.map_some], ?_⟩
    split
    · rename_i hstale
      exact .inr (.requeue (of_decide_eq_true hstale))
    · exact .inl rfl

theorem fresh_of_find_step (hnone : t.find id = none) (h : (t.step c).find id = some r') :
    r'.Fresh ∧ ∃ tenant model provider cfg now,
      c = .enqueueJob id tenant model provider cfg now ∧ r'.tenantID = tenant := by
  -- the other statements look up what they wrote under the keys that were there
  have hupdate : ∀ {p : BenchJob → Bool} {f : BenchJob → BenchJob} (hf : ∀ r, (f r).id = r.id),
      (t.update p f hf).find id ≠ some r' := by
    intro p f hf hsome
    rw [Table.find_update, hnone, Option.map_none] at hsome
    cases hsome
  cases c with
  | enqueueJob job tenant model provider cfg now =>
    rw [Jobs.step] at h
    rcases hok : t.enqueueJob job tenant model provider cfg now with e | t'
    · rw [hok] at h
      cases hnone.symm.trans h
    · obtain ⟨row, hinsert, hfresh, hid, htenant⟩ := insert_of_enqueueJob hok
      rw [hok, Except.toOption, Option.getD_some, Table.find_insert hinsert] at h
      split at h
      · rename_i hkey
        obtain rfl := Option.some.inj h
        exact ⟨hfresh, _, _, _, _, _, by rw [← hkey, hid], htenant⟩
      · cases hnone.symm.trans h
  | claimJob tenant runner models locked now =>
    rw [Jobs.step, Jobs.claimJob] at h
    split at h
    · cases hnone.symm.trans h
    · exact absurd h (hupdate (BenchJob.id_claim _ _))
  | updateJobProgress job completed passed failed now =>
    rw [Jobs.step, Jobs.updateJobProgress] at h
    split at h
    · exact absurd h (hupdate (BenchJob.id_report _ _ _ _))
    · cases hnone.symm.trans h
  | completeJob tenant runner job status passed failed message now =>
    rw [Jobs.step, Jobs.completeJob] at h
    split at h
    · cases hnone.symm.trans h
    split at h
    · cases hnone.symm.trans h
    split at h
    · cases hnone.symm.trans h
    · exact absurd h (hupdate (BenchJob.id_finish _ _ _ _ _))
  | resetStaleJobs threshold now => exact absurd h (hupdate BenchJob.id_requeue)

theorem find_step (h : (t.step c).find id = some r') :
    (∃ r, t.find id = some r ∧ (r' = r ∨ Changes c r r')) ∨ t.find id = none ∧ r'.Fresh := by
  rcases hfind : t.find id with _ | r
  · exact .inr ⟨rfl, (fresh_of_find_step hfind h).1⟩
  · obtain ⟨r'', hr'', hchange⟩ := exists_find_step (c := c) hfind
    obtain rfl := Option.some.inj (hr''.symm.trans h)
    exact .inl ⟨r, rfl, hchange⟩

end Step

/-! ### What every row keeps -/

structure BenchJob.Sound (r : BenchJob) : Prop where
  started : r.infraID ≠ none → r.startedAt ≠ none
  owned : r.status.Held → r.infraID ≠ none
  pinned : ∀ runner, r.infraID = some runner →
    r.config.runnerID = "" ∨ r.config.runnerID = runner
  counted : r.status.Terminal → r.completed = r.passed + r.failed

section Sound

variable {t : Jobs} {c : Statement} {id : String} {r r' : BenchJob}

theorem BenchJob.Fresh.sound (h : r.Fresh) : r.Sound where
  started hinfra := absurd h.2 hinfra
  owned hheld := absurd (h.1 ▸ hheld) (by decide)
  pinned runner hinfra := by
    rw [h.2] at hinfra
    cases hinfra
  counted hterm := absurd (h.1 ▸ hterm) (by decide)

theorem Changes.sound (h : Changes c r r') (hr : r.Sound) : r'.Sound := by
  cases h with
  | claim hclaim =>
    refine ⟨fun _ => Option.some_ne_none _, fun _ => Option.some_ne_none _, ?_, ?_⟩
    · intro runner hrunner
      obtain rfl := Option.some.inj hrunner
      exact hclaim.2.2.2
    · intro hterm
      exact absurd (.inl rfl) hterm.not_held
  | report hfits hid hheld =>
    refine ⟨hr.started, fun _ => hr.owned hheld, hr.pinned, ?_⟩
    intro hterm
    exact absurd (.inr rfl) hterm.not_held
  | finish hfits howned =>
    refine ⟨hr.started, fun _ => ?_, hr.pinned, fun _ => rfl⟩
    rw [BenchJob.finish, howned.2.2]
    exact Option.some_ne_none _
  | requeue hstale =>
    exact BenchJob.Fresh.sound ⟨rfl, rfl⟩

/-- **Every row of every history is sound.** -/
theorem sound_of_reach (h : Jobs.system.Reach t) (hr : t.find id = some r) : r.Sound := by
  refine System.Reach.invariant (I := fun t => ∀ id r, t.find id = some r → r.Sound) ?_ ?_ h id r hr
  · intro id r hfind
    cases hfind
  · intro s s' c hs ih hstep id r hfind
    obtain rfl := Option.some.inj hstep
    obtain ⟨r₀, hr₀, rfl | hchange⟩ | ⟨-, hfresh⟩ := find_step hfind
    · exact ih id r hr₀
    · exact hchange.sound (ih id r₀ hr₀)
    · exact hfresh.sound

end Sound

end EvidraBench.Benchsvc
