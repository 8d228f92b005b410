import EvidraBench.Benchsvc.Counters
import EvidraBench.Benchsvc.Fleet

/-!
# Finished trigger jobs

A trigger job is finished by the update that completes its last scenario or by the completion of its
runner. Its status is not kept after that: every update concludes it anew from the counters the
message carries, so a late message can take a finished job back.

Results: `update_keeps_iff`, `finished_jobs_stay_iff`, `late_message_reopens`.

Source: `internal/benchsvc/executor.go`
-/

namespace EvidraBench.Benchsvc

open EvidraBench.Lib

/-! ### Updates of a finished job -/

def TriggerJob.outcome (j : TriggerJob) : Status × Int × Int × Int :=
  (j.status, j.passed, j.failed, j.completed)

/-- A counter stays as it is when its scenario counts `new` instead of `old`.
Source: `TriggerStore.Update` -/
def Steady (count new old : Int) : Prop := 0 ≤ count ∧ (new = old ∨ count = 0 ∧ new < old)

/-- The message says nothing about the job that it does not say itself: the same number of
completed scenarios, which is all of them; a scenario that counts what it counted, or no
scenario and no first error; and the job is failed exactly if it has failed scenarios.
Source: `TriggerStore.Update` -/
structure Repeats (j : TriggerJob) (u : ProgressUpdate) : Prop where
  completed : u.completed = j.completed
  total : u.total ≤ u.completed
  named : u.Names j.progress →
    Steady j.passed (passedCount u.status) (counted passedCount j.progress u.scenario) ∧
      Steady j.failed (failedCount u.status) (counted failedCount j.progress u.scenario)
  stray : ¬ u.Names j.progress → ¬ (u.status = .error ∧ j.failed = 0)
  status : j.status = if j.failed > 0 then .failed else .completed

section Update

variable {j : TriggerJob} {u : ProgressUpdate}

theorem adjust_eq_self_iff {count new old : Int} :
    TriggerJob.adjust count new old = count ↔ Steady count new old := by
  rw [TriggerJob.adjust, Steady]
  split <;> omega

theorem status_update : (j.update u).status =
    if u.completed ≥ u.total then if (j.update u).failed > 0 then .failed else .completed
    else .running := by
  rw [failed_update, TriggerJob.update, TriggerJob.conclude]
  dsimp only
  split <;> rfl

theorem counters_update_iff :
    ((j.update u).passed = j.passed ∧ (j.update u).failed = j.failed) ↔
      (u.Names j.progress →
        Steady j.passed (passedCount u.status) (counted passedCount j.progress u.scenario) ∧
          Steady j.failed (failedCount u.status) (counted failedCount j.progress u.scenario)) ∧
      (¬ u.Names j.progress → ¬ (u.status = .error ∧ j.failed = 0)) := by
  by_cases hu : u.Names j.progress
  · have hsteady : ((j.update u).passed = j.passed ∧ (j.update u).failed = j.failed) ↔
        Steady j.passed (passedCount u.status) (counted passedCount j.progress u.scenario) ∧
          Steady j.failed (failedCount u.status) (counted failedCount j.progress u.scenario) := by
      rw [passed_update, failed_update, recordScenario_old hu]
      exact and_congr adjust_eq_self_iff adjust_eq_self_iff
    constructor
    · intro h
      exact ⟨fun _ => hsteady.mp h, absurd hu⟩
    · rintro ⟨hnamed, -⟩
      exact hsteady.mpr (hnamed hu)
  · obtain ⟨-, hpassed, hfailed⟩ := update_of_not_names hu
    rw [hpassed, hfailed]
    constructor
    · rintro ⟨-, hsame⟩
      refine ⟨fun hnamed => absurd hnamed hu, fun _ herror => ?_⟩
      rw [if_pos herror] at hsame
      have := herror.2
      omega
    · rintro ⟨-, hstray⟩
      exact ⟨rfl, if_neg (hstray hu)⟩

/-- **What a finished job may be told.** An update of a finished job keeps its status and its
counters exactly if it repeats what the job says. -/
theorem update_keeps_iff (h : j.status.Terminal) :
    (j.update u).outcome = j.outcome ↔ Repeats j u := by
  rw [TriggerJob.outcome, TriggerJob.outcome, completed_update]
  simp only [Prod.mk.injEq]
  constructor
  · rintro ⟨hstatus, hpassed, hfailed, hcompleted⟩
    obtain ⟨hnamed, hstray⟩ := counters_update_iff.mp ⟨hpassed, hfailed⟩
    rw [status_update, hfailed] at hstatus
    split at hstatus
    · rename_i htotal
      exact ⟨hcompleted, htotal, hnamed, hstray, hstatus.symm⟩
    · exact absurd (.inr hstatus.symm) h.not_held
  · intro hrep
    obtain ⟨hpassed, hfailed⟩ := counters_update_iff.mpr ⟨hrep.named, hrep.stray⟩
    refine ⟨?_, hpassed, hfailed, hrep.completed⟩
    rw [status_update, hfailed, if_pos hrep.total]
    exact hrep.status.symm

end Update

/-! ### Sequences of calls -/

/-- A call that writes a trigger job.
Source: `TriggerStore.Update`, `TriggerStore.Complete` -/
inductive StoreCall
  | update (u : ProgressUpdate)
  | complete (status : Status) (passed failed : Int)

def TriggerJob.calls (j : TriggerJob) (cs : List StoreCall) : TriggerJob :=
  cs.foldl (fun j c =>
    match c with
    | .update u => j.update u
    | .complete status passed failed => j.complete status passed failed) j

/-! ### The fleet -/

/-- No job in the store has a status that its finished row does not have. -/
def Consistent (s : Server) : Prop :=
  ∀ id j r, s.store.get id = some j → s.jobs.find id = some r → r.status.Terminal →
    j.status = r.status

/-- An update that meets a finished job and does not repeat what it says, or a trigger whose job
comes into the store when its row is finished.
Source: `internal/benchsvc/trigger_handler.go` `handleTriggerProgress`, `startTriggerRequest`,
`enqueueRunnerTrigger` -/
def Disturbs (f : Fleet) : Event → Prop
  | .report _ tenant id (.ok u) =>
      u.Supported ∧ ∃ j, f.server.visible tenant id = some j ∧ j.status.Terminal ∧
        ¬ Repeats j { u with jobID := id }
  | .executorFailed id total => ∃ j, f.server.store.get id = some j ∧ j.status.Terminal ∧
      ¬ Repeats j
        { jobID := id, scenario := "", status := .error, completed := total, total := total }
  | .create _ id _ _ _ => ∃ r, f.server.jobs.find id = some r ∧ r.status.Terminal
  | _ => False

section Consistent

variable {s : Server} {tenant id : String} {j : TriggerJob} {r : BenchJob}

theorem triggerStatus_of_terminal {st : Status} (h : st.Terminal) :
    triggerStatusFromBenchJobStatus st = st := by
  rcases h with rfl | rfl <;> decide

theorem status_of_visible (h : Consistent s) (hj : s.visible tenant id = some j)
    (hr : s.jobs.find id = some r) (hterm : r.status.Terminal) : j.status = r.status := by
  rcases hget : s.store.get id with _ | j'
  · rw [Server.visible, hget] at hj
    obtain ⟨row, hrow, rfl⟩ := Option.map_eq_some_iff.mp hj
    obtain rfl := Option.some.inj ((getJob_eq_some.mp hrow).1.symm.trans hr)
    exact triggerStatus_of_terminal hterm
  · rw [Server.visible, hget] at hj
    obtain rfl := Option.some.inj hj
    exact h id j' r hget hr hterm

theorem Consistent.put (h : Consistent s)
    (hj : ∀ r, s.jobs.find id = some r → r.status.Terminal → j.status = r.status) :
    Consistent (s.put id j) := by
  intro id' j' r hget hr hterm
  by_cases hid : id' = id
  · subst hid
    obtain rfl : j = j' := by
      have hself : (s.put id' j).store.get id' = some j := Function.update_self _ _ _
      exact Option.some.inj (hself.symm.trans hget)
    exact hj r hr hterm
  · rw [Server.get_put_of_ne hid] at hget
    exact h id' j' r hget hr hterm

theorem Consistent.statement {c : Statement} (h : Consistent s)
    (hc : ∀ tenant runner job status passed failed message now,
      c ≠ .completeJob tenant runner job status passed failed message now) :
    Consistent ⟨s.jobs.step c, s.store⟩ := by
  intro id j r hget hr hterm
  obtain ⟨r₀, hr₀, rfl | hchange⟩ | ⟨-, hfresh⟩ := find_step hr
  · exact h id j r hget hr₀ hterm
  · cases hchange with
    | claim hclaim => exact absurd (.inl rfl) hterm.not_held
    | report hfits hid hheld => exact absurd (.inr rfl) hterm.not_held
    | finish hfits howned => exact absurd rfl (hc _ _ _ _ _ _ _ _)
    | requeue hstale => exact absurd rfl hterm.ne_queued
  · exact absurd hfresh.1 hterm.ne_queued

theorem Consistent.update {u : ProgressUpdate} (h : Consistent s)
    (hj : s.visible tenant id = some j) (hrep : j.status.Terminal → Repeats j u) :
    Consistent (s.put id (j.update u)) := by
  refine h.put ?_
  intro r hr hterm
  have hstatus := status_of_visible h hj hr hterm
  have hjob : j.status.Terminal := hstatus ▸ hterm
  have hkeeps := (update_keeps_iff hjob).mpr (hrep hjob)
  exact (congrArg Prod.fst hkeeps).trans hstatus

theorem Consistent.complete {jobs : Jobs} {runner message : String} {st : Status}
    {passed failed now : Int} (h : Consistent s)
    (hok : s.jobs.completeJob tenant runner id st passed failed message now = .ok jobs) :
    Consistent ⟨jobs, s.store.complete id st passed failed⟩ := by
  obtain ⟨-, ⟨row, hrow, howned⟩, rfl⟩ := completeJob_eq_ok hok
  intro id' j' r hget hr hterm
  rw [Table.find_update] at hr
  obtain ⟨r₀, hr₀, rfl⟩ := Option.map_eq_some_iff.mp hr
  by_cases hid : id' = id
  · subst hid
    obtain rfl := Option.some.inj (hrow.symm.trans hr₀)
    rw [if_pos (decide_eq_true howned)]
    obtain ⟨j, -, rfl⟩ := Option.map_eq_some_iff.mp (TriggerStore.get_complete_self.symm.trans hget)
    rfl
  · have hother : ¬ r₀.OwnedBy tenant runner id := by
      intro howned'
      exact hid ((Table.find_eq_some.mp hr₀).2.symm.trans howned'.1)
    rw [if_neg (by simpa using hother)] at hterm ⊢
    exact h id' j' r₀ ((TriggerStore.get_complete_of_ne hid).symm.trans hget) hr₀ hterm

theorem Consistent.handleCompleteJob {body : Except String CompleteRequest} {now : Int}
    (h : Consistent s) : Consistent (s.handleCompleteJob tenant id body now).1 := by
  rcases body with e | req
  · exact h
  rw [Server.handleCompleteJob]
  split
  · exact h
  split
  · exact h
  split
  · exact h
  · exact h
  · rename_i hok
    exact h.complete hok

theorem Consistent.step {tenantOf : String → String} {f f' : Fleet} {e : Event}
    (h : Consistent f.server) (he : ¬ Disturbs f e) (hstep : f.step tenantOf e = some f') :
    Consistent f'.server := by
  cases e with
  | enqueue tenant id req provider now =>
    obtain ⟨-, hstep⟩ := Option.ite_none_right_eq_some.mp hstep
    obtain rfl := Option.some.inj hstep
    exact h.statement (by simp)
  | create tenant id req provider now =>
    obtain ⟨-, hstep⟩ := Option.ite_none_right_eq_some.mp hstep
    obtain rfl := Option.some.inj hstep
    refine Consistent.put h ?_
    intro r hr hterm
    exact absurd ⟨r, hr, hterm⟩ he
  | executorFailed id total =>
    obtain rfl := Option.some.inj hstep
    rcases hget : f.server.store.get id with _ | j
    · dsimp only
      rw [TriggerStore.update_eq_none.mpr hget]
      exact h
    · dsimp only
      rw [TriggerStore.update_of_get hget]
      have hj : f.server.visible "" id = some j := by rw [Server.visible, hget]; rfl
      refine Consistent.update h hj ?_
      intro hterm
      by_contra hnot
      exact he ⟨j, hget, hterm, hnot⟩
  | claim tenant runner models locked now =>
    obtain rfl := Option.some.inj hstep
    exact h.statement (by simp)
  | report runner tenant id body =>
    obtain rfl := Option.some.inj hstep
    rcases body with e | u
    · exact h
    dsimp only
    rw [Server.acceptProgress]
    split
    swap
    · exact h
    rename_i hu
    rw [Server.applyProgress_eq]
    rcases hj : f.server.visible tenant id with _ | j
    · exact h
    · refine h.update hj ?_
      intro hterm
      by_contra hnot
      exact he ⟨hu, j, hj, hterm, hnot⟩
  | write runner call now =>
    obtain ⟨-, hstep⟩ := Option.ite_none_right_eq_some.mp hstep
    obtain rfl := Option.some.inj hstep
    exact h.statement (by simp)
  | complete tenant id body now =>
    obtain rfl := Option.some.inj hstep
    exact h.handleCompleteJob
  | status tenant id stream =>
    obtain rfl := Option.some.inj hstep
    dsimp only
    rw [Server.handleTriggerStatus_eq]
    rcases hj : f.server.visible tenant id with _ | j
    · exact h
    · exact h.put fun r hr hterm => status_of_visible h hj hr hterm
  | reset threshold now =>
    obtain rfl := Option.some.inj hstep
    exact h.statement (by simp)
  | restart =>
    obtain rfl := Option.some.inj hstep
    intro id j r hget
    cases hget

end Consistent

/-- **Finished jobs.** Over every sequence of updates and completions of a job, no update of the
finished job makes it running or changes its status or counters, exactly if every update that meets
the finished job repeats what it says. In every run of a fleet in which no event disturbs a finished
job, no status in the store contradicts a finished row.
Source: `TriggerStore.Update`, `TriggerStore.Complete`; `internal/benchsvc/runner_handler.go`
`handleCompleteJob`
-/
theorem finished_jobs_stay_iff (j : TriggerJob) (cs : List StoreCall) :
    ((∀ i u, cs[i]? = some (.update u) → (j.calls (cs.take i)).status.Terminal →
        ((j.calls (cs.take i)).update u).outcome = (j.calls (cs.take i)).outcome) ↔
      ∀ i u, cs[i]? = some (.update u) → (j.calls (cs.take i)).status.Terminal →
        Repeats (j.calls (cs.take i)) u) ∧
    ∀ (tenantOf : String → String) (run : List Event) (f : Fleet),
      (fleet tenantOf).exec .init run = some f →
      (∀ i e g, run[i]? = some e → (fleet tenantOf).exec .init (run.take i) = some g →
        ¬ Disturbs g e) →
      Consistent f.server := by
  refine ⟨⟨?_, ?_⟩, ?_⟩
  · intro hkeeps i u hu hterm
    exact (update_keeps_iff hterm).mp (hkeeps i u hu hterm)
  · intro hrep i u hu hterm
    exact (update_keeps_iff hterm).mpr (hrep i u hu hterm)
  · intro tenantOf run f hexec hclean
    refine System.exec_invariant (I := fun f => Consistent f.server)
      (Q := fun f e => ¬ Disturbs f e) Consistent.step ?_ hclean hexec
    intro id j r hget
    cases hget

/-- Runner `r` completes the job of one scenario; a message it sent before, that the scenario is
running, arrives after the completion. The job is running again and nothing is completed,
while the row is completed. -/
theorem late_message_reopens :
    ∃ f f' j r, (fleet fun _ => "t").exec .init
        [ .enqueue "t" "j" { model := "m", scenarios := ["s"] } "p" 0,
          .create "t" "j" { model := "m", scenarios := ["s"] } "p" 0,
          .claim "t" "r" ["m"] [] 1,
          .complete "t" "j" (.ok ⟨"r", .completed, 1, 0, ""⟩) 2 ] = some f ∧
      f.server.store.get "j" = some j ∧ j.outcome = (.completed, 1, 0, 1) ∧
      f.server.jobs.find "j" = some r ∧ r.status = .completed ∧
      f.step (fun _ => "t")
        (.report "r" "t" "j" (.ok ⟨"", "", "s", .running, "", 0, 1⟩)) = some f' ∧
      (f'.server.store.get "j").map TriggerJob.outcome = some (.running, 1, 0, 0) ∧
      f'.server.jobs.find "j" = some r :=
  ⟨_, _, _, _, rfl, rfl, rfl, rfl, rfl, rfl, rfl, rfl⟩

end EvidraBench.Benchsvc
