import EvidraBench.Benchsvc.Counters
import EvidraBench.Benchsvc.Server

/-!
# Progress across a restart

A restart empties the trigger store. The next message finds its job in the table only and rebuilds
it from the row, which has the two counters but not the scenarios they are about: the first
scenarios of the list are taken to have passed and the next ones to have failed. Later messages are
applied as differences against these.

Results: `reports_agree_iff`, `restart_transparent_iff`, `finished_out_of_order`.

Source: `internal/benchsvc/trigger_handler.go`
-/

namespace EvidraBench.Benchsvc

open EvidraBench.Lib

/-! ### Messages -/

namespace Server

variable (s : Server) (tenant id : String)

/-- The server after some progress messages for a job, each with the time of its statement.
Source: `handleTriggerProgress` -/
def reports (us : List (ProgressUpdate × Int)) : Server :=
  us.foldl (fun s u => (s.handleTriggerProgress tenant id (.ok u.1) u.2).1) s

def restart : Server := ⟨s.jobs, .new⟩

/-- How many scenarios have passed and how many have failed, in memory and in the row. -/
def counts : Option (Int × Int) × Option (Int × Int) :=
  ((s.visible tenant id).map fun j => (j.passed, j.failed),
    (s.jobs.find id).map fun r => (r.passed, r.failed))

end Server

/-- What a message does to the job it is for.
Source: `handleTriggerProgress` -/
def TriggerJob.report (id : String) (u : ProgressUpdate) (j : TriggerJob) : TriggerJob :=
  if u.Supported then j.update { u with jobID := id } else j

section Messages

variable {s : Server} {tenant id : String} {u : ProgressUpdate} {now : Int} {j : TriggerJob}

theorem visible_of_get (h : s.store.get id = some j) : s.visible tenant id = some j := by
  rw [Server.visible, h]
  rfl

theorem visible_report (h : s.visible tenant id = some j) :
    (s.handleTriggerProgress tenant id (.ok u) now).1.visible tenant id = some (j.report id u) := by
  rw [TriggerJob.report]
  split
  · rename_i hu
    rw [Server.handleTriggerProgress_eq hu, h]
    exact visible_of_get (Function.update_self _ _ _)
  · rename_i hu
    rw [Server.handleTriggerProgress, Server.acceptProgress]
    simp only [if_neg hu]
    exact h

theorem jobs_report (h : s.visible tenant id = some j) :
    (s.handleTriggerProgress tenant id (.ok u) now).1.jobs =
      if u.Supported then s.jobs.step (.updateJobProgress id u.completed (j.report id u).passed
        (j.report id u).failed now)
      else s.jobs := by
  rw [TriggerJob.report]
  split
  · rename_i hu
    rw [Server.handleTriggerProgress_eq hu, h]
    rfl
  · rename_i hu
    rw [Server.handleTriggerProgress, Server.acceptProgress]
    simp only [if_neg hu]

theorem get_report (h : s.store.get id = some j) :
    (s.handleTriggerProgress tenant id (.ok u) now).1.store.get id = some (j.report id u) := by
  rw [TriggerJob.report]
  split
  · rename_i hu
    rw [Server.handleTriggerProgress_eq hu, visible_of_get h]
    exact Function.update_self _ _ _
  · rename_i hu
    rw [Server.handleTriggerProgress, Server.acceptProgress]
    simp only [if_neg hu]
    exact h

end Messages

/-! ### Two jobs that get the same messages -/

/-- What a scenario counts, as passed and as failed. -/
def TriggerJob.values (j : TriggerJob) (scenario : String) : Int × Int :=
  (counted passedCount j.progress scenario, counted failedCount j.progress scenario)

def TriggerJob.Covers (j : TriggerJob) : Prop :=
  tally passedCount j.progress ≤ j.passed ∧ tally failedCount j.progress ≤ j.failed

section Report

variable {id : String} {u v : ProgressUpdate} {a b j : TriggerJob} {x : String}

theorem names_report (h : v.Names j.progress) : v.Names (j.report id u).progress := by
  rw [TriggerJob.report]
  split
  swap
  · exact h
  rcases h with hne | hmem
  · exact .inl hne
  refine .inr ?_
  rw [progress_update]
  rcases recordScenario_cases { u with jobID := id } j with
    ⟨before, p, after, hps, -, -, hrec⟩ | ⟨-, -, hrec⟩ | ⟨-, hrec⟩
  · rw [hps, names_append] at hmem
    rw [hrec, names_append]
    exact hmem
  · rw [hrec, names_append]
    exact List.mem_append_left _ hmem
  · rw [hrec]
    exact hmem

theorem covers_report (hu : u.Names j.progress) (h : j.Covers) : (j.report id u).Covers := by
  rw [TriggerJob.report]
  split
  · obtain ⟨hp, hf⟩ := excess_update (u := { u with jobID := id }) hu
    have hpassed := hp h.1
    have hfailed := hf h.2
    have := h.1
    have := h.2
    exact ⟨by omega, by omega⟩
  · exact h

theorem counters_report (id : String) (hs : u.Supported) (hu : u.Names j.progress) (h : j.Covers) :
    (j.report id u).passed = j.passed + (passedCount u.status - (j.values u.scenario).1) ∧
      (j.report id u).failed = j.failed + (failedCount u.status - (j.values u.scenario).2) := by
  rw [TriggerJob.report, if_pos hs]
  obtain ⟨hp, hf⟩ := excess_update (u := { u with jobID := id }) hu
  have hpassed := hp h.1
  have hfailed := hf h.2
  rw [progress_update, tally_recordScenario (u := { u with jobID := id }) hu] at hpassed hfailed
  dsimp only at hpassed hfailed
  constructor
  · show _ = j.passed + (_ - counted passedCount j.progress u.scenario)
    omega
  · show _ = j.failed + (_ - counted failedCount j.progress u.scenario)
    omega

theorem values_report (hs : u.Supported) (hu : u.Names j.progress) :
    (j.report id u).values x =
      if u.scenario = x then (passedCount u.status, failedCount u.status) else j.values x := by
  rw [TriggerJob.report, if_pos hs, TriggerJob.values, progress_update,
    counted_recordScenario (u := { u with jobID := id }) hu,
    counted_recordScenario (u := { u with jobID := id }) hu]
  dsimp only
  split <;> rfl

theorem counters_report_iff (hs : u.Supported) (ha : u.Names a.progress) (hb : u.Names b.progress)
    (hca : a.Covers) (hcb : b.Covers) (h : (a.passed, a.failed) = (b.passed, b.failed)) :
    ((a.report id u).passed, (a.report id u).failed) =
        ((b.report id u).passed, (b.report id u).failed) ↔
      a.values u.scenario = b.values u.scenario := by
  obtain ⟨hpa, hfa⟩ := counters_report id hs ha hca
  obtain ⟨hpb, hfb⟩ := counters_report id hs hb hcb
  rw [Prod.mk.injEq] at h
  rw [hpa, hfa, hpb, hfb, Prod.mk.injEq, Prod.ext_iff]
  omega

end Report

/-! ### Two servers that get the same messages -/

section Agreement

variable {tenant id : String}

theorem reports_cons {s : Server} {u : ProgressUpdate × Int} {us : List (ProgressUpdate × Int)} :
    s.reports tenant id (u :: us) =
      (s.handleTriggerProgress tenant id (.ok u.1) u.2).1.reports tenant id us := rfl

theorem counts_eq_iff {s t : Server} {a b : TriggerJob} (hjobs : s.jobs = t.jobs)
    (ha : s.visible tenant id = some a) (hb : t.visible tenant id = some b) :
    s.counts tenant id = t.counts tenant id ↔ (a.passed, a.failed) = (b.passed, b.failed) := by
  rw [Server.counts, Server.counts, ha, hb, hjobs, Prod.mk.injEq]
  simp

theorem report_of_not_supported {u : ProgressUpdate} (hs : ¬ u.Supported) (j : TriggerJob) :
    j.report id u = j := if_neg hs

/-- **Agreement over a list of messages.** Two servers have the same rows. Their counters, in memory
and in the row, agree after each of the messages exactly if they agree in memory before the first
and every scenario that a message is about counts the same in both. -/
theorem reports_agree_iff : ∀ {us : List (ProgressUpdate × Int)} {s t : Server} {a b : TriggerJob},
    s.jobs = t.jobs → s.visible tenant id = some a → t.visible tenant id = some b →
    a.Covers → b.Covers → (∀ u ∈ us, u.1.Names a.progress ∧ u.1.Names b.progress) →
    ((∀ k, (s.reports tenant id (us.take k)).counts tenant id =
        (t.reports tenant id (us.take k)).counts tenant id) ↔
      (a.passed, a.failed) = (b.passed, b.failed) ∧
        ∀ u ∈ us, u.1.Supported → a.values u.1.scenario = b.values u.1.scenario)
  | [], s, t, a, b, hjobs, ha, hb, _, _, _ => by
      constructor
      · intro h
        exact ⟨(counts_eq_iff hjobs ha hb).mp (h 0), fun u hu => absurd hu List.not_mem_nil⟩
      · rintro ⟨h, -⟩ k
        rw [List.take_nil]
        exact (counts_eq_iff hjobs ha hb).mpr h
  | u :: us, s, t, a, b, hjobs, ha, hb, hca, hcb, hnames => by
      obtain ⟨hua, hub⟩ := hnames u List.mem_cons_self
      have hnames' : ∀ v ∈ us, v.1.Names (a.report id u.1).progress ∧
          v.1.Names (b.report id u.1).progress := by
        intro v hv
        obtain ⟨hva, hvb⟩ := hnames v (List.mem_cons_of_mem _ hv)
        exact ⟨names_report hva, names_report hvb⟩
      -- the statements are the same once the counters are
      have hjobs' : ((a.report id u.1).passed, (a.report id u.1).failed) =
            ((b.report id u.1).passed, (b.report id u.1).failed) →
          (s.handleTriggerProgress tenant id (.ok u.1) u.2).1.jobs =
            (t.handleTriggerProgress tenant id (.ok u.1) u.2).1.jobs := by
        intro hsame
        rw [Prod.mk.injEq] at hsame
        rw [jobs_report ha, jobs_report hb, hjobs, hsame.1, hsame.2]
      have ih := fun h => reports_agree_iff (hjobs' h) (visible_report ha) (visible_report hb)
        (covers_report hua hca) (covers_report hub hcb) hnames'
      constructor
      · intro hall
        have hbefore := (counts_eq_iff hjobs ha hb).mp (hall 0)
        have hafter : ((a.report id u.1).passed, (a.report id u.1).failed) =
            ((b.report id u.1).passed, (b.report id u.1).failed) := by
          have hone := congrArg Prod.fst (hall 1)
          rw [List.take_succ_cons, List.take_zero, reports_cons, reports_cons] at hone
          simp only [Server.reports, List.foldl_nil, Server.counts, visible_report ha,
            visible_report hb, Option.map_some] at hone
          exact Option.some.inj hone
        obtain ⟨-, hrest⟩ := (ih hafter).mp fun k => hall (k + 1)
        refine ⟨hbefore, fun v hv hvs => ?_⟩
        rcases List.mem_cons.mp hv with rfl | hv
        · exact (counters_report_iff hvs hua hub hca hcb hbefore).mp hafter
        have hlater := hrest v hv hvs
        by_cases hs : u.1.Supported
        · rw [values_report hs hua, values_report hs hub] at hlater
          split at hlater
          · rename_i hsame
            rw [← hsame]
            exact (counters_report_iff hs hua hub hca hcb hbefore).mp hafter
          · exact hlater
        · rw [report_of_not_supported hs, report_of_not_supported hs] at hlater
          exact hlater
      · rintro ⟨hbefore, hvalues⟩
        have hafter : ((a.report id u.1).passed, (a.report id u.1).failed) =
            ((b.report id u.1).passed, (b.report id u.1).failed) := by
          by_cases hs : u.1.Supported
          · apply (counters_report_iff hs hua hub hca hcb hbefore).mpr
            exact hvalues u List.mem_cons_self hs
          · rw [report_of_not_supported hs, report_of_not_supported hs]
            exact hbefore
        have htail := (ih hafter).mpr ⟨hafter, fun v hv hvs => by
          have hearlier := hvalues v (List.mem_cons_of_mem _ hv) hvs
          by_cases hs : u.1.Supported
          · rw [values_report hs hua, values_report hs hub, hearlier]
          · rw [report_of_not_supported hs, report_of_not_supported hs, hearlier]⟩
        intro k
        rcases k with _ | k
        · exact (counts_eq_iff hjobs ha hb).mpr hbefore
        · exact htail k

end Agreement

/-! ### The job a row gives -/

section Restored

variable {ss : List String} {x : String}

theorem names_pending (ss : List String) : names (pendingScenarioProgress ss) = ss := by
  rw [names, pendingScenarioProgress, List.map_map]
  exact List.map_id ss

theorem tally_pending {w : Status → Int} (hw : w .pending = 0) (ss : List String) :
    tally w (pendingScenarioProgress ss) = 0 := by
  apply List.sum_eq_zero
  intro n hn
  obtain ⟨p, hp, rfl⟩ := List.mem_map.mp hn
  obtain ⟨s, -, rfl⟩ := List.mem_map.mp hp
  exact hw

theorem names_restored : ∀ (ss : List String) (p f : Int),
    names (scenarioProgressFromBenchJob ss p f) = ss
  | [], _, _ => rfl
  | s :: ss, p, f => by
      rw [scenarioProgressFromBenchJob]
      split
      · exact congrArg (s :: ·) (names_restored ss _ _)
      split
      · exact congrArg (s :: ·) (names_restored ss _ _)
      · exact names_pending _

theorem tally_restored : ∀ (ss : List String) {p f : Int}, 0 ≤ p → 0 ≤ f →
    tally passedCount (scenarioProgressFromBenchJob ss p f) ≤ p ∧
      tally failedCount (scenarioProgressFromBenchJob ss p f) ≤ f
  | [], p, f, hp, hf => ⟨hp, hf⟩
  | s :: ss, p, f, hp, hf => by
      rw [scenarioProgressFromBenchJob]
      split
      · obtain ⟨ihp, ihf⟩ := tally_restored ss (show 0 ≤ p - 1 by omega) hf
        rw [tally_cons, tally_cons]
        show 1 + _ ≤ p ∧ 0 + _ ≤ f
        omega
      split
      · obtain ⟨ihp, ihf⟩ := tally_restored ss hp (show 0 ≤ f - 1 by omega)
        rw [tally_cons, tally_cons]
        show 0 + _ ≤ p ∧ 1 + _ ≤ f
        omega
      · rw [tally_pending rfl, tally_pending rfl]
        exact ⟨hp, hf⟩

theorem counted_pending {w : Status → Int} (hw : w .pending = 0) (x : String) :
    ∀ ss : List String, counted w (pendingScenarioProgress ss) x = 0
  | [] => rfl
  | s :: ss => by
      show counted w (⟨s, .pending, ""⟩ :: pendingScenarioProgress ss) x = 0
      rw [counted_cons, counted_pending hw x ss, hw, ite_self]

theorem counted_passed_restored (x : String) : ∀ (ss : List String) (p f : Int),
    counted passedCount (scenarioProgressFromBenchJob ss p f) x =
      if x ∈ ss.take p.toNat then 1 else 0
  | [], _, _ => by
      rw [List.take_nil]
      rfl
  | s :: ss, p, f => by
      rw [scenarioProgressFromBenchJob]
      split
      · obtain ⟨n, hn⟩ : ∃ n : ℕ, p.toNat = n + 1 := ⟨p.toNat - 1, by omega⟩
        have hpred : (p - 1).toNat = n := by omega
        rw [counted_cons, counted_passed_restored x ss, hpred, hn, List.take_succ_cons]
        by_cases hx : s = x
        · simp [hx, passedCount_eq]
        · simp [hx, Ne.symm hx]
      have hzero : p.toNat = 0 := by omega
      rw [hzero, List.take_zero, if_neg List.not_mem_nil]
      split
      · rw [counted_cons, counted_passed_restored x ss, hzero, List.take_zero,
          if_neg List.not_mem_nil]
        exact ite_self _
      · exact counted_pending rfl x _

theorem counted_failed_restored (x : String) : ∀ {ss : List String} (p f : Int), ss.Nodup →
    counted failedCount (scenarioProgressFromBenchJob ss p f) x =
      if x ∈ (ss.drop p.toNat).take f.toNat then 1 else 0
  | [], _, _, _ => by
      rw [List.drop_nil, List.take_nil]
      rfl
  | s :: ss, p, f, hnodup => by
      obtain ⟨hs, hss⟩ := List.nodup_cons.mp hnodup
      rw [scenarioProgressFromBenchJob]
      split
      · obtain ⟨n, hn⟩ : ∃ n : ℕ, p.toNat = n + 1 := ⟨p.toNat - 1, by omega⟩
        have hpred : (p - 1).toNat = n := by omega
        rw [counted_cons, counted_failed_restored x _ _ hss, hpred, hn, List.drop_succ_cons]
        by_cases hx : s = x
        · subst hx
          have hnot : s ∉ (ss.drop n).take f.toNat :=
            fun hmem => hs (List.mem_of_mem_drop (List.mem_of_mem_take hmem))
          rw [if_pos rfl, if_neg hnot]
          rfl
        · rw [if_neg hx]
      have hzero : p.toNat = 0 := by omega
      rw [hzero, List.drop_zero]
      split
      · obtain ⟨n, hn⟩ : ∃ n : ℕ, f.toNat = n + 1 := ⟨f.toNat - 1, by omega⟩
        have hpred : (f - 1).toNat = n := by omega
        rw [counted_cons, counted_failed_restored x _ _ hss, hzero, List.drop_zero, hpred, hn,
          List.take_succ_cons]
        by_cases hx : s = x
        · simp [hx, failedCount_eq]
        · simp [hx, Ne.symm hx]
      · have hf : f.toNat = 0 := by omega
        rw [hf, List.take_zero, if_neg List.not_mem_nil]
        exact counted_pending rfl x _

end Restored

/-! ### Restarts -/

def PerScenario (scenarios : List String) (u : ProgressUpdate) : Prop :=
  u.scenario ≠ "" ∨ u.scenario ∈ scenarios

/-- A job of some scenarios, new in the store, and its row.
Source: `enqueueRunnerTrigger` -/
structure Tracked (s : Server) (tenant id : String) (scenarios : List String) : Prop where
  distinct : scenarios.Nodup
  job : ∃ j, s.store.get id = some j ∧ j.New ∧ names j.progress = scenarios
  row : ∃ r, s.jobs.getJob tenant id = some r ∧ r.config.scenarios = scenarios

/-- The scenario stands, in the list, where a job rebuilt from the counters takes a scenario with
its status to stand: among the first if it has passed, among the next if it has failed, and
after them if it has done neither. -/
def Placed (scenarios : List String) (j : TriggerJob) (x : String) : Prop :=
  ((∃ e ∈ j.progress, e.scenario = x ∧ e.status = .passed) ↔
      x ∈ scenarios.take j.passed.toNat) ∧
    ((∃ e ∈ j.progress, e.scenario = x ∧ (e.status = .failed ∨ e.status = .error)) ↔
      x ∈ (scenarios.drop j.passed.toNat).take j.failed.toNat)

/-- What some messages keep of a job and its row. -/
structure Followed (s : Server) (tenant id : String) (scenarios : List String) (j : TriggerJob)
    (r : BenchJob) : Prop where
  get : s.store.get id = some j
  row : s.jobs.getJob tenant id = some r
  listed : r.config.scenarios = scenarios
  distinct : (names j.progress).Nodup
  passed : j.passed = tally passedCount j.progress
  failed : j.failed = tally failedCount j.progress
  named : ∀ u : ProgressUpdate, PerScenario scenarios u → u.Names j.progress

section Restart

variable {s : Server} {tenant id : String} {scenarios : List String} {j : TriggerJob} {r : BenchJob}

theorem getJob_step {t : Jobs} {c : Statement} (h : t.getJob tenant id = some r) :
    ∃ r', (t.step c).getJob tenant id = some r' ∧ r'.config = r.config := by
  obtain ⟨hfind, htenant⟩ := getJob_eq_some.mp h
  obtain ⟨r', hr', rfl | hchange⟩ := exists_find_step (c := c) hfind
  · exact ⟨r', getJob_eq_some.mpr ⟨hr', htenant⟩, rfl⟩
  · exact ⟨r', getJob_eq_some.mpr ⟨hr', hchange.tenantID_eq.trans htenant⟩, hchange.config_eq⟩

theorem Followed.report {u : ProgressUpdate} {now : Int} (h : Followed s tenant id scenarios j r)
    (hu : PerScenario scenarios u) :
    ∃ j' r',
      Followed (s.handleTriggerProgress tenant id (.ok u) now).1 tenant id scenarios j' r' := by
  have hnames := h.named u hu
  have hcovers : j.Covers := ⟨h.passed.ge, h.failed.ge⟩
  obtain ⟨r', hr', hconfig⟩ : ∃ r', (s.handleTriggerProgress tenant id (.ok u) now).1.jobs.getJob
      tenant id = some r' ∧ r'.config = r.config := by
    rw [jobs_report (visible_of_get h.get)]
    split
    · exact getJob_step h.row
    · exact ⟨r, h.row, rfl⟩
  refine ⟨j.report id u, r', get_report h.get, hr', hconfig ▸ h.listed, ?_, ?_, ?_, ?_⟩
  · rw [TriggerJob.report]
    split
    · rw [progress_update]
      exact nodup_recordScenario h.distinct
    · exact h.distinct
  · rw [TriggerJob.report]
    split
    · have hexcess := (excess_update (u := { u with jobID := id }) hnames).1 hcovers.1
      have := h.passed
      omega
    · exact h.passed
  · rw [TriggerJob.report]
    split
    · have hexcess := (excess_update (u := { u with jobID := id }) hnames).2 hcovers.2
      have := h.failed
      omega
    · exact h.failed
  · intro v hv
    exact names_report (h.named v hv)

theorem Followed.reports {us : List (ProgressUpdate × Int)}
    (hus : ∀ u ∈ us, PerScenario scenarios u.1) (h : Followed s tenant id scenarios j r) :
    ∃ j' r', Followed (s.reports tenant id us) tenant id scenarios j' r' := by
  induction us generalizing s j r with
  | nil => exact ⟨j, r, h⟩
  | cons u us ih =>
    have hstep : ∃ j' r', Followed (s.handleTriggerProgress tenant id (.ok u.1) u.2).1 tenant id
        scenarios j' r' := h.report (hus u List.mem_cons_self)
    obtain ⟨j', r', h'⟩ := hstep
    exact ih (fun v hv => hus v (List.mem_cons_of_mem _ hv)) h'

theorem Tracked.followed (h : Tracked s tenant id scenarios) :
    ∃ j r, Followed s tenant id scenarios j r := by
  obtain ⟨j, hget, hnew, hnames⟩ := h.job
  obtain ⟨r, hrow, hlisted⟩ := h.row
  obtain ⟨-, hpassed, hfailed, -⟩ := counters_after hnew []
  refine ⟨j, r, hget, hrow, hlisted, hnew.distinct, hpassed, hfailed ?_, ?_⟩
  · rintro ⟨before, u, after, hsplit, -⟩
    simp at hsplit
  · intro u hu
    rw [ProgressUpdate.Names, hnames]
    exact hu

theorem counted_cases {w : Status → Int} {q : Status → Prop} [DecidablePred q]
    (hw : ∀ s, w s = if q s then 1 else 0) {ps : List ScenarioProgress} (hnodup : (names ps).Nodup)
    (x : String) :
    (counted w ps x = 1 ∧ ∃ e ∈ ps, e.scenario = x ∧ q e.status) ∨
      counted w ps x = 0 ∧ ¬ ∃ e ∈ ps, e.scenario = x ∧ q e.status := by
  rcases hfind : ps.find? (·.scenario = x) with _ | p
  · refine .inr ⟨by rw [counted, hfind], ?_⟩
    rintro ⟨e, he, hx, -⟩
    exact List.find?_eq_none.mp hfind e he (decide_eq_true hx)
  have hp := List.mem_of_find?_eq_some hfind
  have hx : p.scenario = x := by simpa using List.find?_some hfind
  have hcounted : counted w ps x = w p.status := by rw [counted, hfind]
  by_cases hq : q p.status
  · left
    rw [hcounted, hw, if_pos hq]
    exact ⟨rfl, p, hp, hx, hq⟩
  · right
    rw [hcounted, hw, if_neg hq]
    refine ⟨rfl, ?_⟩
    rintro ⟨e, he, hex, hqe⟩
    -- a scenario has one entry
    obtain rfl := List.inj_on_of_nodup_map hnodup he hp (hex.trans hx.symm)
    exact hq hqe

theorem values_restored_iff (h : Followed s tenant id scenarios j r) (hscenarios : scenarios.Nodup)
    (hrow : (r.passed, r.failed) = (j.passed, j.failed)) (x : String) :
    (triggerJobFromBenchJob r).values x = j.values x ↔ Placed scenarios j x := by
  rw [Prod.mk.injEq] at hrow
  have hpassed : counted passedCount (triggerJobFromBenchJob r).progress x =
      if x ∈ scenarios.take j.passed.toNat then 1 else 0 := by
    rw [← hrow.1, ← h.listed]
    exact counted_passed_restored x _ _ _
  have hfailed : counted failedCount (triggerJobFromBenchJob r).progress x =
      if x ∈ (scenarios.drop j.passed.toNat).take j.failed.toNat then 1 else 0 := by
    rw [← hrow.1, ← hrow.2, ← h.listed]
    exact counted_failed_restored x _ _ (h.listed ▸ hscenarios)
  rw [TriggerJob.values, TriggerJob.values, Prod.mk.injEq, hpassed, hfailed, Placed]
  apply and_congr
  · rcases counted_cases passedCount_eq h.distinct x with ⟨hone, hex⟩ | ⟨hzero, hnot⟩
    · rw [hone, iff_true_left hex]
      split_ifs <;> simp_all
    · rw [hzero, iff_false_left hnot]
      split_ifs <;> simp_all
  · rcases counted_cases failedCount_eq h.distinct x with ⟨hone, hex⟩ | ⟨hzero, hnot⟩
    · rw [hone, iff_true_left hex]
      split_ifs <;> simp_all
    · rw [hzero, iff_false_left hnot]
      split_ifs <;> simp_all

/-- **Restarts.** For every job with distinct scenarios and all messages about scenarios, before and
after: the counters of the passed and the failed scenarios, in memory and in the row, are after each
later message what they would be without the restart, exactly if at the restart the row has the
counters of the job in memory and every scenario that a later message is about stands where a job
rebuilt from these counters takes it to stand.
Source: `handleTriggerProgress`, `restoreTriggerJobFromPersistentJob`,
`scenarioProgressFromBenchJob`
-/
theorem restart_transparent_iff (h : Tracked s tenant id scenarios)
    (before after : List (ProgressUpdate × Int))
    (hus : ∀ u ∈ before ++ after, PerScenario scenarios u.1) :
    (∀ k, ((s.reports tenant id before).restart.reports tenant id (after.take k)).counts tenant id =
        ((s.reports tenant id before).reports tenant id (after.take k)).counts tenant id) ↔
      ∃ j r, (s.reports tenant id before).store.get id = some j ∧
        (s.reports tenant id before).jobs.find id = some r ∧
        (r.passed, r.failed) = (j.passed, j.failed) ∧
        ∀ u ∈ after, u.1.Supported → Placed scenarios j u.1.scenario := by
  obtain ⟨j₀, r₀, hstart⟩ := h.followed
  obtain ⟨j, r, hf⟩ := hstart.reports fun u hu => hus u (List.mem_append_left _ hu)
  have hfind := (getJob_eq_some.mp hf.row).1
  have hvisible : (s.reports tenant id before).restart.visible tenant id =
      some (triggerJobFromBenchJob r) := by
    rw [Server.visible, Server.restart, hf.row]
    rfl
  have hjobs : (s.reports tenant id before).restart.jobs = (s.reports tenant id before).jobs := rfl
  have hcond : (∃ j r, (s.reports tenant id before).store.get id = some j ∧
        (s.reports tenant id before).jobs.find id = some r ∧
        (r.passed, r.failed) = (j.passed, j.failed) ∧
        ∀ u ∈ after, u.1.Supported → Placed scenarios j u.1.scenario) ↔
      (r.passed, r.failed) = (j.passed, j.failed) ∧
        ∀ u ∈ after, u.1.Supported → Placed scenarios j u.1.scenario := by
    rw [hf.get, hfind]
    simp
  rw [hcond]
  by_cases hrow : (r.passed, r.failed) = (j.passed, j.failed)
  swap
  · -- without a message the two differ already
    refine iff_of_false (fun hall => hrow ?_) (fun hboth => hrow hboth.1)
    exact (counts_eq_iff hjobs hvisible (visible_of_get hf.get)).mp (hall 0)
  have hpos : 0 ≤ r.passed ∧ 0 ≤ r.failed := by
    rw [Prod.mk.injEq] at hrow
    rw [hrow.1, hrow.2, hf.passed, hf.failed]
    exact ⟨tally_nonneg passedCount_nonneg, tally_nonneg failedCount_nonneg⟩
  have hnames : names (triggerJobFromBenchJob r).progress = scenarios := by
    rw [← hf.listed]
    exact names_restored _ _ _
  have hnamed : ∀ u ∈ after, u.1.Names (triggerJobFromBenchJob r).progress ∧
      u.1.Names j.progress := by
    intro u hu
    have hper := hus u (List.mem_append_right _ hu)
    refine ⟨?_, hf.named u.1 hper⟩
    rw [ProgressUpdate.Names, hnames]
    exact hper
  rw [reports_agree_iff hjobs hvisible (visible_of_get hf.get) (tally_restored _ hpos.1 hpos.2)
    ⟨hf.passed.ge, hf.failed.ge⟩ hnamed]
  apply and_congr Iff.rfl
  constructor
  · intro hvalues u hu hs
    exact (values_restored_iff hf h.distinct hrow _).mp (hvalues u hu hs)
  · intro hplaced u hu hs
    exact (values_restored_iff hf h.distinct hrow _).mpr (hplaced u hu hs)

end Restart

/-- A server with a job of two scenarios that a runner has claimed. -/
def twoScenarios : Server :=
  ⟨(Jobs.step .empty (.enqueueJob "j" "t" "m" "p"
      ⟨["a", "b"], 0, "", "", "", "", "", "", "", "", "", ""⟩ 0)).step
      (.claimJob "t" "r" ["m"] [] 1),
    TriggerStore.new.create ⟨"j", .pending, "m", "p", "provider", "", "", "", "", "", "", "", "", 2,
      0, 0, 0, "", [], pendingScenarioProgress ["a", "b"], 0⟩⟩

theorem twoScenarios_tracked : Tracked twoScenarios "t" "j" ["a", "b"] where
  distinct := by decide
  job := ⟨_, rfl, ⟨by decide, by decide, rfl, rfl⟩, rfl⟩
  row := ⟨_, rfl, rfl⟩

/-- The first scenario passes, the server restarts, and the second passes. -/
theorem restart_transparent_iff_in_order :
    (((twoScenarios.reports "t" "j" [(⟨"", "", "a", .passed, "", 1, 2⟩, 2)]).restart.reports "t" "j"
        [(⟨"", "", "b", .passed, "", 2, 2⟩, 3)]).counts "t" "j") =
      ((twoScenarios.reports "t" "j" [(⟨"", "", "a", .passed, "", 1, 2⟩, 2)]).reports "t" "j"
        [(⟨"", "", "b", .passed, "", 2, 2⟩, 3)]).counts "t" "j" := by
  refine (restart_transparent_iff twoScenarios_tracked [(⟨"", "", "a", .passed, "", 1, 2⟩, 2)]
    [(⟨"", "", "b", .passed, "", 2, 2⟩, 3)] ?_).mpr ?_ 1
  · intro u hu
    rcases List.mem_cons.mp hu with rfl | hu
    · exact .inl (by decide)
    · obtain rfl := List.mem_singleton.mp hu
      exact .inl (by decide)
  · refine ⟨_, _, rfl, rfl, rfl, ?_⟩
    intro u hu _
    obtain rfl := List.mem_singleton.mp hu
    constructor <;> decide

/-- The second scenario passes, the server restarts, and the first passes: the row and the rebuilt
job count one passed scenario of two. -/
theorem finished_out_of_order :
    ((twoScenarios.reports "t" "j" [(⟨"", "", "b", .passed, "", 1, 2⟩, 2)]).restart.reports "t" "j"
        [(⟨"", "", "a", .passed, "", 2, 2⟩, 3)]).counts "t" "j" = (some (1, 0), some (1, 0)) ∧
      ((twoScenarios.reports "t" "j" [(⟨"", "", "b", .passed, "", 1, 2⟩, 2)]).reports "t" "j"
        [(⟨"", "", "a", .passed, "", 2, 2⟩, 3)]).counts "t" "j" = (some (2, 0), some (2, 0)) := by
  decide

end EvidraBench.Benchsvc
