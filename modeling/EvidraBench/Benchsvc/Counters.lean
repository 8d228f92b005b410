import EvidraBench.Benchsvc.TriggerStore

/-!
# The counters of a trigger job

A trigger job keeps the status of each scenario and, beside them, how many have passed and how many
have failed. The counters are not counted from the entries: each message changes them by the
difference between what its scenario counted before and counts now.

Results: `excess_update`, `counters_match`.

Source: `internal/benchsvc/executor.go`
-/

namespace EvidraBench.Benchsvc

/-! ### Entries -/

def names (ps : List ScenarioProgress) : List String := ps.map (·.scenario)

/-- What the entries count, when a status counts `w`. -/
def tally (w : Status → Int) (ps : List ScenarioProgress) : Int := (ps.map fun p => w p.status).sum

def counted (w : Status → Int) (ps : List ScenarioProgress) (scenario : String) : Int :=
  match ps.find? (·.scenario = scenario) with
  | some p => w p.status
  | none => 0

/-- Source: `progressStatusCounts` -/
def passedCount (s : Status) : Int := (progressStatusCounts s).1

/-- Source: `progressStatusCounts` -/
def failedCount (s : Status) : Int := (progressStatusCounts s).2

/-- The message is about a scenario: one that has an entry, or one that gets an entry.
Source: `TriggerStore.Update` -/
def ProgressUpdate.Names (u : ProgressUpdate) (ps : List ScenarioProgress) : Prop :=
  u.scenario ≠ "" ∨ u.scenario ∈ names ps

instance (u : ProgressUpdate) (ps : List ScenarioProgress) : Decidable (u.Names ps) :=
  inferInstanceAs (Decidable (_ ∨ _))

section Entries

variable {w : Status → Int} {ps before after : List ScenarioProgress} {p : ScenarioProgress}
  {u : ProgressUpdate} {j : TriggerJob} {s : String}

theorem passedCount_eq (s : Status) : passedCount s = if s = .passed then 1 else 0 := by
  unfold passedCount progressStatusCounts
  split_ifs <;> rfl

theorem failedCount_eq (s : Status) :
    failedCount s = if s = .failed ∨ s = .error then 1 else 0 := by
  unfold failedCount progressStatusCounts
  by_cases hs : s = .passed
  · subst hs
    decide
  · rw [if_neg hs]
    split_ifs <;> rfl

theorem passedCount_nonneg (s : Status) : 0 ≤ passedCount s := by
  rw [passedCount_eq]
  split_ifs <;> decide

theorem failedCount_nonneg (s : Status) : 0 ≤ failedCount s := by
  rw [failedCount_eq]
  split_ifs <;> decide

theorem names_append : names (before ++ after) = names before ++ names after := List.map_append

theorem tally_append : tally w (before ++ after) = tally w before + tally w after := by
  rw [tally, List.map_append, List.sum_append]
  rfl

theorem tally_cons : tally w (p :: ps) = w p.status + tally w ps := by
  rw [tally, List.map_cons, List.sum_cons]
  rfl

theorem tally_nonneg (hw : ∀ s, 0 ≤ w s) : 0 ≤ tally w ps := by
  apply List.sum_nonneg
  intro x hx
  obtain ⟨p, -, rfl⟩ := List.mem_map.mp hx
  exact hw p.status

theorem counted_append_of_notMem (h : s ∉ names before) :
    counted w (before ++ after) s = counted w after s := by
  have hnone : before.find? (·.scenario = s) = none := by
    apply List.find?_eq_none.mpr
    intro p hp hps
    exact h (List.mem_map.mpr ⟨p, hp, of_decide_eq_true hps⟩)
  rw [counted, counted, List.find?_append, hnone, Option.none_or]

theorem counted_append_of_mem (h : s ∈ names before) :
    counted w (before ++ after) s = counted w before s := by
  obtain ⟨p, hp, rfl⟩ := List.mem_map.mp h
  obtain ⟨q, hq⟩ : ∃ q, before.find? (·.scenario = p.scenario) = some q :=
    Option.isSome_iff_exists.mp (List.find?_isSome.mpr ⟨p, hp, by simp⟩)
  rw [counted, counted, List.find?_append, hq, Option.some_or]

theorem counted_cons : counted w (p :: ps) s =
    if p.scenario = s then w p.status else counted w ps s := by
  rw [counted, List.find?_cons]
  by_cases h : p.scenario = s
  · simp [h]
  · simp [h, counted]

theorem counted_of_notMem (h : s ∉ names ps) : counted w ps s = 0 := by
  have happend : counted w (ps ++ []) s = counted w [] s := counted_append_of_notMem h
  rw [List.append_nil] at happend
  rw [happend]
  rfl

/-! ### One message -/

theorem markScenario_eq (u : ProgressUpdate) : ∀ ps : List ScenarioProgress,
    (markScenario u ps = none ∧ u.scenario ∉ names ps) ∨
      ∃ before p after, ps = before ++ p :: after ∧ u.scenario ∉ names before ∧
        p.scenario = u.scenario ∧ markScenario u ps =
          some (p.status, before ++ { p with status := u.status, runID := u.runID } :: after)
  | [] => .inl ⟨rfl, List.not_mem_nil⟩
  | q :: ps => by
      by_cases hq : q.scenario = u.scenario
      · refine .inr ⟨[], q, ps, rfl, List.not_mem_nil, hq, ?_⟩
        rw [markScenario, if_pos hq]
        rfl
      · have hne : u.scenario ≠ q.scenario := Ne.symm hq
        rcases markScenario_eq u ps with
          ⟨hnone, hnot⟩ | ⟨before, p, after, rfl, hnot, hp, hmark⟩
        · refine .inl ⟨?_, ?_⟩
          · rw [markScenario, if_neg hq, hnone]
          · exact List.not_mem_cons_of_ne_of_not_mem hne hnot
        · refine .inr ⟨q :: before, p, after, rfl, ?_, hp, ?_⟩
          · exact List.not_mem_cons_of_ne_of_not_mem hne hnot
          · rw [markScenario, if_neg hq, hmark]
            rfl

theorem recordScenario_cases (u : ProgressUpdate) (j : TriggerJob) :
    (∃ before p after, j.progress = before ++ p :: after ∧ u.scenario ∉ names before ∧
      p.scenario = u.scenario ∧ j.recordScenario u =
        (before ++ { p with status := u.status, runID := u.runID } :: after,
          some (progressStatusCounts p.status))) ∨
    (u.scenario ∉ names j.progress ∧ u.scenario ≠ "" ∧ j.recordScenario u =
      (j.progress ++ [⟨u.scenario, u.status, u.runID⟩], some (0, 0))) ∨
    ¬ u.Names j.progress ∧ j.recordScenario u = (j.progress, none) := by
  unfold TriggerJob.recordScenario
  rcases markScenario_eq u j.progress with
    ⟨hnone, hnot⟩ | ⟨before, p, after, hps, hnot, hp, hmark⟩
  · by_cases hempty : u.scenario = ""
    · refine .inr (.inr ⟨?_, ?_⟩)
      · rintro (hne | hmem)
        · exact hne hempty
        · exact hnot hmem
      · simp [hnone, hempty]
    · refine .inr (.inl ⟨hnot, hempty, ?_⟩)
      simp [hnone, hempty]
  · refine .inl ⟨before, p, after, hps, hnot, hp, ?_⟩
    simp [hmark]

theorem recordScenario_old (hu : u.Names j.progress) :
    (j.recordScenario u).2 = some
      (counted passedCount j.progress u.scenario, counted failedCount j.progress u.scenario) := by
  rcases recordScenario_cases u j with
    ⟨before, p, after, hps, hnot, hp, hrec⟩ | ⟨hnot, -, hrec⟩ | ⟨hnames, -⟩
  · rw [hrec, hps, counted_append_of_notMem hnot, counted_append_of_notMem hnot, counted_cons,
      counted_cons, if_pos hp, if_pos hp]
    rfl
  · rw [hrec, counted_of_notMem hnot, counted_of_notMem hnot]
  · exact absurd hu hnames

theorem nodup_recordScenario (h : (names j.progress).Nodup) :
    (names (j.recordScenario u).1).Nodup := by
  rcases recordScenario_cases u j with
    ⟨before, p, after, hps, -, -, hrec⟩ | ⟨hnot, -, hrec⟩ | ⟨-, hrec⟩
  · rw [hrec]
    rw [hps] at h
    rw [names_append] at h ⊢
    exact h
  · rw [hrec]
    show (names (j.progress ++ _)).Nodup
    rw [names_append]
    show (names j.progress ++ [u.scenario]).Nodup
    rw [← List.concat_eq_append]
    exact h.concat hnot
  · rw [hrec]
    exact h

theorem tally_recordScenario (hu : u.Names j.progress) :
    tally w (j.recordScenario u).1 =
      tally w j.progress + (w u.status - counted w j.progress u.scenario) := by
  rcases recordScenario_cases u j with
    ⟨before, p, after, hps, hnot, hp, hrec⟩ | ⟨hnot, -, hrec⟩ | ⟨hnames, -⟩
  · rw [hrec, hps, counted_append_of_notMem hnot, counted_cons, if_pos hp, tally_append,
      tally_append, tally_cons, tally_cons]
    dsimp only
    omega
  · rw [hrec, counted_of_notMem hnot, tally_append, tally_cons]
    show tally w j.progress + (w u.status + 0) = _
    omega
  · exact absurd hu hnames

theorem counted_recordScenario (hu : u.Names j.progress) :
    counted w (j.recordScenario u).1 s =
      if u.scenario = s then w u.status else counted w j.progress s := by
  rcases recordScenario_cases u j with
    ⟨before, p, after, hps, hnot, hp, hrec⟩ | ⟨hnot, -, hrec⟩ | ⟨hnames, -⟩
  · rw [hrec, hps]
    by_cases hs : s ∈ names before
    · have hne : u.scenario ≠ s := by
        rintro rfl
        exact hnot hs
      rw [if_neg hne, counted_append_of_mem hs, counted_append_of_mem hs]
    · rw [counted_append_of_notMem hs, counted_append_of_notMem hs, counted_cons, counted_cons, hp]
      split <;> rfl
  · rw [hrec]
    by_cases hs : s ∈ names j.progress
    · have hne : u.scenario ≠ s := by
        rintro rfl
        exact hnot hs
      rw [if_neg hne, counted_append_of_mem hs]
    · rw [counted_append_of_notMem hs, counted_cons, counted_of_notMem hs]
      rfl
  · exact absurd hu hnames

end Entries

/-! ### Counters -/

section Update

variable {u : ProgressUpdate} {j : TriggerJob}

theorem conclude_fields (j : TriggerJob) :
    (j.conclude.progress, j.conclude.passed, j.conclude.failed, j.conclude.completed,
      j.conclude.total, j.conclude.runIDs, j.conclude.id) =
    (j.progress, j.passed, j.failed, j.completed, j.total, j.runIDs, j.id) := by
  rw [TriggerJob.conclude]
  split <;> rfl

theorem progress_update : (j.update u).progress = (j.recordScenario u).1 :=
  congrArg Prod.fst (conclude_fields _)

theorem passed_update : (j.update u).passed = (j.recount u (j.recordScenario u).2).1 :=
  congrArg (fun x => x.2.1) (conclude_fields _)

theorem failed_update : (j.update u).failed = (j.recount u (j.recordScenario u).2).2 :=
  congrArg (fun x => x.2.2.1) (conclude_fields _)

theorem completed_update : (j.update u).completed = u.completed :=
  congrArg (fun x => x.2.2.2.1) (conclude_fields _)

theorem total_update : (j.update u).total = u.total :=
  congrArg (fun x => x.2.2.2.2.1) (conclude_fields _)

theorem runIDs_update : (j.update u).runIDs = j.recordRun u :=
  congrArg (fun x => x.2.2.2.2.2.1) (conclude_fields _)

theorem adjust_eq {count new old : Int} (h : 0 ≤ count + (new - old)) :
    TriggerJob.adjust count new old = count + (new - old) := by
  rw [TriggerJob.adjust, if_neg (by omega)]

theorem adjust_nonneg (count new old : Int) : 0 ≤ TriggerJob.adjust count new old := by
  rw [TriggerJob.adjust]
  split <;> omega

theorem adjust_self {count : Int} (new : Int) (h : 0 ≤ count) :
    TriggerJob.adjust count new new = count := by
  rw [adjust_eq (by omega)]
  omega

/-- **What a counter has too much stays.** A message about a scenario changes the counters by what
it changes in the entries. -/
theorem excess_update (hu : u.Names j.progress) :
    (tally passedCount j.progress ≤ j.passed →
      (j.update u).passed - tally passedCount (j.update u).progress =
        j.passed - tally passedCount j.progress) ∧
    (tally failedCount j.progress ≤ j.failed →
      (j.update u).failed - tally failedCount (j.update u).progress =
        j.failed - tally failedCount j.progress) := by
  rw [passed_update, failed_update, progress_update, recordScenario_old hu,
    tally_recordScenario hu, tally_recordScenario hu]
  have hpassed := tally_recordScenario (w := passedCount) hu
  have hfailed := tally_recordScenario (w := failedCount) hu
  have hpos : 0 ≤ tally passedCount (j.recordScenario u).1 := tally_nonneg passedCount_nonneg
  have hpos' : 0 ≤ tally failedCount (j.recordScenario u).1 := tally_nonneg failedCount_nonneg
  constructor
  · intro hle
    show TriggerJob.adjust j.passed (passedCount u.status) _ - _ = _
    rw [adjust_eq (by omega)]
    omega
  · intro hle
    show TriggerJob.adjust j.failed (failedCount u.status) _ - _ = _
    rw [adjust_eq (by omega)]
    omega

/-- A message about no scenario leaves the entries and the passed ones, and counts as a failure if
it is the first. -/
theorem update_of_not_names (hu : ¬ u.Names j.progress) :
    (j.update u).progress = j.progress ∧ (j.update u).passed = j.passed ∧
      (j.update u).failed = if u.status = .error ∧ j.failed = 0 then 1 else j.failed := by
  have hrec : j.recordScenario u = (j.progress, none) := by
    rcases recordScenario_cases u j with
      ⟨before, p, after, hps, -, hp, -⟩ | ⟨-, hne, -⟩ | ⟨-, hrec⟩
    · refine absurd (.inr ?_) hu
      rw [hps, ← hp]
      exact List.mem_map.mpr ⟨p, List.mem_append_right _ List.mem_cons_self, rfl⟩
    · exact absurd (.inl hne) hu
    · exact hrec
  rw [progress_update, passed_update, failed_update, hrec]
  exact ⟨rfl, rfl, rfl⟩

theorem markScenario_append {before after : List ScenarioProgress} {p : ScenarioProgress}
    (hnot : u.scenario ∉ names before) (hp : p.scenario = u.scenario) :
    markScenario u (before ++ p :: after) =
      some (p.status, before ++ { p with status := u.status, runID := u.runID } :: after) := by
  induction before with
  | nil =>
    show markScenario u (p :: after) = _
    rw [markScenario, if_pos hp]
    rfl
  | cons q before ih =>
    obtain ⟨hq, hrest⟩ := not_or.mp (fun h => hnot (List.mem_cons.mpr h))
    show markScenario u (q :: (before ++ p :: after)) = _
    rw [markScenario, if_neg (Ne.symm hq), ih hrest]
    rfl

theorem recordScenario_again {j' : TriggerJob} (h : j'.progress = (j.recordScenario u).1) :
    j'.recordScenario u =
      (j'.progress, if u.Names j.progress then some (progressStatusCounts u.status) else none) := by
  rcases recordScenario_cases u j with
    ⟨before, p, after, hps, hnot, hp, hrec⟩ | ⟨hnot, hne, hrec⟩ | ⟨hnames, hrec⟩
  · have hnames : u.Names j.progress := by
      right
      rw [hps, ← hp]
      exact List.mem_map.mpr ⟨p, List.mem_append_right _ List.mem_cons_self, rfl⟩
    replace h : j'.progress =
        before ++ { p with status := u.status, runID := u.runID } :: after := by rw [h, hrec]
    have hnew : ({ p with status := u.status, runID := u.runID } : ScenarioProgress).scenario =
        u.scenario := hp
    rw [if_pos hnames, TriggerJob.recordScenario, h, markScenario_append hnot hnew]
  · replace h : j'.progress = j.progress ++ [⟨u.scenario, u.status, u.runID⟩] := by rw [h, hrec]
    rw [if_pos (.inl hne), TriggerJob.recordScenario, h, markScenario_append hnot rfl]
  · replace h : j'.progress = j.progress := by rw [h, hrec]
    have hnone : markScenario u j.progress = none := by
      rcases markScenario_eq u j.progress with ⟨hnone, -⟩ | ⟨before, p, after, hps, -, hp, -⟩
      · exact hnone
      · refine absurd (.inr ?_) hnames
        rw [hps, ← hp]
        exact List.mem_map.mpr ⟨p, List.mem_append_right _ List.mem_cons_self, rfl⟩
    have hempty : u.scenario = "" := not_not.mp (not_or.mp hnames).1
    rw [if_neg hnames, TriggerJob.recordScenario, h, hnone]
    simp [hempty]

theorem recordRun_again {j' : TriggerJob} (h : j'.runIDs = j.recordRun u) :
    j'.recordRun u = j'.runIDs := by
  rw [TriggerJob.recordRun, h, if_neg]
  rintro ⟨hne, hnot⟩
  apply hnot
  rw [TriggerJob.recordRun]
  split
  · exact List.mem_append_right _ List.mem_cons_self
  · rename_i hin
    by_contra hnew
    exact hin ⟨hne, hnew⟩

theorem conclude_again {c : String} (hc : j.completed < j.total → c = j.currentScenario) :
    TriggerJob.conclude { j.conclude with currentScenario := c } = j.conclude := by
  by_cases h : j.completed ≥ j.total
  · simp [TriggerJob.conclude, h]
  · rw [hc (by omega)]
    simp [TriggerJob.conclude, h]

/-- **An update that comes twice counts once.** -/
theorem update_update (u : ProgressUpdate) (j : TriggerJob) :
    (j.update u).update u = j.update u := by
  have hcounts : (j.update u).recount u ((j.update u).recordScenario u).2 =
      ((j.update u).passed, (j.update u).failed) := by
    rw [recordScenario_again progress_update]
    by_cases hnames : u.Names j.progress
    · have hpassed : 0 ≤ (j.update u).passed := by
        rw [passed_update, recordScenario_old hnames]
        exact adjust_nonneg _ _ _
      have hfailed : 0 ≤ (j.update u).failed := by
        rw [failed_update, recordScenario_old hnames]
        exact adjust_nonneg _ _ _
      rw [if_pos hnames]
      show (TriggerJob.adjust _ (passedCount u.status) (passedCount u.status),
        TriggerJob.adjust _ (failedCount u.status) (failedCount u.status)) = _
      rw [adjust_self _ hpassed, adjust_self _ hfailed]
    · rw [if_neg hnames]
      show ((j.update u).passed, if u.status = .error ∧ (j.update u).failed = 0 then 1 else _) = _
      rw [if_neg]
      rintro ⟨herror, hzero⟩
      rw [(update_of_not_names hnames).2.2] at hzero
      split at hzero
      · cases hzero
      · rename_i hfirst
        exact hfirst ⟨herror, hzero⟩
  conv_lhs => rw [TriggerJob.update]
  rw [hcounts, recordScenario_again progress_update, recordRun_again runIDs_update]
  -- what is left are the totals, which are the message's, and the current scenario
  show TriggerJob.conclude { j.update u with
    completed := u.completed, total := u.total,
    currentScenario :=
      if u.status = .running then u.scenario else (j.update u).currentScenario } = _
  rw [← completed_update (u := u) (j := j), ← total_update (u := u) (j := j)]
  apply conclude_again
  intro hlt
  by_cases hrunning : u.status = .running
  · rw [if_pos hrunning, if_pos hrunning]
  · rw [if_neg hrunning, if_neg hrunning, TriggerJob.update, TriggerJob.conclude, if_neg]
    · exact if_neg hrunning
    · exact not_le.mpr hlt

end Update

/-! ### Sequences of updates -/

/-- A job as a trigger makes it: its scenarios are pending, each has one entry, and nothing is
counted.
Source: `internal/benchsvc/trigger_handler.go` `enqueueRunnerTrigger`, `startTriggerRequest` -/
structure TriggerJob.New (j : TriggerJob) : Prop where
  pending : ∀ p ∈ j.progress, p.status = .pending
  distinct : (names j.progress).Nodup
  passed : j.passed = 0
  failed : j.failed = 0

/-- The store after an update, which does nothing if the job is not there.
Source: `TriggerStore.Update` -/
def TriggerStore.apply (s : TriggerStore) (u : ProgressUpdate) : TriggerStore := (s.update u).getD s

/-- The job after those of the updates that are for it. -/
def TriggerJob.after (j : TriggerJob) (us : List ProgressUpdate) : TriggerJob :=
  (us.filter (·.jobID = j.id)).foldl (fun j u => j.update u) j

/-- An error that names no scenario came for the job while no scenario had failed.
Source: `TriggerStore.Update` -/
def Stray (j : TriggerJob) (us : List ProgressUpdate) : Prop :=
  ∃ before u after, us = before ++ u :: after ∧ u.jobID = j.id ∧ u.status = .error ∧
    ¬ u.Names j.progress ∧ tally failedCount (j.after before).progress = 0

section Sequences

variable {s : TriggerStore} {j : TriggerJob} {u : ProgressUpdate} {us : List ProgressUpdate}

theorem after_concat : j.after (us ++ [u]) =
    if u.jobID = j.id then (j.after us).update u else j.after us := by
  rw [TriggerJob.after, List.filter_append, List.foldl_append]
  by_cases h : u.jobID = j.id
  · simp [h, TriggerJob.after]
  · simp [h, TriggerJob.after]

theorem get_apply {id : String} : (s.apply u).get id =
    if u.jobID = id then (s.get id).map (·.update u) else s.get id := by
  rw [TriggerStore.apply]
  rcases hget : s.get u.jobID with _ | j
  · rw [TriggerStore.update_eq_none.mpr hget]
    split
    · rename_i hid
      subst hid
      rw [hget]
      exact hget
    · rfl
  · rw [TriggerStore.update_of_get hget]
    split
    · rename_i hid
      subst hid
      rw [hget]
      exact Function.update_self _ _ _
    · rename_i hid
      exact Function.update_of_ne (Ne.symm hid) _ _

theorem get_foldl_apply (s : TriggerStore) (j : TriggerJob) (us : List ProgressUpdate) :
    (us.foldl TriggerStore.apply (s.create j)).get j.id = some (j.after us) := by
  induction us using List.reverseRecOn with
  | nil => exact Function.update_self _ _ _
  | append_singleton us u ih =>
    rw [List.foldl_append, List.foldl_cons, List.foldl_nil, get_apply, ih, after_concat]
    split <;> rfl

theorem apply_apply (s : TriggerStore) (u : ProgressUpdate) : (s.apply u).apply u = s.apply u := by
  apply TriggerStore.ext
  funext id
  rw [get_apply, get_apply]
  split
  · rw [Option.map_map]
    congr 1
    funext j
    exact update_update u j
  · rfl

theorem names_after (u : ProgressUpdate) (j : TriggerJob) (us : List ProgressUpdate) :
    u.Names (j.after us).progress ↔ u.Names j.progress := by
  by_cases hne : u.scenario = ""
  swap
  · exact iff_of_true (.inl hne) (.inl hne)
  induction us using List.reverseRecOn with
  | nil => exact Iff.rfl
  | append_singleton us v ih =>
    refine Iff.trans ?_ ih
    rw [after_concat]
    split
    swap
    · exact Iff.rfl
    rw [progress_update]
    rcases recordScenario_cases v (j.after us) with
      ⟨before, p, after, hps, -, -, hrec⟩ | ⟨-, hv, hrec⟩ | ⟨-, hrec⟩
    · rw [hrec, hps, ProgressUpdate.Names, ProgressUpdate.Names, names_append, names_append]
      exact Iff.rfl
    · rw [hrec, ProgressUpdate.Names, ProgressUpdate.Names, names_append, hne, List.mem_append]
      have hnew : "" ∉ names [⟨v.scenario, v.status, v.runID⟩] :=
        fun hmem => hv (List.mem_singleton.mp hmem).symm
      simp [hnew]
    · rw [hrec]

theorem stray_concat : Stray j (us ++ [u]) ↔ Stray j us ∨ u.jobID = j.id ∧ u.status = .error ∧
    ¬ u.Names j.progress ∧ tally failedCount (j.after us).progress = 0 := by
  constructor
  · rintro ⟨before, v, after, hsplit, hv⟩
    rcases List.eq_nil_or_concat' after with rfl | ⟨after, x, rfl⟩
    · obtain ⟨rfl, hvu⟩ := List.append_inj' hsplit rfl
      obtain rfl := List.singleton_injective hvu
      exact .inr hv
    · rw [← List.cons_append, ← List.append_assoc] at hsplit
      obtain ⟨rfl, -⟩ := List.append_inj' hsplit rfl
      exact .inl ⟨before, v, after, rfl, hv⟩
  · rintro (⟨before, v, after, rfl, hv⟩ | hu)
    · exact ⟨before, v, after ++ [u], by simp, hv⟩
    · exact ⟨us, u, [], rfl, hu⟩

theorem counters_after (h : j.New) (us : List ProgressUpdate) :
    (names (j.after us).progress).Nodup ∧
      (j.after us).passed = tally passedCount (j.after us).progress ∧
      (¬ Stray j us → (j.after us).failed = tally failedCount (j.after us).progress) ∧
      (Stray j us → (j.after us).failed = tally failedCount (j.after us).progress + 1) := by
  induction us using List.reverseRecOn with
  | nil =>
    have hpending : ∀ w : Status → Int, w .pending = 0 → tally w j.progress = 0 := by
      intro w hw
      apply List.sum_eq_zero
      intro x hx
      obtain ⟨p, hp, rfl⟩ := List.mem_map.mp hx
      rw [h.pending p hp, hw]
    refine ⟨h.distinct, ?_, fun _ => ?_, ?_⟩
    · show j.passed = tally passedCount j.progress
      rw [h.passed, hpending _ (by decide)]
    · show j.failed = tally failedCount j.progress
      rw [h.failed, hpending _ (by decide)]
    · rintro ⟨before, u, after, hsplit, -⟩
      simp at hsplit
  | append_singleton us u ih =>
    obtain ⟨hdistinct, hpassed, hclean, hstray⟩ := ih
    rw [after_concat, stray_concat]
    by_cases hid : u.jobID = j.id
    swap
    · rw [if_neg hid]
      refine ⟨hdistinct, hpassed, fun hnot => hclean fun hs => hnot (.inl hs), ?_⟩
      rintro (hs | ⟨hid', -⟩)
      · exact hstray hs
      · exact absurd hid' hid
    rw [if_pos hid]
    have hnodup : (names ((j.after us).update u).progress).Nodup := by
      rw [progress_update]
      exact nodup_recordScenario hdistinct
    refine ⟨hnodup, ?_⟩
    by_cases hnames : u.Names (j.after us).progress
    · -- a message about a scenario: both counters keep what they have too much
      obtain ⟨hp, hf⟩ := excess_update hnames
      have hold : Stray j us ∨ (u.jobID = j.id ∧ u.status = .error ∧ ¬ u.Names j.progress ∧
          tally failedCount (j.after us).progress = 0) ↔ Stray j us := by
        refine ⟨?_, .inl⟩
        rintro (hs | ⟨-, -, hnot, -⟩)
        · exact hs
        · exact absurd ((names_after u j us).mp hnames) hnot
      rw [hold]
      specialize hp (by omega)
      refine ⟨by omega, fun hs => ?_, fun hs => ?_⟩
      · have := hclean hs
        specialize hf (by omega)
        omega
      · have := hstray hs
        specialize hf (by omega)
        omega
    · obtain ⟨hprogress, hpassed', hfailed'⟩ := update_of_not_names hnames
      rw [hprogress, hpassed', hfailed']
      have hnot := mt (names_after u j us).mpr hnames
      have hpos : 0 ≤ tally failedCount (j.after us).progress := tally_nonneg failedCount_nonneg
      refine ⟨hpassed, fun hs => ?_, fun hs => ?_⟩
      · obtain ⟨hs, hlast⟩ := not_or.mp hs
        have := hclean hs
        rw [if_neg, this]
        rintro ⟨herror, hzero⟩
        exact hlast ⟨hid, herror, hnot, by omega⟩
      · by_cases hs' : Stray j us
        · have := hstray hs'
          rw [if_neg (by omega), this]
        · obtain ⟨-, herror, -, hzero⟩ := hs.resolve_left hs'
          have := hclean hs'
          rw [if_pos ⟨herror, by omega⟩, hzero]
          rfl

end Sequences

theorem tally_eq_countP {w : Status → Int} {q : Status → Prop} [DecidablePred q]
    (hw : ∀ s, w s = if q s then 1 else 0) (ps : List ScenarioProgress) :
    tally w ps = ps.countP fun p => q p.status := by
  induction ps with
  | nil => rfl
  | cons p ps ih =>
    rw [tally_cons, ih, hw, List.countP_cons]
    by_cases hq : q p.status
    · simp only [hq, if_true, decide_true]
      omega
    · simp only [hq, if_false, decide_false, Bool.false_eq_true]
      omega

/-- **The counters of a trigger job.** Over every sequence of updates that follows the creation of a
job with distinct pending scenarios, the passed counter is the number of passed entries; the failed
counter is the number of failed or erroneous ones, or one more once an error that names no scenario
came while there was none; no scenario has two entries; and an update that comes again right after
itself changes nothing.
Source: `TriggerStore.Update` -/
theorem counters_match (s : TriggerStore) {j : TriggerJob} (h : j.New) (us : List ProgressUpdate) :
    ∃ j', (us.foldl TriggerStore.apply (s.create j)).get j.id = some j' ∧
      j'.passed = j'.progress.countP (fun p => p.status = .passed) ∧
      (¬ Stray j us →
        j'.failed = j'.progress.countP fun p => p.status = .failed ∨ p.status = .error) ∧
      (Stray j us →
        j'.failed = j'.progress.countP (fun p => p.status = .failed ∨ p.status = .error) + 1) ∧
      (j'.progress.map (·.scenario)).Nodup ∧
      ∀ u, ((us.foldl TriggerStore.apply (s.create j)).apply u).apply u =
        (us.foldl TriggerStore.apply (s.create j)).apply u := by
  obtain ⟨hdistinct, hpassed, hclean, hstray⟩ := counters_after h us
  rw [tally_eq_countP passedCount_eq] at hpassed
  rw [tally_eq_countP failedCount_eq] at hclean hstray
  exact ⟨_, get_foldl_apply s j us, hpassed, hclean, hstray, hdistinct, fun u => apply_apply _ u⟩

def onePending : TriggerJob :=
  ⟨"j", .pending, "m", "p", "provider", "", "", "", "", "", "", "", "", 1, 0, 0, 0, "", [],
    [⟨"s", .pending, ""⟩], 0⟩

/-- The scenario fails and then passes. -/
theorem counters_match_corrected :
    ∃ j', ([⟨"", "j", "s", .failed, "", 1, 1⟩, ⟨"", "j", "s", .passed, "", 1, 1⟩].foldl
        TriggerStore.apply (TriggerStore.new.create onePending)).get "j" = some j' ∧
      j'.passed = j'.progress.countP (fun p => p.status = .passed) := by
  have hnew : onePending.New := ⟨by decide, by decide, rfl, rfl⟩
  obtain ⟨j', hj', hpassed, -⟩ := counters_match .new hnew
    [⟨"", "j", "s", .failed, "", 1, 1⟩, ⟨"", "j", "s", .passed, "", 1, 1⟩]
  exact ⟨j', hj', hpassed⟩

/-- The executor of the job cannot start: an error without a scenario counts as a failure that no
entry shows.
Source: `internal/benchsvc/trigger_handler.go` `startTriggerRequest` -/
theorem stray_error_counted :
    onePending.New ∧ ∃ j', ((TriggerStore.new.create onePending).apply
        ⟨"", "j", "", .error, "", 1, 1⟩).get "j" = some j' ∧ j'.failed = 1 ∧
      j'.progress.countP (fun p => p.status = .failed ∨ p.status = .error) = 0 :=
  ⟨⟨by decide, by decide, rfl, rfl⟩, _, rfl, rfl, rfl⟩

end EvidraBench.Benchsvc
