import EvidraBench.Benchsvc.Jobs

/-!
# The lifecycle of a job row

A row is queued, claimed, running and then completed or failed. Two promises are made about it: what
is finished stays as it is, and what its runner has abandoned goes back into the queue. Both are
read here over whole histories of the table.

Results: `finished_rows_kept_iff`, `abandoned_rows_requeued_iff`, `claim_exclusive`.

Source: `internal/benchsvc/queries_runners.go`
-/

namespace EvidraBench.Benchsvc

open EvidraBench.Lib

def after (cs : List Statement) : Jobs := cs.foldl Jobs.step .empty

section History

variable {cs : List Statement} {c : Statement} {i : ℕ}

theorem after_take_succ (h : cs[i]? = some c) :
    after (cs.take (i + 1)) = (after (cs.take i)).step c := by
  rw [List.take_add_one, h, Option.toList_some, after, List.foldl_append]
  rfl

theorem reach_after (cs : List Statement) : Jobs.system.Reach (after cs) := by
  induction cs using List.reverseRecOn with
  | nil => exact .init
  | append_singleton cs c ih =>
    refine ih.step (a := c) ?_
    rw [after, after, List.foldl_append]
    rfl

end History

/-! ### Finished rows -/

/-- What must not change any more: the status, the counters and the owner. -/
def BenchJob.outcome (r : BenchJob) : Status × (Int × Int × Int × Int) × Option String :=
  (r.status, (r.total, r.completed, r.passed, r.failed), r.infraID)

def KeepsFinished (t t' : Jobs) : Prop :=
  ∀ id r, t.find id = some r → r.status.Terminal →
    ∃ r', t'.find id = some r' ∧ r'.outcome = r.outcome

/-- The owner of a finished job completes it again, with another result. -/
def Revises (t : Jobs) : Statement → Prop
  | .completeJob tenant runner job status passed failed _ _ =>
      (FitsInteger passed ∧ FitsInteger failed ∧ FitsInteger (passed + failed)) ∧
      ∃ r, t.find job = some r ∧ r.OwnedBy tenant runner job ∧ r.status.Terminal ∧
        (status, passed, failed) ≠ (r.status, r.passed, r.failed)
  | _ => False

section Finished

variable {t t' t'' : Jobs} {c : Statement} {cs : List Statement}

theorem KeepsFinished.refl (t : Jobs) : KeepsFinished t t :=
  fun _ r hr _ => ⟨r, hr, rfl⟩

theorem KeepsFinished.trans (h : KeepsFinished t t') (h' : KeepsFinished t' t'') :
    KeepsFinished t t'' := by
  intro id r hr hterm
  obtain ⟨r', hr', hout⟩ := h id r hr hterm
  have hstatus : r'.status = r.status := congrArg Prod.fst hout
  obtain ⟨r'', hr'', hout'⟩ := h' id r' hr' (hstatus ▸ hterm)
  exact ⟨r'', hr'', hout'.trans hout⟩

theorem find_completeJob {tenant runner job message : String} {status : Status}
    {passed failed now : Int} {r : BenchJob}
    (hfits : FitsInteger passed ∧ FitsInteger failed ∧ FitsInteger (passed + failed))
    (hr : t.find job = some r) (howned : r.OwnedBy tenant runner job) :
    (t.step (.completeJob tenant runner job status passed failed message now)).find job =
      some (r.finish status passed failed message now) := by
  have hany : t.rows.any (fun r => r.OwnedBy tenant runner job) = true :=
    List.any_eq_true.mpr ⟨r, (Table.find_eq_some.mp hr).1, decide_eq_true howned⟩
  rw [Jobs.step, Jobs.completeJob, if_neg (not_not.mpr ⟨hfits.1, hfits.2.1⟩),
    if_neg (not_not.mpr hany), if_neg (not_not.mpr hfits.2.2), Except.toOption, Option.getD_some,
    Table.find_update, hr, Option.map_some, if_pos (decide_eq_true howned)]

/-- **What a statement does to finished rows.** The claim, the progress report and the janitor ask
for a status that no finished row has; the completing statement does not. -/
theorem keepsFinished_step_iff (h : Jobs.system.Reach t) :
    KeepsFinished t (t.step c) ↔ ¬ Revises t c := by
  constructor
  · intro hkeeps hrevises
    cases c with
    | completeJob tenant runner job status passed failed message now =>
      obtain ⟨hfits, r, hr, howned, hterm, hne⟩ := hrevises
      obtain ⟨r', hr', hout⟩ := hkeeps job r hr hterm
      rw [find_completeJob hfits hr howned] at hr'
      obtain rfl := Option.some.inj hr'
      apply hne
      injection hout with hstatus hrest
      injection hrest with hcounts _
      injection hcounts with _ hcounts
      injection hcounts with _ hcounts
      injection hcounts with hpassed hfailed
      exact Prod.ext hstatus (Prod.ext hpassed hfailed)
    | _ => exact hrevises
  · intro hrevises id r hr hterm
    obtain ⟨r', hr', rfl | hchange⟩ := exists_find_step (c := c) hr
    · exact ⟨r', hr', rfl⟩
    · refine ⟨r', hr', ?_⟩
      cases hchange with
      | claim hclaim => exact absurd hclaim.2.1 hterm.ne_queued
      | report hfits hid hheld => exact absurd hheld hterm.not_held
      | requeue hstale => exact absurd (.inl hstale.1) hterm.not_held
      | @finish tenant runner job message status passed failed now _ hfits howned =>
        have hjob : t.find job = some r := by
          rw [← howned.1, (Table.find_eq_some.mp hr).2, hr]
        have hsame : (status, passed, failed) = (r.status, r.passed, r.failed) := by
          by_contra hne
          exact hrevises ⟨hfits, r, hjob, howned, hterm, hne⟩
        injection hsame with hstatus hcounts
        injection hcounts with hpassed hfailed
        have hcompleted := (sound_of_reach h hr).counted hterm
        rw [BenchJob.outcome, BenchJob.outcome, BenchJob.finish, hcompleted, hstatus, hpassed,
          hfailed]

/-- **Finished rows over a history.** Once a row is finished, nothing later in the history changes
its status, its counters or its owner, exactly if no statement of the history completes a finished
job again, as its owner, with another result.
Source: `CompleteJob` -/
theorem finished_rows_kept_iff (cs : List Statement) :
    (∀ i j, i ≤ j → KeepsFinished (after (cs.take i)) (after (cs.take j))) ↔
      ∀ i c, cs[i]? = some c → ¬ Revises (after (cs.take i)) c := by
  constructor
  · intro hkeeps i c hc
    have hstep := hkeeps i (i + 1) (by omega)
    rw [after_take_succ hc] at hstep
    exact (keepsFinished_step_iff (reach_after _)).mp hstep
  · intro hclean i j hij
    induction j, hij using Nat.le_induction with
    | base => exact .refl _
    | succ j hij ih =>
      refine ih.trans ?_
      rcases hc : cs[j]? with _ | c
      · -- the history is over
        have hlen := List.getElem?_eq_none_iff.mp hc
        rw [List.take_of_length_le hlen, List.take_of_length_le (by omega)]
        exact .refl _
      · rw [after_take_succ hc]
        exact (keepsFinished_step_iff (reach_after _)).mpr (hclean j c hc)

end Finished

/-- A job of one scenario is queued, claimed by runner `r` and completed; the completion is then
sent again with the opposite result. -/
def completedTwice : List Statement :=
  [ .enqueueJob "j" "t" "m" "p" ⟨["s"], 0, "", "", "", "", "", "", "", "", "", ""⟩ 0,
    .claimJob "t" "r" ["m"] [] 1,
    .completeJob "t" "r" "j" .completed 1 0 "" 2,
    .completeJob "t" "r" "j" .failed 0 1 "" 3 ]

/-- The finished row is rewritten. -/
theorem finished_row_rewritten :
    ∃ r r', (after (completedTwice.take 3)).find "j" = some r ∧ r.status.Terminal ∧
      (after completedTwice).find "j" = some r' ∧
      r.outcome = (.completed, (1, 1, 1, 0), some "r") ∧
      r'.outcome = (.failed, (1, 1, 0, 1), some "r") :=
  ⟨_, _, rfl, .inl rfl, rfl, rfl, rfl⟩

/-! ### Abandoned rows -/

def BenchJob.Silent (limit : Int) (r : BenchJob) : Prop := ∀ sign ∈ r.lastSign, sign < limit

section Abandoned

variable {t : Jobs} {threshold now limit : Int} {id : String} {r : BenchJob}

theorem find_resetStaleJobs :
    (t.resetStaleJobs threshold now).2.find id =
      (t.find id).map fun r => if r.Stale (now - threshold) then r.requeue else r := by
  rw [Jobs.resetStaleJobs, Table.find_update]
  simp only [decide_eq_true_eq]

/-- A claimed row without a sign of life since the limit is one the janitor takes: it has an
owner, so it has been started. -/
theorem stale_of_silent (hr : r.Sound) (hclaimed : r.status = .claimed) (h : r.Silent limit) :
    r.Stale limit := by
  refine ⟨hclaimed, ?_⟩
  have hstarted := hr.started (hr.owned (.inl hclaimed))
  obtain ⟨sign, hsign⟩ : ∃ sign, r.lastSign = some sign := by
    rw [BenchJob.lastSign]
    rcases r.lastProgressAt with _ | sign
    · exact Option.ne_none_iff_exists'.mp hstarted
    · exact ⟨sign, rfl⟩
  exact ⟨sign, hsign, h sign hsign⟩

/-- **Abandoned rows over every history.** After the janitor's statement no row is held without a
sign of life since the threshold, and each row that was is in the queue again without an owner,
exactly if no such row was running, that is, if its runner had not reported since it claimed it.
Source: `ResetStaleJobs`, `UpdateJobProgress` -/
theorem abandoned_rows_requeued_iff (cs : List Statement) (threshold now : Int) :
    ((∀ r ∈ (((after cs).resetStaleJobs threshold now).2).rows,
        r.status.Held → ¬ r.Silent (now - threshold)) ∧
      ∀ id r, (after cs).find id = some r → r.status.Held → r.Silent (now - threshold) →
        ∃ r', ((after cs).resetStaleJobs threshold now).2.find id = some r' ∧
          r'.status = .queued ∧ r'.infraID = none) ↔
      ∀ r ∈ (after cs).rows, r.status = .running → ¬ r.Silent (now - threshold) := by
  have hsound : ∀ {id r}, (after cs).find id = some r → r.Sound :=
    fun hr => sound_of_reach (reach_after cs) hr
  constructor
  · rintro ⟨hheld, -⟩ r hr hrunning
    -- the statement does not see a running row, so it is still there
    have hfind := Table.find_eq_some.mpr ⟨hr, rfl⟩
    have hkept : ((after cs).resetStaleJobs threshold now).2.find r.id = some r := by
      rw [find_resetStaleJobs, hfind, Option.map_some, if_neg]
      intro hstale
      exact absurd (hrunning.symm.trans hstale.1) (by decide)
    exact hheld r (Table.find_eq_some.mp hkept).1 (.inr hrunning)
  · intro hrunning
    have hclaimed : ∀ {id r}, (after cs).find id = some r → r.status.Held →
        r.Silent (now - threshold) → r.Stale (now - threshold) := by
      intro id r hr hheld hsilent
      rcases hheld with hclaimed | hrun
      · exact stale_of_silent (hsound hr) hclaimed hsilent
      · exact absurd hsilent (hrunning r (Table.find_eq_some.mp hr).1 hrun)
    constructor
    · intro r hr hheld hsilent
      have hfind := Table.find_eq_some.mpr ⟨hr, rfl⟩
      rw [find_resetStaleJobs] at hfind
      obtain ⟨r₀, hr₀, heq⟩ := Option.map_eq_some_iff.mp hfind
      split at heq
      · obtain rfl := heq
        exact absurd hheld (show ¬ Status.queued.Held by decide)
      · rename_i hfresh
        obtain rfl := heq
        exact hfresh (hclaimed hr₀ hheld hsilent)
    · intro id r hr hheld hsilent
      refine ⟨r.requeue, ?_, rfl, rfl⟩
      rw [find_resetStaleJobs, hr, Option.map_some, if_pos (hclaimed hr hheld hsilent)]

end Abandoned

/-- A job is queued, claimed by runner `r` and reported on once, within three seconds. -/
def reportedOnce : List Statement :=
  [ .enqueueJob "j" "t" "m" "p" ⟨["s", "u"], 0, "", "", "", "", "", "", "", "", "", ""⟩ 0,
    .claimJob "t" "r" ["m"] [] 1000000,
    .updateJobProgress "j" 1 1 0 2000000 ]

/-- An hour later the janitor, with its five minutes, leaves the job with the silent runner. -/
theorem abandoned_row_left :
    ∃ r, ((after reportedOnce).resetStaleJobs 300000000 3600000000).2.find "j" = some r ∧
      r.status = .running ∧ r.infraID = some "r" ∧ r.lastSign = some 2000000 ∧
      r.Silent (3600000000 - 300000000) := by
  refine ⟨_, rfl, rfl, rfl, rfl, ?_⟩
  intro sign hsign
  obtain rfl := Option.some.inj hsign
  decide

/-! ### Who holds a row -/

/-- The row that a statement hands to a runner.
Source: `ClaimJob` -/
def Jobs.handsOut (t : Jobs) : Statement → Option BenchJob
  | .claimJob tenant runner models locked now => (t.claimJob tenant runner models locked now).1
  | _ => none

/-- The statement puts a row back into the queue: the janitor finds it stale, or its owner
completes it with the status of a queued one, which the handler refuses. -/
inductive Reopens (t : Jobs) (job : String) : Statement → Prop
  | stale {r : BenchJob} {threshold now : Int} (hr : t.find job = some r)
      (hstale : r.Stale (now - threshold)) : Reopens t job (.resetStaleJobs threshold now)
  | queued {tenant runner : String} {passed failed : Int} {message : String} {now : Int} :
      Reopens t job (.completeJob tenant runner job .queued passed failed message now)

/-- Between two places of a history the row goes back into the queue. -/
def Reopened (cs : List Statement) (i j : ℕ) (job : String) : Prop :=
  ∃ k d, i < k ∧ k < j ∧ cs[k]? = some d ∧ Reopens (after (cs.take k)) job d

/-- The row is out of the queue, and the runner owns it. -/
def Jobs.HeldBy (t : Jobs) (job : String) (runner : Option String) : Prop :=
  ∃ r, t.find job = some r ∧ r.status ≠ .queued ∧ r.infraID = runner

section Held

variable {t : Jobs} {c : Statement} {r : BenchJob} {job : String} {runner : Option String}

theorem heldBy_of_handsOut (h : t.handsOut c = some r) :
    (t.step c).HeldBy r.id r.infraID ∧ ∃ r₀, t.find r.id = some r₀ ∧ r₀.status = .queued := by
  cases c with
  | claimJob tenant runner models locked now =>
    rw [Jobs.handsOut, Jobs.claimJob] at h
    rw [Jobs.step, Jobs.claimJob]
    rcases hnext : t.nextJob tenant runner models locked with _ | row
    · rw [hnext] at h
      cases h
    · rw [hnext] at h
      obtain rfl := Option.some.inj h
      obtain ⟨hrow, hclaim⟩ := claimable_of_nextJob hnext
      have hbusy : Status.claimed ≠ .queued := by decide
      refine ⟨⟨row.claim runner now, ?_, hbusy, rfl⟩, row, hrow, hclaim.2.1⟩
      show (t.update (fun r' => r'.id = row.id) (.claim runner now)
        (BenchJob.id_claim runner now)).find row.id = _
      simp [Table.find_update, hrow]
  | _ => cases h

theorem Jobs.HeldBy.step (h : t.HeldBy job runner) (hno : ¬ Reopens t job c) :
    (t.step c).HeldBy job runner := by
  obtain ⟨r, hr, hbusy, rfl⟩ := h
  obtain ⟨r', hr', rfl | hchange⟩ := exists_find_step (c := c) hr
  · exact ⟨r', hr', hbusy, rfl⟩
  refine ⟨r', hr', ?_⟩
  cases hchange with
  | claim hclaim => exact absurd hclaim.2.1 hbusy
  | report _ _ _ => exact ⟨show Status.running ≠ .queued by decide, rfl⟩
  | finish _ howned =>
    refine ⟨?_, rfl⟩
    rintro rfl
    obtain rfl := howned.1.symm.trans (Table.find_eq_some.mp hr).2
    exact hno .queued
  | requeue hstale => exact absurd (.stale hr hstale) hno

/-- **A job is with one runner at a time.** From the statement that hands a job out, its row is out
of the queue and owned by that runner for as long as nothing puts it back; so between two
statements that hand out the same job, something has.
Source: `ClaimJob`, `UpdateJobProgress`, `CompleteJob`, `ResetStaleJobs` -/
theorem claim_exclusive (cs : List Statement) {i : ℕ} (hi : cs[i]? = some c)
    (hr : (after (cs.take i)).handsOut c = some r) :
    (∀ j, i < j → ¬ Reopened cs i j r.id → (after (cs.take j)).HeldBy r.id r.infraID) ∧
    ∀ j c' r', i < j → cs[j]? = some c' → (after (cs.take j)).handsOut c' = some r' →
      r'.id = r.id → Reopened cs i j r.id := by
  have hheld : ∀ j, i < j → ¬ Reopened cs i j r.id →
      (after (cs.take j)).HeldBy r.id r.infraID := by
    intro j hij
    induction j, hij using Nat.le_induction with
    | base =>
      intro _
      rw [after_take_succ hi]
      exact (heldBy_of_handsOut hr).1
    | succ j hij ih =>
      intro hno
      have hbefore := ih fun ⟨k, d, hik, hkj, hd, hopen⟩ => hno ⟨k, d, hik, by omega, hd, hopen⟩
      rcases hc : cs[j]? with _ | d
      · have hlen := List.getElem?_eq_none_iff.mp hc
        rw [List.take_of_length_le (by omega)]
        rwa [List.take_of_length_le hlen] at hbefore
      · rw [after_take_succ hc]
        exact hbefore.step fun hopen => hno ⟨j, d, hij, by omega, hc, hopen⟩
  refine ⟨hheld, fun j c' r' hij hj hr' hsame => ?_⟩
  by_contra hno
  obtain ⟨r₁, hr₁, hbusy, -⟩ := hheld j hij hno
  obtain ⟨-, r₀, hr₀, hqueued⟩ := heldBy_of_handsOut hr'
  rw [hsame, hr₁] at hr₀
  obtain rfl := Option.some.inj hr₀
  exact hbusy hqueued

end Held

/-- A job is claimed, found stale and claimed by another runner. -/
def claimedTwice : List Statement :=
  completedTwice.take 2 ++ [.resetStaleJobs 5 10, .claimJob "t" "r'" ["m"] [] 11]

theorem claim_exclusive_stale : Reopened claimedTwice 1 3 "j" :=
  (claim_exclusive claimedTwice (i := 1) rfl rfl).2 3 _ _ (by decide) rfl rfl rfl

end EvidraBench.Benchsvc
