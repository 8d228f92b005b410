import EvidraBench.Orchestrator.Progress

/-!
# The end of a parallel run

`RunParallel` waits until `completed` has reached the number of jobs, stops the queue and returns
its counters. A worker that gets no workspace returns an error before it counts anything; the queue
tries again, and drops the job after `maxJobAttempts` attempts.

Results: `exact_of_returned`, `settles_of_workspaces`, `accounting_iff`.

Source: `pkg/orchestrator/orchestrator.go`
-/

namespace EvidraBench.Orchestrator

open EvidraBench.Lib

variable {c : Setup} {w : World} {s s' : State} {a : Act} {job : Nat} {old new : Status}
  {sh : Shared} {queue : List Nat}

/-! ### The caller -/

def Act.isCaller : Act → Bool
  | .poll => true
  | .stop => true
  | .stopTimeout => true
  | .cancel => true
  | _ => false

theorem isCaller_of_isWorker (h : a.isWorker = true) : a.isCaller = false := by
  cases a with
  | fetch => rfl
  | promote => rfl
  | work => rfl
  | _ => cases h

def Exact (c : Setup) (r : RunResult) : Prop :=
  r.completed = r.passed + r.failed + r.skipped ∧ (r.completed : ℤ) = r.total ∧
    r.total = c.scenarios.length * c.models.length * c.repeats

/-- `RunParallel` returns an exact result, or its context is done before. -/
def Settles (c : Setup) {w : World} (r : (runParallel c w).Run) : Prop :=
  ∃ i, (r.state i).main = .cancelled ∨ ∃ res, (r.state i).main = .returned res ∧ Exact c res

/-- `client.Stop` does not give up on a worker that is about to count the outcome of the run that
it has counted: the two steps are next to each other, and the timeout is half a minute. -/
def Prompt (c : Setup) {w : World} (r : (runParallel c w).Run) : Prop :=
  ∀ i, r.act i = .stopTimeout → ∀ j, ((r.state i).status j).isCounted = true →
    ((r.state i).status j).isBooked = true

/-- The caller has left its loop only if enough is counted, and what it returns is not more than
what is counted now. -/
def Left (c : Setup) (sh : Shared) : Main → Prop
  | .waiting => True
  | .stopping => c.total ≤ sh.completed
  | .returned r => r.total = c.total ∧ r.completed ≤ sh.completed ∧ c.total ≤ r.completed
  | .cancelled => True

theorem Left.mono {sh' : Shared} {m : Main} (h : Left c sh m)
    (hle : sh.completed ≤ sh'.completed) : Left c sh' m := by
  cases m with
  | waiting => trivial
  | stopping =>
      have htotal : c.total ≤ sh.completed := h
      have hgoal : c.total ≤ sh'.completed := by omega
      exact hgoal
  | returned r => exact ⟨h.1, h.2.1.trans hle, h.2.2⟩
  | cancelled => trivial

theorem CallerMoves.left {m : Main} (h : CallerMoves c s a m) (hs : Left c s.shared s.main) :
    Left c s.shared m := by
  cases h with
  | tick => exact hs
  | wait hmain h => exact hs
  | leave hmain h => exact h
  | stop hmain hidle =>
      rw [hmain] at hs
      exact ⟨rfl, le_rfl, hs⟩
  | stopTimeout hmain =>
      rw [hmain] at hs
      exact ⟨rfl, le_rfl, hs⟩
  | cancel hmain => trivial

theorem Moves.completed_le (h : Moves c w s job old new sh queue) :
    s.shared.completed ≤ sh.completed := by
  cases h with
  | complete => exact Nat.le_succ _
  | note => exact (note_frame _ _).1.ge
  | book => exact (completed_book _ _).ge
  | _ => exact le_rfl

theorem left_of_reach (h : (runParallel c w).Reach s) : Left c s.shared s.main := by
  refine h.invariant (I := fun s => Left c s.shared s.main) ?_ ?_
  · exact trivial
  · intro s s' a _ ih hs
    rcases step_cases hs with ⟨-, hcaller, heq⟩ | ⟨-, hmain, job, new, hmove, -⟩
    · have hshared : s'.shared = s.shared := by rw [heq]
      rw [hshared]
      exact hcaller.left ih
    · rw [hmain]
      exact ih.mono hmove.completed_le

/-- **Exact numbers.** If the caller leaves the queue when every run that is counted has its outcome
counted, the numbers add up. -/
theorem exact_of_stopping (h : (runParallel c w).Reach s) (htotal : 0 ≤ c.total)
    (hmain : s.main = .stopping)
    (hbooked : ∀ j, (s.status j).isCounted = true → (s.status j).isBooked = true) :
    Exact c (c.result s.shared) := by
  have hleft := left_of_reach h
  rw [hmain] at hleft
  have henough : c.total ≤ s.shared.completed := hleft
  have hjobs := length_jobs c
  rw [max_eq_left htotal] at hjobs
  have hcompleted := completed_eq h
  have houtcomes := booked_eq h
  have hle := count_le (c := c) (s := s) Status.isCounted
  have hsame : c.count s Status.isCounted = c.count s Status.isBooked := by
    refine Finset.sum_congr rfl fun j _ => congrArg Bool.toNat ?_
    exact Bool.eq_iff_iff.mpr ⟨hbooked j, isCounted_of_isBooked⟩
  refine ⟨?_, ?_, rfl⟩
  · change s.shared.completed = s.shared.outcomes
    omega
  · change (s.shared.completed : ℤ) = c.total
    omega

/-! ### Runs -/

variable {r : (runParallel c w).Run}

theorem exact_of_returned (htotal : 0 ≤ c.total) (hprompt : Prompt c r) :
    ∀ {i res}, (r.state i).main = .returned res → Exact c res
  | 0, res, h => by
      rw [r.start] at h
      cases h
  | i + 1, res, h => by
      have hs : step c w (r.state i) (r.act i) = some (r.state (i + 1)) := r.next i
      rcases step_cases hs with ⟨-, hcaller, heq⟩ | ⟨-, hmain, -⟩
      · rw [h] at hcaller
        generalize hm : Main.returned res = m at hcaller
        generalize hact : r.act i = a at hcaller
        cases hcaller with
        | tick => exact exact_of_returned htotal hprompt hm.symm
        | wait hmain _ => exact exact_of_returned htotal hprompt hm.symm
        | leave hmain _ => cases hm
        | stop hmain hidle =>
            obtain rfl := Main.returned.inj hm
            refine exact_of_stopping (r.reach i) htotal hmain fun j hcounted => ?_
            have hlt := lt_of_reach (r.reach i) (j := j) fun hdropped => by
              rw [hdropped] at hcounted
              cases hcounted
            have hnot := eq_false_of_count Status.isWorking hidle hlt
            rcases hstatus : (r.state i).status j with _ | ⟨k, p⟩ | _ | _ | _
            case done => rfl
            case working =>
              rw [hstatus] at hnot
              cases hnot
            all_goals
              rw [hstatus] at hcounted
              cases hcounted
        | stopTimeout hmain =>
            obtain rfl := Main.returned.inj hm
            exact exact_of_stopping (r.reach i) htotal hmain (hprompt i hact)
        | cancel hmain => cases hm
      · exact exact_of_returned htotal hprompt (hmain.symm.trans h)

theorem next_of_stopping (hs : step c w s a = some s') (hmain : s.main = .stopping) :
    (s'.main = .stopping ∧ a.isCaller = false) ∨ ∃ res, s'.main = .returned res := by
  rcases step_cases hs with ⟨-, hcaller, -⟩ | ⟨hworker, hsame, -⟩
  · generalize s'.main = m at hcaller
    cases hcaller with
    | tick => exact Or.inl ⟨hmain, rfl⟩
    | stop => exact Or.inr ⟨_, rfl⟩
    | stopTimeout => exact Or.inr ⟨_, rfl⟩
    | wait hwait _ => cases hmain.symm.trans hwait
    | leave hwait _ => cases hmain.symm.trans hwait
    | cancel hwait => cases hmain.symm.trans hwait
  · exact Or.inl ⟨hsame.trans hmain, isCaller_of_isWorker hworker⟩

theorem next_of_waiting (hs : step c w s a = some s') (hmain : s.main = .waiting)
    (henough : c.total ≤ s.shared.completed) :
    (s'.main = .waiting ∧ a.isCaller = false) ∨ s'.main = .stopping ∨ s'.main = .cancelled := by
  rcases step_cases hs with ⟨-, hcaller, -⟩ | ⟨hworker, hsame, -⟩
  · generalize s'.main = m at hcaller
    cases hcaller with
    | tick => exact Or.inl ⟨hmain, rfl⟩
    | wait _ hfew => omega
    | leave => exact Or.inr (Or.inl rfl)
    | cancel => exact Or.inr (Or.inr rfl)
    | stop hstop _ => cases hmain.symm.trans hstop
    | stopTimeout hstop => cases hmain.symm.trans hstop
  · exact Or.inl ⟨hsame.trans hmain, isCaller_of_isWorker hworker⟩

theorem completed_le_of_step (hs : step c w s a = some s') :
    s.shared.completed ≤ s'.shared.completed := by
  rcases step_cases hs with ⟨-, -, heq⟩ | ⟨-, -, job, new, hmove, -⟩
  · rw [heq]
  · exact hmove.completed_le

theorem not_stopping_of_fair (hfair : r.Fair fun a => a.isCaller = true)
    (hnever : ∀ i res, (r.state i).main ≠ .returned res) (i : ℕ) :
    (r.state i).main ≠ .stopping := by
  intro hstopping
  have hstay : ∀ j, i ≤ j → (r.state j).main = .stopping := by
    intro j hij
    refine r.persists (I := fun s => s.main = .stopping) hstopping ?_ hij
    intro k _ hk
    rcases next_of_stopping (r.next k) hk with ⟨hmain, -⟩ | ⟨res, hres⟩
    · exact hmain
    · exact absurd hres (hnever (k + 1) res)
  obtain ⟨j, hij, hact⟩ := hfair i fun j hij => by
    refine ⟨.stopTimeout, rfl, ?_⟩
    change step c w (r.state j) .stopTimeout ≠ none
    simp [step, hstay j hij]
  rcases next_of_stopping (r.next j) (hstay j hij) with ⟨-, hnot⟩ | ⟨res, hres⟩
  · rw [hact] at hnot
    cases hnot
  · exact hnever (j + 1) res hres

theorem completed_of_rest (h : (runParallel c w).Reach s) (hmain : s.main = .waiting)
    (hrest : ¬ (runParallel c w).Enabled (fun a => a.isWorker = true) s)
    (hws : ∀ j, j < c.jobs.length → ∃ i, i < maxJobAttempts ∧ w.workspace j i = true) :
    s.shared.completed = c.jobs.length := by
  rw [completed_eq h]
  have hall : ∀ j ∈ Finset.range c.jobs.length, (s.status j).isCounted.toNat = 1 := by
    intro j hj
    rcases quiet_of_not_enabled h hmain hrest (j := j) with hstatus | hstatus
    · rw [hstatus]
      rfl
    · have hfits := fits_of_reach h j (Finset.mem_range.mp hj)
      obtain ⟨i, hi, htrue⟩ := hws j (Finset.mem_range.mp hj)
      rw [hstatus] at hfits
      rw [hfits i hi] at htrue
      cases htrue
  rw [Setup.count, Finset.sum_congr rfl hall, Finset.sum_const, Finset.card_range, smul_eq_mul,
    mul_one]

/-- **Return.** If every job gets a workspace in one of its attempts, every fair run returns with
exact numbers. -/
theorem settles_of_workspaces (htotal : 0 ≤ c.total)
    (hws : ∀ j, j < c.jobs.length → ∃ i, i < maxJobAttempts ∧ w.workspace j i = true)
    (hworkers : r.Fair fun a => a.isWorker = true) (hcaller : r.Fair fun a => a.isCaller = true)
    (hprompt : Prompt c r) : Settles c r := by
  by_contra hnot
  have hnever : ∀ i res, (r.state i).main ≠ .returned res := by
    intro i res hres
    exact hnot ⟨i, Or.inr ⟨res, hres, exact_of_returned htotal hprompt hres⟩⟩
  have hstopping := not_stopping_of_fair hcaller hnever
  have hwaiting : ∀ i, (r.state i).main = .waiting := by
    intro i
    rcases hmain : (r.state i).main with _ | _ | res | _
    · rfl
    · exact absurd hmain (hstopping i)
    · exact absurd hmain (hnever i res)
    · exact absurd ⟨i, Or.inl hmain⟩ hnot
  obtain ⟨i, -, hrest⟩ := r.exists_rest (μ := c.left) hworkers
    (fun k ha => left_lt (r.reach k) (r.next k) ha) (fun k ha => left_le (r.next k) ha) 0
  have hcompleted := completed_of_rest (r.reach i) (hwaiting i) hrest hws
  have hjobs := length_jobs c
  rw [max_eq_left htotal] at hjobs
  have henough : ∀ j, i ≤ j → c.total ≤ (r.state j).shared.completed := by
    intro j hij
    refine r.persists (I := fun s => c.total ≤ s.shared.completed) (by omega) ?_ hij
    intro k _ hk
    have hle := completed_le_of_step (r.next k)
    omega
  -- the next time the caller looks, it leaves its loop
  obtain ⟨j, hij, hact⟩ := hcaller i fun j _ => by
    refine ⟨.poll, rfl, ?_⟩
    change step c w (r.state j) .poll ≠ none
    simp [step, hwaiting j]
  rcases next_of_waiting (r.next j) (hwaiting j) (henough j hij) with ⟨-, hno⟩ | hmain | hmain
  · rw [hact] at hno
    cases hno
  · exact hstopping (j + 1) hmain
  · exact hnot ⟨j + 1, Or.inl hmain⟩

/-- What is done in a diligent run: the queue and the workers come first, then the caller looks or
stops. -/
def Diligent (c : Setup) (w : World) (s : State) (a : Act) : Prop :=
  a.isWorker = true ∨
    ¬ (runParallel c w).Enabled (fun a => a.isWorker = true) s ∧ a ≠ .stopTimeout ∧ a ≠ .cancel ∧
      (s.main = .waiting ∨ s.main = .stopping → a.isCaller = true)

theorem exists_diligent (s : State) :
    ∃ a s', (runParallel c w).step s a = some s' ∧ Diligent c w s a := by
  by_cases hworkers : (runParallel c w).Enabled (fun a => a.isWorker = true) s
  · obtain ⟨a, ha, hstep⟩ := hworkers
    obtain ⟨s', hs'⟩ := Option.ne_none_iff_exists'.mp hstep
    exact ⟨a, s', hs', Or.inl ha⟩
  have hidle : c.count s Status.isWorking = 0 := by
    by_contra hworking
    exact hworkers (enabled_of_working hworking)
  rcases hmain : s.main with _ | _ | res | _
  · refine ⟨.poll, _, if_pos hmain, Or.inr ⟨hworkers, by simp, by simp, fun _ => rfl⟩⟩
  · refine ⟨.stop, _, if_pos ⟨hmain, hidle⟩, Or.inr ⟨hworkers, by simp, by simp, fun _ => rfl⟩⟩
  · refine ⟨.tick, s, rfl, Or.inr ⟨hworkers, by simp, by simp, fun h => ?_⟩⟩
    simp [hmain] at h
  · refine ⟨.tick, s, rfl, Or.inr ⟨hworkers, by simp, by simp, fun h => ?_⟩⟩
    simp [hmain] at h

theorem main_of_enabled (h : (runParallel c w).Enabled (fun a => a.isCaller = true) s) :
    s.main = .waiting ∨ s.main = .stopping := by
  obtain ⟨a, ha, hstep⟩ := h
  obtain ⟨s', hs'⟩ := Option.ne_none_iff_exists'.mp hstep
  rcases step_cases hs' with ⟨-, hcaller, -⟩ | ⟨hworker, -⟩
  · generalize s'.main = m at hcaller
    cases hcaller with
    | tick => cases ha
    | wait hmain _ => exact Or.inl hmain
    | leave hmain _ => exact Or.inl hmain
    | cancel hmain => exact Or.inl hmain
    | stop hmain _ => exact Or.inr hmain
    | stopTimeout hmain => exact Or.inr hmain
  · rw [isCaller_of_isWorker hworker] at ha
    cases ha

theorem exists_diligent_run (c : Setup) (w : World) :
    ∃ r : (runParallel c w).Run, (r.Fair fun a => a.isWorker = true) ∧
      (r.Fair fun a => a.isCaller = true) ∧ Prompt c r ∧ ∀ i, (r.state i).main ≠ .cancelled := by
  obtain ⟨r, hr⟩ := System.exists_run (S := runParallel c w) (Q := Diligent c w)
    fun s _ => exists_diligent s
  have hnot : ∀ i, r.act i ≠ .stopTimeout ∧ r.act i ≠ .cancel := by
    intro i
    rcases hr i with hworker | ⟨-, htimeout, hcancel, -⟩
    · constructor
      · intro h
        rw [h] at hworker
        cases hworker
      · intro h
        rw [h] at hworker
        cases hworker
    · exact ⟨htimeout, hcancel⟩
  have hworkers : r.Fair fun a => a.isWorker = true := by
    intro i henabled
    refine ⟨i, le_rfl, ?_⟩
    rcases hr i with hworker | ⟨hrest, -⟩
    · exact hworker
    · exact absurd (henabled i le_rfl) hrest
  refine ⟨r, hworkers, ?_, fun i hact => absurd hact (hnot i).1, ?_⟩
  · intro i henabled
    obtain ⟨j, hij, hrest⟩ := r.exists_rest (μ := c.left) hworkers
      (fun k ha => left_lt (r.reach k) (r.next k) ha) (fun k ha => left_le (r.next k) ha) i
    have hmain := main_of_enabled (henabled j hij)
    rcases hr j with hworker | ⟨-, -, -, hcaller⟩
    · refine absurd ⟨r.act j, hworker, ?_⟩ hrest
      rw [r.next j]
      exact Option.some_ne_none _
    · exact ⟨j, hij, hcaller hmain⟩
  · intro i
    induction i with
    | zero =>
        rw [r.start]
        exact fun h => by cases h
    | succ i ih =>
        intro hmain
        rcases step_cases (r.next i) with ⟨-, hcaller, -⟩ | ⟨-, hsame, -⟩
        · rw [hmain] at hcaller
          generalize hm : Main.cancelled = m at hcaller
          generalize hact : r.act i = a at hcaller
          cases hcaller with
          | tick => exact ih hm.symm
          | wait => exact ih hm.symm
          | cancel => exact (hnot i).2 hact
          | _ => cases hm
        · exact ih (hsame.symm.trans hmain)

/-! ### The result -/

theorem total_nonneg_iff (c : Setup) :
    0 ≤ c.total ↔ 0 ≤ c.repeats ∨ c.scenarios = [] ∨ c.models = [] := by
  constructor
  · intro h
    by_contra hnot
    push Not at hnot
    obtain ⟨hrepeats, hscenarios, hmodels⟩ := hnot
    have hpos : (0 : ℤ) < c.scenarios.length * c.models.length := by
      have hS := List.length_pos_iff.mpr hscenarios
      have hM := List.length_pos_iff.mpr hmodels
      positivity
    exact absurd (mul_neg_of_pos_of_neg hpos hrepeats) (not_lt.mpr h)
  · rintro (hrepeats | hscenarios | hmodels)
    · exact mul_nonneg (by positivity) hrepeats
    · simp [Setup.total, hscenarios]
    · simp [Setup.total, hmodels]

/-- **When a parallel run returns with exact numbers.** For every list of jobs and every behaviour
of the outside: every run that is fair to the workers and the caller returns with exact numbers (or
is cancelled), exactly when the number of repeats is not negative for something to repeat, and every
job gets a workspace in one of its attempts.
Source: `RunParallel` -/
theorem accounting_iff (c : Setup) (w : World) :
    (∀ r : (runParallel c w).Run, (r.Fair fun a => a.isWorker = true) →
        (r.Fair fun a => a.isCaller = true) → Prompt c r → Settles c r) ↔
      (0 ≤ c.repeats ∨ c.scenarios = [] ∨ c.models = []) ∧
        ∀ j, j < c.jobs.length → ∃ i, i < maxJobAttempts ∧ w.workspace j i = true := by
  rw [← total_nonneg_iff]
  constructor
  · intro hall
    obtain ⟨r, hworkers, hcaller, hprompt, hnever⟩ := exists_diligent_run c w
    obtain ⟨i, hcancelled | ⟨res, hmain, -, hcompleted, htotal'⟩⟩ :=
      hall r hworkers hcaller hprompt
    · exact absurd hcancelled (hnever i)
    have hleft := left_of_reach (r.reach i)
    rw [hmain] at hleft
    have hres : res.total = c.total := hleft.1
    have hle : res.completed ≤ (r.state i).shared.completed := hleft.2.1
    have hjobs := length_jobs c
    refine ⟨by omega, fun j hj => ?_⟩
    by_contra hws
    have hnone : ∀ i, i < maxJobAttempts → w.workspace j i = false := by
      intro i hi
      by_contra hne
      exact hws ⟨i, hi, Bool.eq_true_of_not_eq_false hne⟩
    have hlt := completed_lt (r.reach i) hj hnone
    omega
  · rintro ⟨hnonneg, hws⟩ r hworkers hcaller hprompt
    exact settles_of_workspaces hnonneg hws hworkers hcaller hprompt

/-- **The caller waits for ever.** The only job gets no workspace, is dropped after two attempts and
never counted.
Source: `RunParallel` -/
theorem never_returns :
    ∃ r : (runParallel (twoWorkers ["a"]) barren).Run, (r.Fair fun a => a.isWorker = true) ∧
      (r.Fair fun a => a.isCaller = true) ∧ Prompt (twoWorkers ["a"]) r ∧
      ∀ i, (r.state i).main = .waiting := by
  obtain ⟨r, hworkers, hcaller, hprompt, hnever⟩ :=
    exists_diligent_run (twoWorkers ["a"]) barren
  refine ⟨r, hworkers, hcaller, hprompt, fun i => ?_⟩
  have hlt : (r.state i).shared.completed < 1 :=
    completed_lt (r.reach i) (show 0 < (twoWorkers ["a"]).jobs.length by decide) fun _ _ => rfl
  have htotal : (twoWorkers ["a"]).total = 1 := by decide
  have hleft := left_of_reach (r.reach i)
  rcases hmain : (r.state i).main with _ | _ | res | _
  · rfl
  · rw [hmain] at hleft
    have henough : (twoWorkers ["a"]).total ≤ (r.state i).shared.completed := hleft
    omega
  · rw [hmain] at hleft
    have hle : res.completed ≤ (r.state i).shared.completed := hleft.2.1
    have henough : (twoWorkers ["a"]).total ≤ res.completed := hleft.2.2
    omega
  · exact absurd hmain (hnever i)

end EvidraBench.Orchestrator
