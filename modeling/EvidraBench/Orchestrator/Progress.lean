import EvidraBench.Orchestrator.Parallel

/-!
# Progress of a parallel run

What the workers have done and what is left for them to do.

Results: `completed_eq`, `booked_eq`, `fits_of_reach`, `left_lt`, `quiet_of_not_enabled`.

Source: `pkg/orchestrator/orchestrator.go`
-/

namespace EvidraBench.Orchestrator

open EvidraBench.Lib

variable {c : Setup} {w : World} {s s' : State} {a : Act} {job : Nat} {old new : Status}
  {sh : Shared} {queue : List Nat}

/-! ### What the counters count -/

/-- Jobs that `completed` counts. -/
def Status.isCounted : Status → Bool
  | .working _ .ended => true
  | .working _ .noted => true
  | .working _ .booked => true
  | .done => true
  | _ => false

def Status.isBooked : Status → Bool
  | .working _ .booked => true
  | .done => true
  | _ => false

theorem isCounted_of_isBooked {x : Status} (h : x.isBooked = true) : x.isCounted = true := by
  cases x with
  | working k p =>
      cases p with
      | booked => rfl
      | _ => cases h
  | done => rfl
  | _ => cases h

def Shared.outcomes (sh : Shared) : Nat := sh.passed + sh.failed + sh.skipped

theorem outcomes_book (o : ScenarioOutcome) (sh : Shared) :
    (book o sh).outcomes = sh.outcomes + 1 := by
  unfold book Shared.outcomes
  split_ifs
  · dsimp only
    omega
  · dsimp only
    omega
  · dsimp only
    omega

theorem note_frame (o : ScenarioOutcome) (sh : Shared) :
    (note o sh).completed = sh.completed ∧ (note o sh).outcomes = sh.outcomes := by
  unfold note
  split_ifs
  · exact ⟨rfl, rfl⟩
  · exact ⟨rfl, rfl⟩

theorem completed_book (o : ScenarioOutcome) (sh : Shared) :
    (book o sh).completed = sh.completed := by
  unfold book
  split_ifs
  · rfl
  · rfl
  · rfl

theorem Moves.completed (h : Moves c w s job old new sh queue) :
    sh.completed + old.isCounted.toNat = s.shared.completed + new.isCounted.toNat := by
  cases h with
  | fail hws =>
      rw [apply_retry Status.isCounted fun _ => rfl]
      rfl
  | note =>
      rw [(note_frame _ _).1]
      rfl
  | book =>
      rw [completed_book]
      rfl
  | _ => rfl

theorem Moves.outcomes (h : Moves c w s job old new sh queue) :
    sh.outcomes + old.isBooked.toNat = s.shared.outcomes + new.isBooked.toNat := by
  cases h with
  | fail hws =>
      rw [apply_retry Status.isBooked fun _ => rfl]
      rfl
  | note =>
      rw [(note_frame _ _).2]
      rfl
  | book =>
      rw [outcomes_book]
      rfl
  | _ => rfl

theorem count_eq_of_moves (value : Shared → Nat) {p : Status → Bool}
    (hstart : ∀ j, (p ((start c).status j)) = false) (hzero : value (start c).shared = 0)
    (hmoves : ∀ {s job old new sh queue}, Moves c w s job old new sh queue →
      value sh + (p old).toNat = value s.shared + (p new).toNat)
    (h : (runParallel c w).Reach s) : value s.shared = c.count s p := by
  refine h.invariant (I := fun s => value s.shared = c.count s p) ?_ ?_
  · refine hzero.trans (Finset.sum_eq_zero fun j _ => ?_).symm
    change (p ((start c).status j)).toNat = 0
    rw [hstart j]
    rfl
  · intro s s' a hreach ih hs
    rcases step_cases hs with ⟨-, -, heq⟩ | ⟨-, -, job, new, hmove, heq⟩
    · rw [heq]
      exact ih
    · have hupdate := count_update (lt_of_reach hreach hmove.ne_dropped) heq p
      have hvalue := hmoves hmove
      omega

theorem completed_eq (h : (runParallel c w).Reach s) :
    s.shared.completed = c.count s Status.isCounted := by
  refine count_eq_of_moves Shared.completed (fun j => ?_) rfl Moves.completed h
  rcases start_status_cases c j with hj | hj
  · rw [hj]
    rfl
  · rw [hj]
    rfl

theorem booked_eq (h : (runParallel c w).Reach s) :
    s.shared.outcomes = c.count s Status.isBooked := by
  refine count_eq_of_moves Shared.outcomes (fun j => ?_) rfl Moves.outcomes h
  rcases start_status_cases c j with hj | hj
  · rw [hj]
    rfl
  · rw [hj]
    rfl

/-! ### Attempts -/

/-- What the attempts of a job so far say about its workspaces. -/
def Fits (w : World) (job : Nat) : Status → Prop
  | .available k => k < maxJobAttempts ∧ ∀ i, i < k → w.workspace job i = false
  | .retryable k => k < maxJobAttempts ∧ ∀ i, i < k → w.workspace job i = false
  | .working k p => k < maxJobAttempts ∧ (p ≠ .start → w.workspace job k = true) ∧
      ∀ i, i < k → w.workspace job i = false
  | .dropped => ∀ i, i < maxJobAttempts → w.workspace job i = false
  | .done => ∃ i, i < maxJobAttempts ∧ w.workspace job i = true

theorem fits_retry {k : Nat} (hws : w.workspace job k = false)
    (hbefore : ∀ i, i < k → w.workspace job i = false) : Fits w job (retry k) := by
  have hall : ∀ i, i < k + 1 → w.workspace job i = false := by
    intro i hi
    rcases Nat.lt_succ_iff_lt_or_eq.mp hi with hlt | rfl
    · exact hbefore i hlt
    · exact hws
  rcases retry_cases k with ⟨heq, hlt⟩ | ⟨heq, hle⟩
  · rw [heq]
    exact ⟨hlt, hall⟩
  · rw [heq]
    intro i hi
    exact hall i (by omega)

theorem Moves.fits (h : Moves c w s job old new sh queue) (hold : Fits w job old) :
    Fits w job new := by
  cases h with
  | fetch => exact ⟨hold.1, fun hne => absurd rfl hne, hold.2⟩
  | promote => exact hold
  | make hws => exact ⟨hold.1, fun _ => hws, hold.2.2⟩
  | fail hws => exact fits_retry hws hold.2.2
  | finish => exact ⟨_, hold.1, hold.2.1 (by simp)⟩
  | _ => exact ⟨hold.1, fun _ => hold.2.1 (by simp), hold.2.2⟩

theorem fits_of_reach (h : (runParallel c w).Reach s) (j : Nat) (hj : j < c.jobs.length) :
    Fits w j (s.status j) := by
  refine status_invariant (P := fun j x => j < c.jobs.length → Fits w j x) ?_ ?_ h j hj
  · intro j hj
    rw [status_start hj]
    exact ⟨by decide, fun i hi => absurd hi (Nat.not_lt_zero i)⟩
  · intro s job old new sh queue hmove ih hjob
    exact hmove.fits (ih hjob)

theorem workspace_of_isCounted {x : Status} (h : Fits w job x) (hx : x.isCounted = true) :
    ∃ i, i < maxJobAttempts ∧ w.workspace job i = true := by
  cases x with
  | working k p =>
      refine ⟨k, h.1, h.2.1 ?_⟩
      rintro rfl
      cases hx
  | done => exact h
  | _ => cases hx

theorem completed_lt (h : (runParallel c w).Reach s) (hjob : job < c.jobs.length)
    (hws : ∀ i, i < maxJobAttempts → w.workspace job i = false) :
    s.shared.completed < c.jobs.length := by
  have hnot : (s.status job).isCounted = false := by
    by_contra hcounted
    obtain ⟨i, hi, htrue⟩ := workspace_of_isCounted (fits_of_reach h job hjob)
      (Bool.eq_true_of_not_eq_false hcounted)
    rw [hws i hi] at htrue
    cases htrue
  rw [completed_eq h]
  exact count_lt Status.isCounted hjob hnot

/-! ### The work that is left -/

/-- What is left for a worker to do in an attempt. -/
def Phase.left : Phase → Nat
  | .start => 11
  | .made => 10
  | .locked => 9
  | .recreating => 8
  | .running _ => 7
  | .returned => 6
  | .ended => 5
  | .noted => 4
  | .booked => 3

def Status.left : Status → Nat
  | .available k => 12 * (maxJobAttempts - k)
  | .working k p => 12 * (maxJobAttempts - (k + 1)) + p.left
  | .retryable k => 12 * (maxJobAttempts - k) + 1
  | .dropped => 0
  | .done => 0

theorem Moves.left_lt (h : Moves c w s job old new sh queue) (hold : Fits w job old) :
    new.left < old.left := by
  cases h with
  | fetch =>
      have hk := hold.1
      simp only [Status.left, Phase.left]
      omega
  | fail hws =>
      rename_i k
      rcases retry_cases k with ⟨heq, hlt⟩ | ⟨heq, -⟩
      · rw [heq]
        simp only [Status.left, Phase.left]
        omega
      · rw [heq]
        simp only [Status.left, Phase.left]
        omega
  | _ =>
      simp only [Status.left, Phase.left]
      omega

def Setup.left (c : Setup) (s : State) : Nat :=
  ∑ j ∈ Finset.range c.jobs.length, (s.status j).left

theorem left_lt (hreach : (runParallel c w).Reach s) (hs : step c w s a = some s')
    (ha : a.isWorker = true) : c.left s' < c.left s := by
  rcases step_cases hs with ⟨hnot, -⟩ | ⟨-, -, job, new, hmove, heq⟩
  · rw [ha] at hnot
    cases hnot
  · have hjob := lt_of_reach hreach hmove.ne_dropped
    have hlt := hmove.left_lt (fits_of_reach hreach job hjob)
    have hsum := sum_update (Finset.mem_range.mpr hjob) s.status new Status.left
    rw [← heq] at hsum
    unfold Setup.left
    omega

theorem left_le (hs : step c w s a = some s') (ha : a.isWorker ≠ true) :
    c.left s' ≤ c.left s := by
  rcases step_cases hs with ⟨-, -, heq⟩ | ⟨hworker, -⟩
  · rw [heq]
    exact le_rfl
  · exact absurd hworker ha

/-! ### Workers at rest -/

def Status.isAvailable : Status → Bool
  | .available _ => true
  | _ => false

theorem Moves.queue_cases (h : Moves c w s job old new sh queue) :
    (old.isAvailable = true ∧ new.isAvailable = false ∧ s.queue = job :: queue) ∨
      (old.isAvailable = false ∧ new.isAvailable = true ∧ queue = s.queue ++ [job]) ∨
      (old.isAvailable = false ∧ new.isAvailable = false ∧ queue = s.queue) := by
  cases h with
  | fetch hmain hqueue hroom => exact Or.inl ⟨rfl, rfl, hqueue⟩
  | promote => exact Or.inr (Or.inl ⟨rfl, rfl, rfl⟩)
  | fail hws =>
      exact Or.inr (Or.inr ⟨rfl, apply_retry Status.isAvailable (fun _ => rfl) _, rfl⟩)
  | _ => exact Or.inr (Or.inr ⟨rfl, rfl, rfl⟩)

theorem queue_spec (h : (runParallel c w).Reach s) :
    s.queue.Nodup ∧ ∀ j, j ∈ s.queue ↔ (s.status j).isAvailable = true := by
  refine h.invariant
    (I := fun s => s.queue.Nodup ∧ ∀ j, j ∈ s.queue ↔ (s.status j).isAvailable = true) ?_ ?_
  · refine ⟨List.nodup_range, fun j => List.mem_range.trans ⟨fun hj => ?_, fun hj => ?_⟩⟩
    · change ((start c).status j).isAvailable = true
      rw [status_start hj]
      rfl
    · by_contra hlen
      change ((start c).status j).isAvailable = true at hj
      rw [show (start c).status j = .dropped from if_neg hlen] at hj
      cases hj
  · intro s s' a _ ⟨hnodup, hmem⟩ hs
    rcases step_cases hs with ⟨-, -, heq⟩ | ⟨-, -, job, new, hmove, heq⟩
    · rw [heq]
      exact ⟨hnodup, hmem⟩
    have hother : ∀ j, j ≠ job → s'.status j = s.status j := by
      intro j hj
      rw [heq, Function.update_of_ne hj]
    have hself : s'.status job = new := by rw [heq, Function.update_self]
    rcases hmove.queue_cases with ⟨hold, hnew, hqueue⟩ | ⟨hold, hnew, hqueue⟩ | ⟨hold, hnew, hqueue⟩
    · rw [hqueue, List.nodup_cons] at hnodup
      refine ⟨hnodup.2, fun j => ?_⟩
      by_cases hj : j = job
      · subst hj
        rw [hself, hnew]
        exact iff_of_false hnodup.1 Bool.false_ne_true
      · rw [hother j hj, ← hmem, hqueue, List.mem_cons]
        exact ⟨Or.inr, fun h => h.resolve_left hj⟩
    · have hnot : job ∉ s.queue := by
        rw [hmem, hold]
        exact Bool.false_ne_true
      rw [hqueue]
      refine ⟨hnodup.append (List.nodup_singleton job) (by simpa using hnot), fun j => ?_⟩
      rw [List.mem_append, List.mem_singleton]
      by_cases hj : j = job
      · subst hj
        rw [hself, hnew]
        exact iff_of_true (Or.inr rfl) rfl
      · rw [hother j hj, ← hmem]
        exact ⟨fun h => h.resolve_right hj, Or.inl⟩
    · rw [hqueue]
      refine ⟨hnodup, fun j => ?_⟩
      by_cases hj : j = job
      · subst hj
        rw [hself, hnew, hmem, hold]
      · rw [hother j hj, hmem]

theorem advance_ne_none (c : Setup) (w : World) (job k : Nat) (sh : Shared) {free : Bool}
    {p : Phase} (h : free = true ∨ p ≠ .made) : advance c w free job k sh p ≠ none := by
  cases p with
  | made =>
      obtain rfl := h.resolve_right fun hne => hne rfl
      simp only [advance]
      split_ifs <;> simp
  | locked =>
      simp only [advance]
      split_ifs <;> simp
  | recreating =>
      simp only [advance]
      split <;> simp
  | _ => simp [advance]

theorem enabled_of_advance {k : Nat} {p : Phase} (hjob : s.status job = .working k p)
    (h : c.count s Status.holdsMutex = 0 ∨ p ≠ .made) :
    (runParallel c w).Enabled (fun a => a.isWorker = true) s := by
  have hfree : decide (c.count s Status.holdsMutex = 0) = true ∨ p ≠ .made := by
    simpa using h
  obtain ⟨⟨new, sh⟩, hadvance⟩ := Option.ne_none_iff_exists'.mp
    (advance_ne_none c w job k s.shared hfree)
  obtain ⟨s', hstep, -⟩ := exists_work hjob hadvance
  refine ⟨.work job, rfl, ?_⟩
  change step c w s (.work job) ≠ none
  rw [hstep]
  exact Option.some_ne_none _

/-- If any job is worked on, some worker can proceed: who waits for the mutex waits for one that
can. -/
theorem enabled_of_working (hworking : c.count s Status.isWorking ≠ 0) :
    (runParallel c w).Enabled (fun a => a.isWorker = true) s := by
  by_cases hfree : c.count s Status.holdsMutex = 0
  · obtain ⟨j, -, hj⟩ := Finset.exists_ne_zero_of_sum_ne_zero hworking
    rcases hstatus : s.status j with k | ⟨k, p⟩ | k | _ | _
    case working => exact enabled_of_advance hstatus (Or.inl hfree)
    all_goals
      rw [hstatus] at hj
      exact absurd rfl hj
  · obtain ⟨j, -, hj⟩ := Finset.exists_ne_zero_of_sum_ne_zero hfree
    rcases hstatus : s.status j with k | ⟨k, p⟩ | k | _ | _
    case working =>
      refine enabled_of_advance hstatus (Or.inr ?_)
      rintro rfl
      rw [hstatus] at hj
      exact hj rfl
    all_goals
      rw [hstatus] at hj
      exact absurd rfl hj

theorem quiet_of_not_enabled (h : (runParallel c w).Reach s) (hmain : s.main = .waiting)
    (hrest : ¬ (runParallel c w).Enabled (fun a => a.isWorker = true) s) {j : Nat} :
    s.status j = .done ∨ s.status j = .dropped := by
  have hidle : c.count s Status.isWorking = 0 := by
    by_contra hworking
    exact hrest (enabled_of_working hworking)
  rcases hstatus : s.status j with k | ⟨k, p⟩ | k | _ | _
  · -- the oldest available job could be taken
    obtain ⟨-, hmem⟩ := queue_spec h
    have hj : j ∈ s.queue := by
      rw [hmem, hstatus]
      rfl
    rcases hqueue : s.queue with _ | ⟨first, rest⟩
    · rw [hqueue] at hj
      cases hj
    have hfirst : (s.status first).isAvailable = true := by
      rw [← hmem, hqueue]
      exact List.mem_cons_self
    rcases hstatus' : s.status first with k' | _ | _ | _ | _
    case available =>
      have hroom : c.count s Status.isWorking < c.parallel := hidle ▸ c.parallel_pos
      obtain ⟨s', hstep, -⟩ := exists_fetch (w := w) hmain hqueue hstatus' hroom
      refine absurd ⟨.fetch, rfl, ?_⟩ hrest
      change step c w s .fetch ≠ none
      rw [hstep]
      exact Option.some_ne_none _
    all_goals
      rw [hstatus'] at hfirst
      cases hfirst
  · have hj := lt_of_reach h (j := j) (by simp [hstatus])
    have hnot := eq_false_of_count Status.isWorking hidle hj
    rw [hstatus] at hnot
    cases hnot
  · refine absurd ⟨.promote j, rfl, ?_⟩ hrest
    change step c w s (.promote j) ≠ none
    simp [step, hstatus]
  · exact Or.inr rfl
  · exact Or.inl rfl

end EvidraBench.Orchestrator
