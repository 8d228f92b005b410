import EvidraBench.Orchestrator.Progress

/-!
# Recreating the cluster

A worker that finds the failure counter at its threshold calls `provider.Recreate` before it takes
its kubeconfig path, all under a mutex. The mutex is released before the run starts.

Results: `spaced_of_reach`, `recreation_iff`.

Source: `pkg/orchestrator/orchestrator.go`
-/

namespace EvidraBench.Orchestrator

open EvidraBench.Lib

variable {c : Setup} {w : World} {s s' : State} {a : Act} {job : Nat} {old new : Status}
  {sh : Shared} {queue : List Nat}

/-! ### The mutex -/

theorem holdsMutex_of_external (hprovider : c.provider = false)
    (h : (runParallel c w).Reach s) (j : Nat) : (s.status j).holdsMutex = false := by
  refine status_invariant (P := fun _ x => x.holdsMutex = false) ?_ ?_ h j
  · intro j
    rcases start_status_cases c j with hj | hj
    · rw [hj]
      rfl
    · rw [hj]
      rfl
  · intro s job old new sh queue hmove hold
    cases hmove with
    | fail => exact apply_retry Status.holdsMutex (fun _ => rfl) _
    | lock htrue => cases hprovider.symm.trans htrue
    | call => cases hold
    | _ => rfl

theorem Moves.holdsMutex_le (h : Moves c w s job old new sh queue) :
    new.holdsMutex = true → old.holdsMutex = true ∨ c.count s Status.holdsMutex < 1 := by
  intro hnew
  cases h with
  | lock _ hfree => exact Or.inr (by omega)
  | call => exact Or.inl rfl
  | fail =>
      rw [apply_retry Status.holdsMutex fun _ => rfl] at hnew
      cases hnew
  | _ => cases hnew

theorem holdsMutex_le_one (h : (runParallel c w).Reach s) : c.count s Status.holdsMutex ≤ 1 :=
  count_le_of_moves (fun _ => rfl) Moves.holdsMutex_le h

/-! ### Between two recreations -/

/-- At least that many failures since any recreation. -/
def Since (history : List Event) (n : Nat) : Prop :=
  ∀ later earlier, history = later ++ .recreated :: earlier → n ≤ later.count .infraFailure

/-- Any two recreations have enough failures between them. -/
def Spaced (history : List Event) : Prop :=
  ∀ later between earlier, history = later ++ .recreated :: (between ++ .recreated :: earlier) →
    infraFailureThreshold ≤ between.count .infraFailure

theorem Since.failure {history : List Event} {n : Nat} (h : Since history n) :
    Since (.infraFailure :: history) (n + 1) := by
  intro later earlier heq
  rcases later with _ | ⟨e, later⟩
  · cases heq
  · obtain ⟨rfl, rfl⟩ := List.cons.inj heq
    have hle := h later earlier rfl
    rw [List.count_cons_self]
    omega

theorem Since.mono {history : List Event} {m n : Nat} (h : Since history n) (hle : m ≤ n) :
    Since history m := by
  intro later earlier heq
  exact hle.trans (h later earlier heq)

theorem Spaced.failure {history : List Event} (h : Spaced history) :
    Spaced (.infraFailure :: history) := by
  intro later between earlier heq
  rcases later with _ | ⟨e, later⟩
  · cases heq
  · obtain ⟨rfl, rfl⟩ := List.cons.inj heq
    exact h later between earlier rfl

theorem Spaced.recreation {history : List Event} (h : Spaced history)
    (hsince : Since history infraFailureThreshold) : Spaced (.recreated :: history) := by
  intro later between earlier heq
  rcases later with _ | ⟨e, later⟩
  · obtain ⟨-, rfl⟩ := List.cons.inj heq
    exact hsince between earlier rfl
  · obtain ⟨rfl, rfl⟩ := List.cons.inj heq
    exact h later between earlier rfl

structure Recorded (s : State) : Prop where
  counter : Since s.shared.history s.shared.consecutiveInfraFailures
  recreating : ∀ j k, s.status j = .working k .recreating →
    Since s.shared.history infraFailureThreshold
  spaced : Spaced s.shared.history

theorem Moves.history_cases (h : Moves c w s job old new sh queue) :
    (old.holdsMutex = true ∧ (∃ k, old = .working k .recreating) ∧ new.holdsMutex = false ∧
        sh.history = .recreated :: s.shared.history ∧ sh.consecutiveInfraFailures = 0) ∨
      (new.holdsMutex = false ∧ sh.history = .infraFailure :: s.shared.history ∧
        sh.consecutiveInfraFailures = s.shared.consecutiveInfraFailures + 1) ∨
      (sh.history = s.shared.history ∧
        sh.consecutiveInfraFailures ≤ s.shared.consecutiveInfraFailures ∧
        ∀ k, new = .working k .recreating →
          infraFailureThreshold ≤ s.shared.consecutiveInfraFailures) := by
  cases h with
  | recreated => exact Or.inl ⟨rfl, ⟨_, rfl⟩, rfl, rfl, rfl⟩
  | note =>
      unfold Orchestrator.note
      split_ifs
      · exact Or.inr (Or.inl ⟨rfl, rfl, rfl⟩)
      · exact Or.inr (Or.inr ⟨rfl, Nat.zero_le _, fun k hk => by cases hk⟩)
  | book =>
      refine Or.inr (Or.inr ?_)
      unfold Orchestrator.book
      split_ifs
      · exact ⟨rfl, le_rfl, fun k hk => by cases hk⟩
      · exact ⟨rfl, le_rfl, fun k hk => by cases hk⟩
      · exact ⟨rfl, le_rfl, fun k hk => by cases hk⟩
  | call hcount => exact Or.inr (Or.inr ⟨rfl, le_rfl, fun _ _ => hcount⟩)
  | fail =>
      refine Or.inr (Or.inr ⟨rfl, le_rfl, fun k hk => ?_⟩)
      have hholds := congrArg Status.holdsMutex hk
      rw [apply_retry Status.holdsMutex fun _ => rfl] at hholds
      cases hholds
  | _ => exact Or.inr (Or.inr ⟨rfl, le_rfl, fun k hk => by cases hk⟩)

/-- A move keeps the record. The mutex is used where the cluster is recreated: nobody else is
about to recreate it on the strength of the failures before. -/
theorem Recorded.move (hs : Recorded s) (hreach : (runParallel c w).Reach s)
    (hmove : Moves c w s job (s.status job) new s'.shared s'.queue)
    (hstatus : s'.status = Function.update s.status job new) : Recorded s' := by
  have hjob := lt_of_reach hreach hmove.ne_dropped
  have hother : ∀ j k, j ≠ job → s'.status j = .working k .recreating →
      s.status j = .working k .recreating := by
    intro j k hj h
    rwa [hstatus, Function.update_of_ne hj] at h
  have hself : ∀ k, s'.status job = .working k .recreating → new = .working k .recreating := by
    intro k h
    rwa [hstatus, Function.update_self] at h
  rcases hmove.history_cases with ⟨hholds, ⟨k, hold⟩, hnew, hhistory, hcounter⟩ |
    ⟨hnew, hhistory, hcounter⟩ | ⟨hhistory, hcounter, hcall⟩
  · constructor
    · rw [hcounter]
      exact fun _ _ _ => Nat.zero_le _
    · intro j k' hj
      exfalso
      by_cases hne : j = job
      · subst hne
        rw [hself k' hj] at hnew
        cases hnew
      · have hrecreating := hother j k' hne hj
        have hj' := lt_of_reach hreach (j := j) (by simp [hrecreating])
        have htwo := two_le_count Status.holdsMutex hj' hjob hne (by rw [hrecreating]; rfl) hholds
        have hone := holdsMutex_le_one hreach
        omega
    · rw [hhistory]
      exact hs.spaced.recreation (hs.recreating job k hold)
  · constructor
    · rw [hhistory, hcounter]
      exact hs.counter.failure
    · intro j k hj
      rw [hhistory]
      by_cases hne : j = job
      · subst hne
        rw [hself k hj] at hnew
        cases hnew
      · exact (hs.recreating j k (hother j k hne hj)).failure.mono (Nat.le_succ _)
    · rw [hhistory]
      exact hs.spaced.failure
  · constructor
    · rw [hhistory]
      exact hs.counter.mono hcounter
    · intro j k hj
      rw [hhistory]
      by_cases hne : j = job
      · subst hne
        exact hs.counter.mono (hcall k (hself k hj))
      · exact hs.recreating j k (hother j k hne hj)
    · rw [hhistory]
      exact hs.spaced

/-- **Spacing.** In every run there are enough failures between any two recreations. -/
theorem spaced_of_reach (h : (runParallel c w).Reach s) : Spaced s.shared.history := by
  refine (h.invariant (I := Recorded) ?_ ?_).spaced
  · constructor
    · exact fun _ _ _ => Nat.zero_le _
    · intro j k hj
      rcases start_status_cases c j with hstart | hstart
      · cases hstart.symm.trans hj
      · cases hstart.symm.trans hj
    · intro later between earlier heq
      have hnil : ([] : List Event) = later ++ .recreated :: (between ++ .recreated :: earlier) :=
        heq
      simp at hnil
  · intro s s' a hreach ih hs
    rcases step_cases hs with ⟨-, -, heq⟩ | ⟨-, -, job, new, hmove, hstatus⟩
    · rw [heq]
      exact ⟨ih.counter, ih.recreating, ih.spaced⟩
    · exact ih.move hreach hmove hstatus

/-! ### Recreation while a scenario runs -/

/-- Jobs between their kubeconfig path and the end of their run. -/
def Status.isRunning : Status → Bool
  | .working _ (.running _) => true
  | _ => false

/-- Jobs whose outcome has reached the failure counter. -/
def Status.isNoted : Status → Bool
  | .working _ .noted => true
  | .working _ .booked => true
  | .done => true
  | _ => false

theorem Moves.failures_le (h : Moves c w s job old new sh queue) :
    sh.consecutiveInfraFailures + old.isNoted.toNat ≤
      s.shared.consecutiveInfraFailures + new.isNoted.toNat := by
  cases h with
  | note =>
      unfold Orchestrator.note
      split_ifs
      · exact le_rfl
      · exact Nat.zero_le _
  | book =>
      unfold Orchestrator.book
      split_ifs
      · exact le_rfl
      · exact le_rfl
      · exact le_rfl
  | fail =>
      rw [apply_retry Status.isNoted fun _ => rfl]
      exact le_rfl
  | recreated => exact Nat.zero_le _
  | _ => exact le_rfl

theorem failures_le (h : (runParallel c w).Reach s) :
    s.shared.consecutiveInfraFailures ≤ c.count s Status.isNoted := by
  refine h.invariant
    (I := fun s => s.shared.consecutiveInfraFailures ≤ c.count s Status.isNoted) ?_ ?_
  · exact Nat.zero_le _
  · intro s s' a hreach ih hs
    rcases step_cases hs with ⟨-, -, heq⟩ | ⟨-, -, job, new, hmove, heq⟩
    · rw [heq]
      exact ih
    · have hupdate := count_update (lt_of_reach hreach hmove.ne_dropped) heq Status.isNoted
      have hle := hmove.failures_le
      omega

theorem noted_add_le (c : Setup) (s : State) :
    c.count s Status.isNoted + c.count s Status.holdsMutex + c.count s Status.isRunning ≤
      c.jobs.length := by
  have hle : ∑ j ∈ Finset.range c.jobs.length, ((s.status j).isNoted.toNat +
      (s.status j).holdsMutex.toNat + (s.status j).isRunning.toNat) ≤
        ∑ j ∈ Finset.range c.jobs.length, 1 := by
    refine Finset.sum_le_sum fun j _ => ?_
    rcases s.status j with _ | ⟨k, p⟩ | _ | _ | _
    case working => cases p <;> simp [Status.isNoted, Status.holdsMutex, Status.isRunning]
    all_goals simp [Status.isNoted, Status.holdsMutex, Status.isRunning]
  rw [Finset.sum_add_distrib, Finset.sum_add_distrib] at hle
  simpa [Setup.count] using hle

/-- `provider.Recreate` is called only when no other worker is between its kubeconfig path and the
end of its run. -/
def IdleRecreation (c : Setup) (w : World) : Prop :=
  ∀ s s' j k, (runParallel c w).Reach s → step c w s (.work j) = some s' →
    s'.status j = .working k .recreating → ∀ j', (s.status j').isRunning = false

/-- A call of `provider.Recreate` comes from a worker that holds the mutex and has seen enough
failures. -/
theorem Moves.of_recreating {k : Nat} (h : Moves c w s job old new sh queue)
    (hnew : new = .working k .recreating) :
    old = .working k .locked ∧ infraFailureThreshold ≤ s.shared.consecutiveInfraFailures := by
  cases h with
  | call hcount =>
      obtain ⟨rfl, -⟩ := Status.working.inj hnew
      exact ⟨rfl, hcount⟩
  | fail =>
      have hholds := congrArg Status.holdsMutex hnew
      rw [apply_retry Status.holdsMutex fun _ => rfl] at hholds
      cases hholds
  | _ => cases hnew

theorem moves_of_work (hs : step c w s (.work job) = some s') :
    Moves c w s job (s.status job) (s'.status job) s'.shared s'.queue := by
  simp only [step] at hs
  split at hs
  · rename_i k p hjob
    split at hs
    · cases hs
    · rename_i new sh hadvance
      obtain rfl := Option.some.inj hs
      have hmove := moves_of_advance hadvance
      rw [← hjob] at hmove
      change Moves c w s job (s.status job) (Function.update s.status job new job) sh s.queue
      rwa [Function.update_self]
  · cases hs

/-- **Enough for idleness.** With one worker nobody else runs, and with three jobs there are not
enough failures while one of them runs. -/
theorem idle_of_few (h : c.provider = false ∨ c.parallel = 1 ∨ c.total ≤ 3) :
    IdleRecreation c w := by
  intro s s' j k hreach hs hcall j'
  obtain ⟨hlocked, hcount⟩ := (moves_of_work hs).of_recreating hcall
  have hholds : (s.status j).holdsMutex = true := by
    rw [hlocked]
    rfl
  by_contra hrunning
  replace hrunning := Bool.eq_true_of_not_eq_false hrunning
  have hne : j ≠ j' := by
    rintro rfl
    rw [hlocked] at hrunning
    cases hrunning
  have hj := lt_of_reach hreach (j := j) (by simp [hlocked])
  have hj' := lt_of_reach hreach (j := j') fun hdropped => by
    rw [hdropped] at hrunning
    cases hrunning
  rcases h with hprovider | hparallel | htotal
  · rw [holdsMutex_of_external hprovider hreach j] at hholds
    cases hholds
  · have hworking' : (s.status j').isWorking = true := by
      rcases hstatus : s.status j' with _ | _ | _ | _ | _
      case working => rfl
      all_goals
        rw [hstatus] at hrunning
        cases hrunning
    have htwo := two_le_count Status.isWorking hj hj' hne (by rw [hlocked]; rfl) hworking'
    have hone := working_le hreach
    omega
  · have hfailures := failures_le hreach
    have hmutex := count_pos Status.holdsMutex hj hholds
    have hrun := count_pos Status.isRunning hj' hrunning
    have hsum := noted_add_le c s
    have hjobs := length_jobs c
    have hthreshold : infraFailureThreshold = 2 := rfl
    omega

/-! ### The fourth job -/

/-- An outside in which every run fails for want of infrastructure. -/
def faulty : World := ⟨fun _ _ => true, fun _ _ => ⟨none, none⟩, fun _ _ => none⟩

theorem exists_next {k : Nat} {p : Phase} (h : (runParallel c w).Reach s)
    (hjob : s.status job = .working k p)
    (hadvance : advance c w (c.count s Status.holdsMutex = 0) job k s.shared p = some (new, sh)) :
    ∃ s', (runParallel c w).Reach s' ∧ s'.main = s.main ∧ s'.queue = s.queue ∧ s'.shared = sh ∧
      s'.status = Function.update s.status job new := by
  obtain ⟨s', hstep, hs'⟩ := exists_work hjob hadvance
  exact ⟨s', reach_step h hstep, hs'⟩

theorem exists_locked (h : (runParallel c faulty).Reach s) (hprovider : c.provider = true)
    (hfree : c.count s Status.holdsMutex = 0) (hjob : s.status job = .working 0 .start) :
    ∃ s', (runParallel c faulty).Reach s' ∧ s'.main = s.main ∧ s'.queue = s.queue ∧
      s'.shared = s.shared ∧ s'.status = Function.update s.status job (.working 0 .locked) := by
  obtain ⟨s₁, hreach₁, hmain₁, hqueue₁, hshared₁, hstatus₁⟩ := exists_next h hjob rfl
  have hjob₁ : s₁.status job = .working 0 .made := by
    rw [hstatus₁, Function.update_self]
    rfl
  have hfree₁ : c.count s₁ Status.holdsMutex = 0 := by
    have hupdate := count_update (lt_of_reach h (by simp [hjob])) hstatus₁ Status.holdsMutex
    rw [hfree, hjob] at hupdate
    exact hupdate
  have hadvance : advance c faulty (c.count s₁ Status.holdsMutex = 0) job 0 s₁.shared .made =
      some (.working 0 .locked, s₁.shared) := by
    simp [advance, hprovider, hfree₁]
  obtain ⟨s₂, hreach₂, hmain₂, hqueue₂, hshared₂, hstatus₂⟩ := exists_next hreach₁ hjob₁ hadvance
  refine ⟨s₂, hreach₂, hmain₂.trans hmain₁, hqueue₂.trans hqueue₁, hshared₂.trans hshared₁, ?_⟩
  rw [hstatus₂, hstatus₁, Function.update_idem]

theorem exists_running (h : (runParallel c faulty).Reach s) (hprovider : c.provider = true)
    (hfree : c.count s Status.holdsMutex = 0) (hjob : s.status job = .working 0 .start)
    (hfew : s.shared.consecutiveInfraFailures < infraFailureThreshold) :
    ∃ s', (runParallel c faulty).Reach s' ∧ s'.main = s.main ∧ s'.queue = s.queue ∧
      s'.shared = s.shared ∧
      s'.status = Function.update s.status job (.working 0 (.running s.shared.cluster)) := by
  obtain ⟨s₁, hreach₁, hmain₁, hqueue₁, hshared₁, hstatus₁⟩ := exists_locked h hprovider hfree hjob
  have hjob₁ : s₁.status job = .working 0 .locked := by rw [hstatus₁, Function.update_self]
  have hadvance : advance c faulty (c.count s₁ Status.holdsMutex = 0) job 0 s₁.shared .locked =
      some (.working 0 (.running s.shared.cluster), s.shared) := by
    rw [hshared₁]
    exact if_neg (by omega)
  obtain ⟨s₂, hreach₂, hmain₂, hqueue₂, hshared₂, hstatus₂⟩ := exists_next hreach₁ hjob₁ hadvance
  refine ⟨s₂, hreach₂, hmain₂.trans hmain₁, hqueue₂.trans hqueue₁, hshared₂, ?_⟩
  rw [hstatus₂, hstatus₁, Function.update_idem]

theorem exists_failed {path : String} (h : (runParallel c faulty).Reach s)
    (hjob : s.status job = .working 0 (.running path)) :
    ∃ s', (runParallel c faulty).Reach s' ∧ s'.main = s.main ∧ s'.queue = s.queue ∧
      s'.shared.consecutiveInfraFailures = s.shared.consecutiveInfraFailures + 1 ∧
      s'.status = Function.update s.status job .done := by
  obtain ⟨s₁, hreach₁, hmain₁, hqueue₁, hshared₁, hstatus₁⟩ := exists_next h hjob rfl
  have hjob₁ : s₁.status job = .working 0 .returned := by rw [hstatus₁, Function.update_self]
  obtain ⟨s₂, hreach₂, hmain₂, hqueue₂, hshared₂, hstatus₂⟩ := exists_next hreach₁ hjob₁ rfl
  have hjob₂ : s₂.status job = .working 0 .ended := by rw [hstatus₂, Function.update_self]
  obtain ⟨s₃, hreach₃, hmain₃, hqueue₃, hshared₃, hstatus₃⟩ := exists_next hreach₂ hjob₂ rfl
  have hjob₃ : s₃.status job = .working 0 .noted := by rw [hstatus₃, Function.update_self]
  obtain ⟨s₄, hreach₄, hmain₄, hqueue₄, hshared₄, hstatus₄⟩ := exists_next hreach₃ hjob₃ rfl
  have hjob₄ : s₄.status job = .working 0 .booked := by rw [hstatus₄, Function.update_self]
  obtain ⟨s₅, hreach₅, hmain₅, hqueue₅, hshared₅, hstatus₅⟩ := exists_next hreach₄ hjob₄ rfl
  refine ⟨s₅, hreach₅, ?_, ?_, ?_, ?_⟩
  · rw [hmain₅, hmain₄, hmain₃, hmain₂, hmain₁]
  · rw [hqueue₅, hqueue₄, hqueue₃, hqueue₂, hqueue₁]
  · rw [hshared₅, hshared₄, hshared₃, hshared₂, hshared₁]
    rfl
  · rw [hstatus₅, hstatus₄, hstatus₃, hstatus₂, hstatus₁]
    simp only [Function.update_idem]

/-- The first job runs, and the next ones have failed. -/
structure Round (c : Setup) (n : Nat) (s : State) : Prop where
  reach : (runParallel c faulty).Reach s
  main : s.main = .waiting
  queue : s.queue = (List.range c.jobs.length).drop n
  first : (s.status 0).isRunning = true
  rest : ∀ j, n ≤ j → j < c.jobs.length → s.status j = .available 0
  working : c.count s Status.isWorking = 1
  free : c.count s Status.holdsMutex = 0
  failures : s.shared.consecutiveInfraFailures + 1 = n

theorem Round.fetch {n : Nat} (h : Round c n s) (hparallel : 1 < c.parallel)
    (hn : n < c.jobs.length) :
    ∃ s', (runParallel c faulty).Reach s' ∧ s'.main = .waiting ∧
      s'.queue = (List.range c.jobs.length).drop (n + 1) ∧ s'.shared = s.shared ∧
      c.count s' Status.holdsMutex = 0 ∧
      s'.status = Function.update s.status n (.working 0 .start) := by
  have hqueue : s.queue = n :: (List.range c.jobs.length).drop (n + 1) := by
    rw [h.queue, List.drop_eq_getElem_cons (by simpa using hn), List.getElem_range]
  have hjob := h.rest n le_rfl hn
  obtain ⟨s', hstep, hmain', hqueue', hshared', hstatus'⟩ :=
    exists_fetch (w := faulty) h.main hqueue hjob (h.working ▸ hparallel)
  refine ⟨s', reach_step h.reach hstep, hmain', hqueue', hshared', ?_, hstatus'⟩
  have hupdate := count_update hn hstatus' Status.holdsMutex
  rw [h.free, hjob] at hupdate
  exact hupdate

theorem Round.next {n : Nat} (h : Round c n s) (hparallel : 1 < c.parallel)
    (hprovider : c.provider = true) (hn : n < c.jobs.length) (hpos : 0 < n)
    (hfew : n ≤ infraFailureThreshold) : ∃ s', Round c (n + 1) s' := by
  obtain ⟨s₁, hreach₁, hmain₁, hqueue₁, hshared₁, hfree₁, hstatus₁⟩ := h.fetch hparallel hn
  have hjob₁ : s₁.status n = .working 0 .start := by rw [hstatus₁, Function.update_self]
  have hcounter := h.failures
  obtain ⟨s₂, hreach₂, hmain₂, hqueue₂, hshared₂, hstatus₂⟩ :=
    exists_running hreach₁ hprovider hfree₁ hjob₁ (by rw [hshared₁]; omega)
  have hjob₂ : s₂.status n = .working 0 (.running s₁.shared.cluster) := by
    rw [hstatus₂, Function.update_self]
  obtain ⟨s₃, hreach₃, hmain₃, hqueue₃, hcounter₃, hstatus₃⟩ := exists_failed hreach₂ hjob₂
  have hstatus : s₃.status = Function.update s.status n .done := by
    rw [hstatus₃, hstatus₂, hstatus₁]
    simp only [Function.update_idem]
  have hcount : ∀ p : Status → Bool, p (.available 0) = p .done → c.count s₃ p = c.count s p := by
    intro p hp
    have hupdate := count_update hn hstatus p
    rw [h.rest n le_rfl hn, hp] at hupdate
    omega
  refine ⟨s₃, hreach₃, ?_, ?_, ?_, ?_, ?_, ?_, ?_⟩
  · rw [hmain₃, hmain₂, hmain₁]
  · rw [hqueue₃, hqueue₂, hqueue₁]
  · rw [hstatus, Function.update_of_ne (by omega)]
    exact h.first
  · intro j hj hlt
    rw [hstatus, Function.update_of_ne (by omega)]
    exact h.rest j (by omega) hlt
  · rw [hcount Status.isWorking rfl, h.working]
  · rw [hcount Status.holdsMutex rfl, h.free]
  · rw [hcounter₃, hshared₂, hshared₁, h.failures]

theorem exists_round_one (hprovider : c.provider = true) (hpos : 0 < c.jobs.length) :
    ∃ s, Round c 1 s := by
  have hzero : ∀ p : Status → Bool, p (.available 0) = false → c.count (start c) p = 0 := by
    intro p hp
    refine Finset.sum_eq_zero fun j hj => ?_
    rw [status_start (Finset.mem_range.mp hj), hp]
    rfl
  have hqueue : (start c).queue = 0 :: (List.range c.jobs.length).drop 1 := by
    change List.range c.jobs.length = _
    obtain ⟨n, hn⟩ := Nat.exists_eq_succ_of_ne_zero (Nat.pos_iff_ne_zero.mp hpos)
    rw [hn, List.range_succ_eq_map]
    rfl
  have hroom : c.count (start c) Status.isWorking < c.parallel :=
    (hzero Status.isWorking rfl).symm ▸ c.parallel_pos
  obtain ⟨s₁, hstep, hmain₁, hqueue₁, hshared₁, hstatus₁⟩ :=
    exists_fetch (w := faulty) rfl hqueue (status_start hpos) hroom
  have hreach₁ : (runParallel c faulty).Reach s₁ := reach_step .init hstep
  have hjob₁ : s₁.status 0 = .working 0 .start := by rw [hstatus₁, Function.update_self]
  have hfree₁ : c.count s₁ Status.holdsMutex = 0 := by
    have hupdate := count_update hpos hstatus₁ Status.holdsMutex
    rw [hzero Status.holdsMutex rfl, status_start hpos] at hupdate
    exact hupdate
  obtain ⟨s₂, hreach₂, hmain₂, hqueue₂, hshared₂, hstatus₂⟩ :=
    exists_running hreach₁ hprovider hfree₁ hjob₁ (by rw [hshared₁]; exact Nat.two_pos)
  have hstatus : s₂.status =
      Function.update (start c).status 0 (.working 0 (.running s₁.shared.cluster)) := by
    rw [hstatus₂, hstatus₁, Function.update_idem]
  have hcount : ∀ p : Status → Bool, p (.available 0) = false →
      c.count s₂ p = (p (.working 0 (.running s₁.shared.cluster))).toNat := by
    intro p hp
    have hupdate := count_update hpos hstatus p
    rw [hzero p hp, status_start hpos, hp, Bool.toNat_false] at hupdate
    omega
  refine ⟨s₂, hreach₂, ?_, ?_, ?_, ?_, ?_, ?_, ?_⟩
  · rw [hmain₂, hmain₁]
  · rw [hqueue₂, hqueue₁]
  · rw [hstatus, Function.update_self]
    rfl
  · intro j hj hlt
    rw [hstatus, Function.update_of_ne (by omega)]
    exact status_start hlt
  · exact hcount Status.isWorking rfl
  · exact hcount Status.holdsMutex rfl
  · rw [hshared₂, hshared₁]
    rfl

/-- **The fourth job.** With a provider, two workers and four jobs the cluster can be recreated
under the first job. -/
theorem exists_busy_recreation (hprovider : c.provider = true) (hparallel : 1 < c.parallel)
    (hjobs : 3 < c.jobs.length) : ¬ IdleRecreation c faulty := by
  obtain ⟨s₁, h₁⟩ := exists_round_one hprovider (by omega)
  obtain ⟨s₂, h₂⟩ := h₁.next hparallel hprovider (by omega) (by omega) (by decide)
  obtain ⟨s₃, h₃⟩ := h₂.next hparallel hprovider (by omega) (by omega) (by decide)
  obtain ⟨s₄, hreach₄, -, -, hshared₄, hfree₄, hstatus₄⟩ := h₃.fetch hparallel hjobs
  have hjob₄ : s₄.status 3 = .working 0 .start := by rw [hstatus₄, Function.update_self]
  obtain ⟨s₅, hreach₅, -, -, hshared₅, hstatus₅⟩ := exists_locked hreach₄ hprovider hfree₄ hjob₄
  have hjob₅ : s₅.status 3 = .working 0 .locked := by rw [hstatus₅, Function.update_self]
  have henough : infraFailureThreshold ≤ s₅.shared.consecutiveInfraFailures := by
    have hfailures := h₃.failures
    rw [hshared₅, hshared₄]
    exact Nat.le_of_succ_le_succ hfailures.ge
  obtain ⟨s₆, hstep, -, -, -, hstatus₆⟩ := exists_work (w := faulty) hjob₅ (if_pos henough)
  have hcall : s₆.status 3 = .working 0 .recreating := by rw [hstatus₆, Function.update_self]
  intro hidle
  have hnot := hidle s₅ s₆ 3 0 hreach₅ hstep hcall 0
  rw [hstatus₅, Function.update_of_ne (by omega), hstatus₄, Function.update_of_ne (by omega),
    h₃.first] at hnot
  cases hnot

/-! ### The result -/

/-- **When the cluster is recreated only while it is idle.** Whatever the outside answers and in
whatever order the workers proceed: `provider.Recreate` is never called while another worker is
between its kubeconfig path and the end of its run, and any two recreations have
`infraFailureThreshold` failures between them, exactly when there is no provider, or one worker, or
at most three jobs.
Source: `selectWorkerKubeconfigPath`, `RunParallel` -/
theorem recreation_iff (c : Setup) :
    (∀ w, IdleRecreation c w ∧ ∀ s, (runParallel c w).Reach s → Spaced s.shared.history) ↔
      c.provider = false ∨ c.parallel = 1 ∨ c.total ≤ 3 := by
  constructor
  · intro hall
    by_contra hnot
    push Not at hnot
    obtain ⟨hprovider, hparallel, htotal⟩ := hnot
    have hpos := c.parallel_pos
    have hjobs := length_jobs c
    exact exists_busy_recreation (by simpa using hprovider) (by omega) (by omega) (hall faulty).1
  · intro h w
    exact ⟨idle_of_few h, fun s hreach => spaced_of_reach hreach⟩

/-- Four scenarios for two workers, on a cluster of a provider. -/
def fourJobs : Setup := { twoWorkers ["a", "b", "c", "d"] with provider := true }

/-- **The cluster goes under a running scenario.** The first job runs; the second and the third fail
for want of infrastructure; the fourth calls `provider.Recreate`.
Source: `selectWorkerKubeconfigPath` -/
theorem recreated_under_run :
    ∃ s s', (runParallel fourJobs faulty).Reach s ∧ step fourJobs faulty s (.work 3) = some s' ∧
      s'.status 3 = .working 0 .recreating ∧
      s.status 0 = .working 0 (.running "/tmp/kubeconfig") ∧
      s'.status 0 = .working 0 (.running "/tmp/kubeconfig") := by
  let schedule : List Act := [.fetch, .work 0, .work 0, .work 0, .fetch, .work 1, .work 1, .work 1,
    .work 1, .work 1, .work 1, .work 1, .work 1, .fetch, .work 2, .work 2, .work 2, .work 2,
    .work 2, .work 2, .work 2, .work 2, .fetch, .work 3, .work 3]
  have hview : ((runParallel fourJobs faulty).exec (runParallel fourJobs faulty).init schedule).map
      (fun s => (s.status 0, (step fourJobs faulty s (.work 3)).map fun s' =>
        (s'.status 3, s'.status 0))) =
      some (.working 0 (.running "/tmp/kubeconfig"),
        some (.working 0 .recreating, .working 0 (.running "/tmp/kubeconfig"))) := by
    decide +kernel
  obtain ⟨s, hreach, hs⟩ := System.exists_reach_of_exec hview
  obtain ⟨h0, hs⟩ := Prod.mk.inj hs
  obtain ⟨s', hstep, hs'⟩ := Option.map_eq_some_iff.mp hs
  obtain ⟨h3, h0'⟩ := Prod.mk.inj hs'
  exact ⟨s, s', hreach, hstep, h3, h0, h0'⟩

end EvidraBench.Orchestrator
