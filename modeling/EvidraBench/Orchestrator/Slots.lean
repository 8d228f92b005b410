import EvidraBench.Orchestrator.Parallel

/-!
# Namespaces of parallel workers

The jobs of a batch get their namespace slot by position when they are enqueued, and the next batch
starts with slot 0 again. Which jobs meet is decided later, by the order in which jobs finish.

Results: `namespaces_exclusive_iff`, `shared_namespace`.

Source: `pkg/jobqueue/client.go`
-/

namespace EvidraBench.Orchestrator

open EvidraBench.Lib

variable {c : Setup} {w : World} {s : State}

/-! ### Slots of the enqueued jobs -/

theorem jobs_eq (c : Setup) :
    c.jobs = (c.models.flatMap fun model => List.replicate c.repeats.toNat model).flatMap
      fun model => insertBatch c.scenarios model c.parallel := by
  rw [List.flatMap_assoc]
  refine List.flatMap_congr fun model _ => ?_
  rw [List.flatMap_replicate, List.flatMap_def, List.map_const', List.length_range]

theorem length_batches (c : Setup) :
    (c.models.flatMap fun model => List.replicate c.repeats.toNat model).length =
      c.models.length * c.repeats.toNat := by
  simp [List.length_flatMap]

theorem getElem?_insertBatch {scenarios : List String} {model : String} {n i : Nat} :
    (insertBatch scenarios model n)[i]? =
      scenarios[i]?.map fun sid => ⟨sid, model, i % n, n⟩ := by
  simp only [insertBatch, List.getElem?_map, List.getElem?_zipIdx, Option.map_map, Nat.zero_add]
  rfl

theorem slot_of_workNamespace {x y : BenchJobArgs} (hx : x.parallel > 1) (hy : y.parallel > 1)
    (h : workNamespace x = workNamespace y) : x.namespaceSlot = y.namespaceSlot := by
  rw [workNamespace, workNamespace, if_pos hx, if_pos hy, String.append_right_inj] at h
  exact Nat.repr_injective h

theorem ne_of_one_batch {model : String} (hone : c.jobs = insertBatch c.scenarios model c.parallel)
    (hparallel : 1 < c.parallel) (hlen : c.scenarios.length ≤ c.parallel) {i j : Nat}
    {x y : BenchJobArgs} (hne : i ≠ j) (hx : c.jobs[i]? = some x) (hy : c.jobs[j]? = some y) :
    workNamespace x ≠ workNamespace y := by
  rw [hone, getElem?_insertBatch] at hx hy
  obtain ⟨sid, hsid, rfl⟩ := Option.map_eq_some_iff.mp hx
  obtain ⟨sid', hsid', rfl⟩ := Option.map_eq_some_iff.mp hy
  have hi := (List.getElem?_eq_some_iff.mp hsid).1
  have hj := (List.getElem?_eq_some_iff.mp hsid').1
  intro h
  have hslot := slot_of_workNamespace hparallel hparallel h
  rw [Nat.mod_eq_of_lt (by omega), Nat.mod_eq_of_lt (by omega)] at hslot
  exact hne hslot

theorem exists_clash (hscenarios : c.scenarios ≠ [])
    (hbatches : 1 ≤ c.models.length * c.repeats.toNat)
    (hlong : c.models.length * c.repeats.toNat = 1 → c.parallel < c.scenarios.length) :
    ∃ m x y, 0 < m ∧ m ≤ c.parallel ∧ c.jobs[0]? = some x ∧ c.jobs[m]? = some y ∧
      workNamespace x = workNamespace y := by
  have hpos := c.parallel_pos
  have hjobs := jobs_eq c
  have hlength := length_batches c
  have hS := List.length_pos_iff.mpr hscenarios
  rcases hmodels : c.models.flatMap fun model => List.replicate c.repeats.toNat model
    with _ | ⟨model, models⟩
  · rw [hmodels, List.length_nil] at hlength
    omega
  rw [hmodels, List.flatMap_cons] at hjobs
  have hbatch : (insertBatch c.scenarios model c.parallel).length = c.scenarios.length := by
    simp [insertBatch]
  have hfirst : c.jobs[0]? = some ⟨c.scenarios[0], model, 0, c.parallel⟩ := by
    rw [hjobs, List.getElem?_append_left (by omega), getElem?_insertBatch,
      List.getElem?_eq_getElem hS, Nat.zero_mod]
    rfl
  by_cases hlen : c.parallel < c.scenarios.length
  · -- the batch comes round to slot 0
    refine ⟨c.parallel, _, ⟨c.scenarios[c.parallel], model, 0, c.parallel⟩, hpos, le_rfl, hfirst,
      ?_, by rw [workNamespace, workNamespace]⟩
    rw [hjobs, List.getElem?_append_left (by omega), getElem?_insertBatch,
      List.getElem?_eq_getElem hlen, Nat.mod_self]
    rfl
  · -- the next batch starts with slot 0
    rcases models with _ | ⟨model', models⟩
    · rw [hmodels, List.length_singleton] at hlength
      omega
    refine ⟨c.scenarios.length, _, ⟨c.scenarios[0], model', 0, c.parallel⟩, hS, by omega, hfirst,
      ?_, by rw [workNamespace, workNamespace]⟩
    rw [hjobs, List.getElem?_append_right (by omega), hbatch, Nat.sub_self, List.flatMap_cons,
      List.getElem?_append_left (by simpa [insertBatch] using hS), getElem?_insertBatch,
      List.getElem?_eq_getElem hS, Nat.zero_mod]
    rfl

/-! ### Bringing two jobs together -/

/-- The state in which the first jobs have been taken. -/
structure Taken (c : Setup) (k : Nat) (s : State) : Prop where
  main : s.main = .waiting
  queue : s.queue = (List.range c.jobs.length).drop k
  count : c.count s Status.isWorking = k
  taken : ∀ j, j < k → s.status j = .working 0 .start
  rest : ∀ j, k ≤ j → j < c.jobs.length → s.status j = .available 0

theorem exists_taken (w : World) {k : Nat} (hk : k ≤ c.parallel) (hlen : k ≤ c.jobs.length) :
    ∃ s, (runParallel c w).Reach s ∧ Taken c k s := by
  induction k with
  | zero =>
      refine ⟨start c, .init, rfl, rfl, Finset.sum_eq_zero fun j hj => ?_, by simp, ?_⟩
      · rw [status_start (Finset.mem_range.mp hj)]
        rfl
      · intro j _ hj
        exact status_start hj
  | succ k ih =>
      obtain ⟨s, hreach, hs⟩ := ih (by omega) (by omega)
      have hqueue : s.queue = k :: (List.range c.jobs.length).drop (k + 1) := by
        rw [hs.queue, List.drop_eq_getElem_cons (by simpa using hlen), List.getElem_range]
      have hk' := hs.rest k le_rfl (by omega)
      have hroom : c.count s Status.isWorking < c.parallel := by
        rw [hs.count]
        omega
      obtain ⟨s', hstep, hmain', hqueue', -, hstatus'⟩ :=
        exists_fetch (w := w) hs.main hqueue hk' hroom
      refine ⟨s', reach_step hreach hstep, hmain', hqueue', ?_, ?_, ?_⟩
      · have hcount := count_update (c := c) (by omega) hstatus' Status.isWorking
        rw [hk', hs.count] at hcount
        exact hcount
      · intro j hj
        rw [hstatus']
        by_cases hjk : j = k
        · rw [hjk]
          exact Function.update_self ..
        · rw [Function.update_of_ne hjk]
          exact hs.taken j (by omega)
      · intro j hj hlt
        rw [hstatus', Function.update_of_ne (by omega)]
        exact hs.rest j (by omega) hlt

theorem exists_room (hreach : (runParallel c barren).Reach s) {k m : Nat} (hs : Taken c m s)
    (hk : k < m) :
    ∃ s', (runParallel c barren).Reach s' ∧ s'.main = .waiting ∧ s'.queue = s.queue ∧
      c.count s' Status.isWorking + 1 = m ∧ ∀ j, j ≠ k → s'.status j = s.status j := by
  have hstatus := hs.taken k hk
  have hadvance : advance c barren (c.count s Status.holdsMutex = 0) k 0 s.shared .start =
      some (retry 0, s.shared) := rfl
  obtain ⟨s', hstep, hmain', hqueue', -, hstatus'⟩ := exists_work hstatus hadvance
  refine ⟨s', reach_step hreach hstep, hmain'.trans hs.main, hqueue', ?_, ?_⟩
  · have hlt := lt_of_reach hreach (j := k) (by simp [hstatus])
    have hcount := count_update hlt hstatus' Status.isWorking
    rw [hstatus, hs.count] at hcount
    exact hcount
  · intro j hj
    rw [hstatus', Function.update_of_ne hj]

/-- The first job and one that is not further down than there are workers can be worked on at the
same time. -/
theorem exists_both {m : Nat} (hparallel : 1 < c.parallel) (hpos : 0 < m) (hm : m ≤ c.parallel)
    (hlen : m < c.jobs.length) :
    ∃ s, (runParallel c barren).Reach s ∧ (s.status 0).isWorking = true ∧
      (s.status m).isWorking = true := by
  obtain ⟨s, hreach, hs⟩ := exists_taken barren hm hlen.le
  -- if all workers are busy, the second job has to make room
  obtain ⟨s', hreach', hmain', hqueue', hroom', hfirst, hnext⟩ :
      ∃ s', (runParallel c barren).Reach s' ∧ s'.main = .waiting ∧ s'.queue = s.queue ∧
        c.count s' Status.isWorking < c.parallel ∧ s'.status 0 = s.status 0 ∧
        s'.status m = s.status m := by
    by_cases hfull : m < c.parallel
    · exact ⟨s, hreach, hs.main, rfl, hs.count ▸ hfull, rfl, rfl⟩
    · obtain ⟨s', hreach', hmain', hqueue', hcount', hother⟩ :=
        exists_room hreach hs (show 1 < m by omega)
      exact ⟨s', hreach', hmain', hqueue', by omega, hother 0 (by omega), hother m (by omega)⟩
  have hqueue : s'.queue = m :: (List.range c.jobs.length).drop (m + 1) := by
    rw [hqueue', hs.queue, List.drop_eq_getElem_cons (by simpa using hlen), List.getElem_range]
  obtain ⟨t, hstep, -, -, -, hstatus⟩ :=
    exists_fetch (w := barren) hmain' hqueue (hnext.trans (hs.rest m le_rfl hlen)) hroom'
  refine ⟨t, reach_step hreach' hstep, ?_, ?_⟩
  · rw [hstatus, Function.update_of_ne (by omega), hfirst, hs.taken 0 hpos]
    rfl
  · rw [hstatus, Function.update_self]
    rfl

/-! ### The result -/

/-- No two jobs that are worked on have the same namespace. -/
def Exclusive (c : Setup) (s : State) : Prop :=
  ∀ i j x y, i ≠ j → (s.status i).isWorking = true → (s.status j).isWorking = true →
    c.jobs[i]? = some x → c.jobs[j]? = some y → workNamespace x ≠ workNamespace y

/-- **When namespaces are exclusive.** For every number of workers above one: whatever the outside
answers and in whatever order the workers proceed, jobs that are worked on at the same time have
namespaces of their own, exactly when nothing is enqueued, or one batch that is not longer than the
number of workers.
Source: `Client.InsertBatch`; `pkg/jobqueue/worker.go` `BenchWorker.Work` -/
theorem namespaces_exclusive_iff (c : Setup) (hparallel : 1 < c.parallel) :
    (∀ w s, (runParallel c w).Reach s → Exclusive c s) ↔
      c.scenarios = [] ∨ c.models.length * c.repeats ≤ 0 ∨
        (c.models.length * c.repeats = 1 ∧ c.scenarios.length ≤ c.parallel) := by
  have hcast : 0 ≤ c.repeats → ((c.models.length * c.repeats.toNat : ℕ) : ℤ) =
      c.models.length * c.repeats := by
    intro hrepeats
    rw [Nat.cast_mul, Int.toNat_of_nonneg hrepeats]
  constructor
  · intro hall
    by_contra hnot
    push Not at hnot
    obtain ⟨hscenarios, hpos, hlong⟩ := hnot
    have hrepeats : 0 ≤ c.repeats := by
      by_contra hneg
      have hle : (c.models.length : ℤ) * c.repeats ≤ 0 :=
        mul_nonpos_of_nonneg_of_nonpos (by omega) (by omega)
      omega
    have hcast' := hcast hrepeats
    obtain ⟨m, x, y, hm, hle, hx, hy, hsame⟩ := exists_clash hscenarios (by omega) fun hone =>
      hlong (by omega)
    have hlen := (List.getElem?_eq_some_iff.mp hy).1
    obtain ⟨s, hreach, h0, hm'⟩ := exists_both hparallel hm hle hlen
    exact hall barren s hreach 0 m x y (by omega) h0 hm' hx hy hsame
  · rintro (hscenarios | hnone | ⟨hone, hlen⟩) w s - i j x y hne - - hx hy
    · rw [jobs_eq, hscenarios] at hx
      simp [insertBatch] at hx
    · have hbatches : c.models.length * c.repeats.toNat = 0 := by
        rcases le_or_gt 0 c.repeats with hrepeats | hrepeats
        · have hcast' := hcast hrepeats
          omega
        · rw [Int.toNat_of_nonpos hrepeats.le, Nat.mul_zero]
      rw [← length_batches, List.length_eq_zero_iff] at hbatches
      rw [jobs_eq, hbatches] at hx
      cases hx
    · have hrepeats : 0 ≤ c.repeats := by
        by_contra hneg
        have hle : (c.models.length : ℤ) * c.repeats ≤ 0 :=
          mul_nonpos_of_nonneg_of_nonpos (by omega) (by omega)
        omega
      have hcast' := hcast hrepeats
      have hbatches : c.models.length * c.repeats.toNat = 1 := by omega
      rw [← length_batches, List.length_eq_one_iff] at hbatches
      obtain ⟨model, hbatches⟩ := hbatches
      have hjobs := jobs_eq c
      rw [hbatches, List.flatMap_singleton] at hjobs
      exact ne_of_one_batch hjobs hparallel hlen hne hx hy

/-- Two scenarios never meet. -/
theorem namespaces_exclusive_iff_two :
    1 < (twoWorkers ["a", "b"]).parallel ∧
      ∀ w s, (runParallel (twoWorkers ["a", "b"]) w).Reach s →
        Exclusive (twoWorkers ["a", "b"]) s :=
  ⟨by decide, (namespaces_exclusive_iff (twoWorkers ["a", "b"]) (by decide)).mpr (by decide)⟩

/-- An outside in which everything works and every run passes. -/
def smooth : World where
  workspace _ _ := true
  run _ _ := ⟨some ⟨true, 0⟩, none⟩
  recreate _ _ := none

/-- **Two runs in one namespace.** The second job is over while the first one still runs; the third
one is taken and has the slot of the first.
Source: `Client.InsertBatch` -/
theorem shared_namespace :
    ∃ s, (runParallel (twoWorkers ["a", "b", "c"]) smooth).Reach s ∧
      s.status 0 = .working 0 (.running "/tmp/kubeconfig") ∧ s.status 1 = .done ∧
      s.status 2 = .working 0 (.running "/tmp/kubeconfig") ∧
      (twoWorkers ["a", "b", "c"]).jobs[0]?.map workNamespace = some "bench-w0" ∧
      (twoWorkers ["a", "b", "c"]).jobs[2]?.map workNamespace = some "bench-w0" := by
  let schedule : List Act := [.fetch, .fetch, .work 0, .work 0, .work 1, .work 1, .work 1, .work 1,
    .work 1, .work 1, .work 1, .fetch, .work 2, .work 2]
  have hview : ((runParallel (twoWorkers ["a", "b", "c"]) smooth).exec
      (runParallel (twoWorkers ["a", "b", "c"]) smooth).init schedule).map
        (fun s => (s.status 0, s.status 1, s.status 2)) =
      some (.working 0 (.running "/tmp/kubeconfig"), .done,
        .working 0 (.running "/tmp/kubeconfig")) := by decide +kernel
  obtain ⟨s, hreach, hs⟩ := System.exists_reach_of_exec hview
  obtain ⟨h0, hs⟩ := Prod.mk.inj hs
  obtain ⟨h1, h2⟩ := Prod.mk.inj hs
  exact ⟨s, hreach, h0, h1, h2, by decide +kernel, by decide +kernel⟩

end EvidraBench.Orchestrator
