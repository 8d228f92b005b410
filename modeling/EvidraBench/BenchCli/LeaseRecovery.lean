import EvidraBench.Environment.Provisioner

/-!
# Replacing the lease of a batch

A batch of runs shares one lease. When a run fails with an infrastructure error,
`runWithBatchLeaseRecovery` has the provisioner recreate the environment, releases the lease that
is replaced, and calls the run again with the new one. Both leases are for one request, so they are
of one cluster: what the release of the old lease does is done to the new one's cluster.

Results: `retries_of_batch`, `recovery_keeps_environment_iff`, `retry_without_profile`.

Source: `cmd/bench-cli/lease_recovery.go`
-/

namespace EvidraBench.BenchCli

open EvidraBench.Environment

/-- The errors of a run, by what `errors.As` finds in them. -/
inductive RunError where
  /-- A `harness.InfraError`. -/
  | infra (text : String)
  | other (text : String)
deriving DecidableEq

/-- What one call of the run function returns, and what it does to the world. -/
structure RunOutcome (T : Type) where
  result : T
  err : Option RunError
  effect : World → World

/-- What happens in one call of the recovery: the first run, the recreation, the release, the
second run. -/
structure Round (T : Type) where
  first : RunOutcome T
  recreate : AcquireOutcomes
  release : ReleaseOutcomes
  second : RunOutcome T

/-- The results of the recovery. `retry` is what the second call of the run function is made with:
the world at that moment, and the lease. -/
structure Recovery (T : Type) where
  result : T
  lease : Option Lease
  err : Option RunError
  world : World
  retry : Option (World × Lease)

/-- The request is the one that the callers acquired the batch's lease with: the profile of the
scenario, and the provider, cluster name, reuse and kubeconfig of the configuration.
Source: `runWithBatchLeaseRecovery` -/
def runWithBatchLeaseRecovery {T : Type} (provisioner : Option LocalProvisioner)
    (req : ProvisionRequest) (lease : Option Lease) (round : Round T) (w : World) : Recovery T :=
  let w := round.first.effect w
  let failed : Recovery T := ⟨round.first.result, lease, round.first.err, w, none⟩
  match round.first.err, lease, provisioner with
  | some (.infra _), some old, some p =>
    match p.acquire req true round.recreate w with
    | (w, .error _) => { failed with world := w }
    | (w, .ok new) =>
      -- An error of the release is only logged.
      let w := (old.release.run round.release w).1
      ⟨round.second.result, some new, round.second.err, round.second.effect w, some (w, new)⟩
  | _, _, _ => failed

/-- The retries of a batch: each round starts with the lease that the one before returned.
Source: `cmd/bench-cli/bench_command.go`, `batchLease = nextLease` -/
def retries {T : Type} (p : LocalProvisioner) (req : ProvisionRequest) :
    Option Lease → List (Round T) → World → List (World × Lease)
  | _, [], _ => []
  | lease, round :: rounds, w =>
      let r := runWithBatchLeaseRecovery (some p) req lease round w
      r.retry.toList ++ retries p req r.lease rounds r.world

variable {T : Type} {p : LocalProvisioner} {req : ProvisionRequest}

/-- What one recovery does: it keeps the lease and retries nothing, or it retries with a lease
that was acquired before the old one was released. -/
theorem recovery_cases (p : LocalProvisioner) (req : ProvisionRequest) (lease : Option Lease)
    (round : Round T) (w : World) :
    ((runWithBatchLeaseRecovery (some p) req lease round w).retry = none ∧
      (runWithBatchLeaseRecovery (some p) req lease round w).lease = lease) ∨
    ∃ old w₁ w₂ new, lease = some old ∧ p.acquire req true round.recreate w₁ = (w₂, .ok new) ∧
      (runWithBatchLeaseRecovery (some p) req lease round w).lease = some new ∧
      (runWithBatchLeaseRecovery (some p) req lease round w).retry =
        some ((old.release.run round.release w₂).1, new) := by
  unfold runWithBatchLeaseRecovery
  rcases herr : round.first.err with - | text | text
  case some.infra =>
    cases lease with
    | none => exact .inl ⟨rfl, rfl⟩
    | some old =>
      simp only
      split
      · exact .inl ⟨rfl, rfl⟩
      next hacquire => exact .inr ⟨_, _, _, _, rfl, hacquire, rfl, rfl⟩
  all_goals exact .inl ⟨rfl, rfl⟩

/-- Every retry of a batch is with the lease of the request, in a world that its acquisition left
ready and the release of the replaced lease then changed. The induction is on the rounds; the
lease that is held is always the one of the request. -/
theorem retries_of_batch {rounds : List (Round T)} {lease : Option Lease} {w : World}
    (hlease : ∀ l, lease = some l → l = p.leaseOf req) {retry : World × Lease}
    (hmem : retry ∈ retries p req lease rounds w) :
    retry.2 = p.leaseOf req ∧ p.serves req = true ∧ ∃ w₁ o, w₁.Ready (p.leaseOf req) ∧
      retry.1 = ((p.releaseOf req).run o w₁).1 := by
  induction rounds generalizing lease w with
  | nil => cases hmem
  | cons round rounds ih =>
    obtain ⟨hretry, hkept⟩ | ⟨old, w₁, w₂, new, rfl, hacquire, hnew, hretry⟩ :=
      recovery_cases p req lease round w
    · simp only [retries, hretry, hkept, Option.toList_none, List.nil_append] at hmem
      exact ih hlease hmem
    · obtain ⟨rfl, hready, hserves⟩ := LocalProvisioner.acquire_eq_ok hacquire
      simp only [retries, hretry, hnew, Option.toList_some, List.cons_append, List.nil_append,
        List.mem_cons] at hmem
      rcases hmem with rfl | hmem
      · rw [hlease old rfl]
        exact ⟨rfl, hserves, w₂, round.release, hready, rfl⟩
      · exact ih (fun l hl => (Option.some.inj hl).symm) hmem

/-! ### Releases that do nothing -/

/-- The release of a lease for the request acts on the cluster: it destroys a cluster that is not
reused, or runs the cleanup hook of the profile. -/
def releaseActs (p : LocalProvisioner) (req : ProvisionRequest) : Bool :=
  ownsCluster req && !req.reuseCluster ||
    profileRequiresHooks req.profile && p.assets.stat (p.assets.script req.profile "cleanup.sh")

theorem release_run_eq (hacts : releaseActs p req = false) (o : ReleaseOutcomes) (w : World) :
    (p.releaseOf req).run o w = (w, none) := by
  simp only [releaseActs, Bool.or_eq_false_iff, Bool.and_eq_false_iff, Bool.not_eq_false'] at hacts
  obtain ⟨hcluster, hcleanup⟩ := hacts
  have hkept : p.releaseFunc req = none := by
    rcases hcluster with howns | hreuse
    · simp [LocalProvisioner.releaseFunc, howns]
    · simp [LocalProvisioner.releaseFunc, hreuse]
  rcases hcleanup with hhooks | hscript
  · simp [Release.run, LocalProvisioner.releaseOf, hkept, hhooks]
  · cases hhooks : profileRequiresHooks req.profile
    · simp [Release.run, LocalProvisioner.releaseOf, hkept, hhooks]
    · simp [Release.run, LocalProvisioner.releaseOf, hkept, hhooks, doCleanup,
        AssetResolver.optionalScript, hscript]

/-- The commands of a release, all of which succeed. -/
def smoothRelease : ReleaseOutcomes := ⟨true, .ok⟩

theorem not_ready_of_releaseActs (hacts : releaseActs p req = true) (hserves : p.serves req = true)
    (w : World) : ¬ ((p.releaseOf req).run smoothRelease w).1.Ready (p.leaseOf req) := by
  intro hready
  by_cases hdestroyed : ownsCluster req = true ∧ req.reuseCluster = false
  · obtain ⟨howns, hreuse⟩ := hdestroyed
    have hprovider : p.providers req.providerName = true := by
      simp only [LocalProvisioner.serves, howns] at hserves
      simp_all
    have hlive := hready.live
    simp [Release.run, LocalProvisioner.releaseOf, LocalProvisioner.leaseOf,
      LocalProvisioner.releaseFunc, kubeconfigOf, howns, hreuse, hprovider, destroy,
      smoothRelease] at hlive
  · have hcleanup : profileRequiresHooks req.profile = true ∧
        p.assets.stat (p.assets.script req.profile "cleanup.sh") = true := by
      cases howns : ownsCluster req <;> cases hreuse : req.reuseCluster <;>
        simp_all [releaseActs]
    obtain ⟨hhooks, hscript⟩ := hcleanup
    have hkept : p.releaseFunc req = none := by
      cases howns : ownsCluster req <;> cases hreuse : req.reuseCluster <;>
        simp_all [LocalProvisioner.releaseFunc]
    have hpath : p.assets.script req.profile "cleanup.sh" ≠ "" := by
      simp [AssetResolver.script, String.append_eq_empty_iff]
    have hinstalled := hready.installed hhooks
    simp [Release.run, LocalProvisioner.releaseOf, LocalProvisioner.leaseOf, hhooks, hkept,
      doCleanup, AssetResolver.optionalScript, hscript, smoothRelease, hpath] at hinstalled

/-! ### The environment of a retry -/

/-- A round in which the run fails with an infrastructure error and no command does. -/
def smoothRound (result : T) : Round T :=
  ⟨⟨result, some (.infra "canary failed"), id⟩, LocalProvisioner.smooth, smoothRelease,
    ⟨result, none, id⟩⟩

/-- For every provisioner and request: in every batch, after every sequence of outcomes, a retry
finds the cluster of its new lease live and its profile installed, exactly if the request
cannot be served or the release of a lease for it does not act on the cluster. -/
theorem recovery_keeps_environment_iff [Inhabited T] (p : LocalProvisioner)
    (req : ProvisionRequest) :
    (∀ (o : AcquireOutcomes) (w₀ w : World) (lease : Lease) (rounds : List (Round T)),
      p.acquire req false o w₀ = (w, .ok lease) →
        ∀ retry ∈ retries p req (some lease) rounds w, retry.1.Ready retry.2) ↔
      ¬ (p.serves req = true ∧ releaseActs p req = true) := by
  constructor
  · rintro hready ⟨hserves, hacts⟩
    obtain ⟨w, hacquire⟩ :=
      LocalProvisioner.acquire_smooth hserves false ⟨fun _ => false, fun _ _ => false⟩
    obtain ⟨w', hrecreate⟩ := LocalProvisioner.acquire_smooth hserves true w
    apply not_ready_of_releaseActs hacts hserves w'
    apply hready _ _ _ _ [smoothRound default] hacquire (_, p.leaseOf req)
    simp only [retries, runWithBatchLeaseRecovery, smoothRound, id_eq, hrecreate]
    exact List.mem_cons_self
  · intro hnot o w₀ w lease rounds hacquire retry hmem
    obtain ⟨rfl, -, hserves⟩ := LocalProvisioner.acquire_eq_ok hacquire
    have hacts : releaseActs p req = false := by
      by_contra hne
      exact hnot ⟨hserves, by simpa using hne⟩
    obtain ⟨hlease, -, w₁, o', hready, hworld⟩ :=
      retries_of_batch (fun l hl => (Option.some.inj hl).symm) hmem
    rw [hlease, hworld, release_run_eq hacts]
    exact hready

/-- The repository's assets: every profile has its configuration and all its scripts. -/
def sampleProvisioner : LocalProvisioner := ⟨fun name => name = "kind", ⟨"/repo", fun _ => true⟩⟩

def sampleRequest : ProvisionRequest := ⟨.awsLocalStack, "kind", "bench-cli", true, ""⟩

/-- A batch with LocalStack on a reused cluster: the first run fails with an infrastructure error,
and the retry runs without LocalStack, since the cleanup hook of the replaced lease has
removed the new one. -/
theorem retry_without_profile :
    ∃ w retry, sampleProvisioner.acquire sampleRequest false LocalProvisioner.smooth
        ⟨fun _ => false, fun _ _ => false⟩ = (w, .ok (sampleProvisioner.leaseOf sampleRequest)) ∧
      retry ∈ retries sampleProvisioner sampleRequest
        (some (sampleProvisioner.leaseOf sampleRequest)) [smoothRound ()] w ∧
      ¬ retry.1.Ready retry.2 := by
  refine ⟨_, _, rfl, List.mem_cons_self, ?_⟩
  intro hready
  exact absurd (hready.installed rfl) (by decide +kernel)

end EvidraBench.BenchCli
