import Mathlib.Tactic.Common

/-!
# Cluster leases

`LocalProvisioner` creates a cluster through a provider, or takes an existing one by its kubeconfig,
installs the requested profile on it and returns a lease. A lease is released by the profile's
cleanup hook and then the destruction of the cluster; both act on whatever stands behind the name
or the kubeconfig at that moment.

The world is what the commands act on: the clusters by name, and the profiles that are installed
on them. Every command may fail; what it does then is part of the outcomes that a call is given.

Results: `acquire_eq_ok`, `acquire_smooth`.

Source: `pkg/environment/local_provisioner.go`
-/

namespace EvidraBench.Environment

/-! ### Profiles and assets -/

/-- The profiles of `pkg/scenario`; any other string is unsupported.
Source: `pkg/scenario/profile.go` `ExecutionProfile` -/
inductive ExecutionProfile where
  | default
  | argocd
  | awsLocalStack
  | multiNode
  | unsupported (name : String)
deriving DecidableEq

/-- Source: `pkg/scenario/profile.go`, the constants -/
def ExecutionProfile.text : ExecutionProfile → String
  | .default => "default"
  | .argocd => "argocd"
  | .awsLocalStack => "aws-localstack"
  | .multiNode => "multi-node"
  | .unsupported name => name

/-- Source: `pkg/environment/assets.go` `profileRequiresHooks` -/
def profileRequiresHooks : ExecutionProfile → Bool
  | .default | .multiNode => false
  | _ => true

/-- The paths that are used; a script that is absent is empty.
Source: `pkg/environment/assets.go` `ProfileAssets` -/
structure ProfileAssets where
  clusterConfigPath : String
  installScript : String := ""
  healthcheckScript : String := ""
  cleanupScript : String := ""

/-- The asset tree, by the paths that `os.Stat` finds. -/
structure AssetResolver where
  rootDir : String
  stat : String → Bool

/-- The errors of `Acquire` and `Recreate`. -/
inductive ProvisionError where
  /-- `environment.LocalProvisioner.acquire: unknown provider %q` -/
  | unknownProvider (name : String)
  /-- `environment.LocalProvisioner.acquire: unsupported profile %q` -/
  | unsupportedProfile (profile : ExecutionProfile)
  /-- `asset resolver: cluster config not found: %s` -/
  | configNotFound (path : String)
  /-- `asset resolver: install.sh required for profile %q: %s` -/
  | installRequired (profile : ExecutionProfile) (path : String)
  /-- `recreate cluster: %w`, or `create cluster: %w` -/
  | cluster (recreate : Bool) (err : String)
  /-- `profile runner: create work dir: %w` -/
  | workDir (err : String)
  /-- `profile runner: install.sh failed: %w` -/
  | install (err : String)
  /-- `profile runner: healthcheck.sh failed: %w` -/
  | healthcheck (err : String)
  /-- `profile runner: parse lease.env: %w` -/
  | leaseEnv (err : String)

namespace AssetResolver

/-- `clusters/<provider>/<profile>.yaml`. -/
def clusterConfig (r : AssetResolver) (provider : String) (profile : ExecutionProfile) : String :=
  r.rootDir ++ "/clusters/" ++ provider ++ "/" ++ profile.text ++ ".yaml"

def script (r : AssetResolver) (profile : ExecutionProfile) (name : String) : String :=
  r.rootDir ++ "/profiles/" ++ profile.text ++ "/" ++ name

def optionalScript (r : AssetResolver) (profile : ExecutionProfile) (name : String) : String :=
  if r.stat (r.script profile name) then r.script profile name else ""

/-- Source: `pkg/environment/assets.go` `AssetResolver.Resolve` -/
def resolve (r : AssetResolver) (provider : String) (profile : ExecutionProfile) :
    Except ProvisionError ProfileAssets :=
  let profile := if profile = .unsupported "" then .default else profile
  let config := r.clusterConfig provider profile
  if !r.stat config then .error (.configNotFound config)
  else if !profileRequiresHooks profile then .ok { clusterConfigPath := config }
  else
    let install := r.script profile "install.sh"
    if !r.stat install then .error (.installRequired profile install)
    else .ok {
      clusterConfigPath := config
      installScript := install
      healthcheckScript := r.optionalScript profile "healthcheck.sh"
      cleanupScript := r.optionalScript profile "cleanup.sh" }

end AssetResolver

/-! ### The world -/

/-- A kubeconfig: the file that a provider writes for a cluster it made,
`bench-cli-<name>-kubeconfig`, or the path of an existing one. -/
inductive Kubeconfig where
  | generated (clusterName : String)
  | existing (path : String)
deriving DecidableEq

/-- The clusters by name, and the profiles that are installed behind each kubeconfig. -/
structure World where
  clusters : String → Bool
  installed : Kubeconfig → ExecutionProfile → Bool

namespace World

/-- Whether there is a cluster behind a kubeconfig. Existing ones are not made or deleted here. -/
def live (w : World) : Kubeconfig → Bool
  | .generated name => w.clusters name
  | .existing _ => true

/-- A cluster of that name; a fresh one has no profile installed. -/
def make (w : World) (name : String) (fresh : Bool) : World where
  clusters := Function.update w.clusters name true
  installed := if fresh then Function.update w.installed (.generated name) fun _ => false
    else w.installed

def delete (w : World) (name : String) : World where
  clusters := Function.update w.clusters name false
  installed := Function.update w.installed (.generated name) fun _ => false

def setInstalled (w : World) (k : Kubeconfig) (p : ExecutionProfile) (there : Bool) : World :=
  { w with installed := Function.update w.installed k (Function.update (w.installed k) p there) }

@[simp] theorem live_make (w : World) (name : String) (fresh : Bool) :
    (w.make name fresh).live (.generated name) = true := by
  simp [live, make]

@[simp] theorem live_delete (w : World) (name : String) :
    (w.delete name).live (.generated name) = false := by
  simp [live, delete]

@[simp] theorem live_setInstalled (w : World) (k k' : Kubeconfig) (p : ExecutionProfile)
    (there : Bool) : (w.setInstalled k p there).live k' = w.live k' := by
  cases k' <;> rfl

@[simp] theorem installed_setInstalled (w : World) (k : Kubeconfig) (p : ExecutionProfile)
    (there : Bool) : (w.setInstalled k p there).installed k p = there := by
  simp [setInstalled]

end World

/-! ### Profile hooks -/

/-- What the commands of a preparation do. An error is `some` text; `cleanup` says whether the
cleanup hook of a failed preparation did its work. -/
structure HookOutcomes where
  mkdirTemp : Option String
  install : Option String
  healthcheck : Option String
  leaseEnv : Option String
  cleanup : Bool

/-- The release of a prepared profile, with what its closure holds.
Source: `pkg/environment/profile_runner.go` `Prepare`, `release` -/
structure ProfileRelease where
  cleanupScript : String
  kubeconfig : Kubeconfig
  profile : ExecutionProfile
deriving DecidableEq

/-- The cleanup hook takes the profile off the cluster of its kubeconfig; its errors are ignored.
Source: `pkg/environment/profile_runner.go` `Prepare`, `doCleanup` -/
def doCleanup (r : ProfileRelease) (works : Bool) (w : World) : World :=
  if r.cleanupScript ≠ "" && works then w.setInstalled r.kubeconfig r.profile false else w

/-- Source: `pkg/environment/profile_runner.go` `Prepare` -/
def prepare (assets : ProfileAssets) (kubeconfig : Kubeconfig) (profile : ExecutionProfile)
    (o : HookOutcomes) (w : World) : World × Except ProvisionError ProfileRelease :=
  let release : ProfileRelease := ⟨assets.cleanupScript, kubeconfig, profile⟩
  match o.mkdirTemp with
  | some err => (w, .error (.workDir err))
  | none =>
    match o.install with
    | some err => (doCleanup release o.cleanup w, .error (.install err))
    | none =>
      let w := w.setInstalled kubeconfig profile true
      match (if assets.healthcheckScript ≠ "" then o.healthcheck else none) with
      | some err => (doCleanup release o.cleanup w, .error (.healthcheck err))
      | none =>
        match o.leaseEnv with
        | some err => (doCleanup release o.cleanup w, .error (.leaseEnv err))
        | none => (w, .ok release)

/-! ### Leases -/

/-- Source: `pkg/environment/lease.go` `ProvisionRequest` -/
structure ProvisionRequest where
  profile : ExecutionProfile
  providerName : String
  clusterName : String
  reuseCluster : Bool
  existingKubeconfig : String

/-- What the release of a lease does: the cleanup of the profile first, then the destruction of
the cluster of that name.
Source: `composeRelease` -/
structure Release where
  profile : Option ProfileRelease
  cluster : Option String
deriving DecidableEq

/-- Source: `pkg/environment/lease.go` `Lease` -/
structure Lease where
  profile : ExecutionProfile
  kubeconfig : Kubeconfig
  release : Release

/-- What a destruction does: it succeeds, or fails with the cluster gone or not. -/
inductive DestroyOutcome where
  | ok
  | failed (err : String) (gone : Bool)

/-- The provider's `Destroy`, which deletes the cluster by its name. -/
def destroy (name : String) (o : DestroyOutcome) (w : World) : World × Option String :=
  match o with
  | .ok => (w.delete name, none)
  | .failed err gone => (if gone then w.delete name else w, some err)

structure ReleaseOutcomes where
  cleanup : Bool
  destroy : DestroyOutcome

/-- A lease is released once, by the recovery that replaces it or at the end of the batch. An
error of the profile's release is only logged.
Source: `pkg/environment/lease.go` `Lease.Release`; `composeRelease` -/
def Release.run (r : Release) (o : ReleaseOutcomes) (w : World) : World × Option String :=
  let w := match r.profile with
    | some p => doCleanup p o.cleanup w
    | none => w
  match r.cluster with
  | some name => destroy name o.destroy w
  | none => (w, none)

/-! ### The provisioner -/

/-- What the provider's `Create` or `Recreate` does: there is a cluster, fresh or kept, or it
fails, and a cluster of that name is left or not. -/
inductive ClusterOutcome where
  | ok (fresh : Bool)
  | failed (err : String) (left : Bool)

structure AcquireOutcomes where
  cluster : ClusterOutcome
  hooks : HookOutcomes
  destroy : DestroyOutcome

/-- The providers that are not nil, and the assets.
Source: `LocalProvisioner` -/
structure LocalProvisioner where
  providers : String → Bool
  assets : AssetResolver

def ownsCluster (req : ProvisionRequest) : Bool := req.existingKubeconfig == ""

/-- The kubeconfig of the handle that is provisioned. -/
def kubeconfigOf (req : ProvisionRequest) : Kubeconfig :=
  if ownsCluster req then .generated req.clusterName else .existing req.existingKubeconfig

/-- The handle's name is the requested one, so that its kubeconfig says all of it.
Source: `provisionCluster` -/
def provisionCluster (req : ProvisionRequest) (recreate : Bool) (o : ClusterOutcome) (w : World) :
    World × Except ProvisionError Kubeconfig :=
  if !ownsCluster req then (w, .ok (.existing req.existingKubeconfig))
  else
    match o with
    | .ok fresh => (w.make req.clusterName fresh, .ok (.generated req.clusterName))
    | .failed err left =>
        (if left then w else w.delete req.clusterName, .error (.cluster recreate err))

namespace LocalProvisioner

def releaseFunc (p : LocalProvisioner) (req : ProvisionRequest) : Option String :=
  if !ownsCluster req || req.reuseCluster || !p.providers req.providerName then none
  else some req.clusterName

def acquireDefault (p : LocalProvisioner) (req : ProvisionRequest) (recreate : Bool)
    (o : AcquireOutcomes) (w : World) : World × Except ProvisionError Lease :=
  match p.assets.resolve req.providerName req.profile with
  | .error err => (w, .error err)
  | .ok _ =>
    match provisionCluster req recreate o.cluster w with
    | (w, .error err) => (w, .error err)
    | (w, .ok kubeconfig) => (w, .ok ⟨req.profile, kubeconfig, none, p.releaseFunc req⟩)

/-- A cluster with the hooks of its profile; the two profiles that have hooks differ in the
environment that the hooks are run with. -/
def acquireWithHooks (p : LocalProvisioner) (req : ProvisionRequest) (recreate : Bool)
    (o : AcquireOutcomes) (w : World) : World × Except ProvisionError Lease :=
  match p.assets.resolve req.providerName req.profile with
  | .error err => (w, .error err)
  | .ok assets =>
    match provisionCluster req recreate o.cluster w with
    | (w, .error err) => (w, .error err)
    | (w, .ok kubeconfig) =>
      match prepare assets kubeconfig req.profile o.hooks w with
      | (w, .error err) =>
        (if ownsCluster req && !req.reuseCluster then (destroy req.clusterName o.destroy w).1
          else w, .error err)
      | (w, .ok release) =>
        (w, .ok ⟨req.profile, kubeconfig, some release, p.releaseFunc req⟩)

def acquireArgocd := acquireWithHooks

def acquireAWSLocalStack := acquireWithHooks

def acquire (p : LocalProvisioner) (req : ProvisionRequest) (recreate : Bool)
    (o : AcquireOutcomes) (w : World) : World × Except ProvisionError Lease :=
  if !ownsCluster req && req.profile = .default then
    (w, .ok ⟨req.profile, .existing req.existingKubeconfig, none, none⟩)
  else if ownsCluster req && !p.providers req.providerName then
    (w, .error (.unknownProvider req.providerName))
  else
    match req.profile with
    | .default | .multiNode => p.acquireDefault req recreate o w
    | .argocd => p.acquireArgocd req recreate o w
    | .awsLocalStack => p.acquireAWSLocalStack req recreate o w
    | .unsupported name => (w, .error (.unsupportedProfile (.unsupported name)))

end LocalProvisioner

/-! ### What a lease stands for -/

/-- The cluster of a lease exists and the lease's profile is installed on it. -/
structure World.Ready (w : World) (lease : Lease) : Prop where
  live : w.live lease.kubeconfig = true
  installed : profileRequiresHooks lease.profile = true →
    w.installed lease.kubeconfig lease.profile = true

/-- Source: `pkg/scenario/profile.go` `IsSupportedExecutionProfile` -/
def isSupportedExecutionProfile : ExecutionProfile → Bool
  | .unsupported _ => false
  | _ => true

namespace LocalProvisioner

variable {p : LocalProvisioner} {req : ProvisionRequest} {recreate : Bool} {o : AcquireOutcomes}
  {w w' : World} {lease : Lease}

/-- What the release of a lease for a request does. -/
def releaseOf (p : LocalProvisioner) (req : ProvisionRequest) : Release where
  profile :=
    if profileRequiresHooks req.profile then
      some ⟨p.assets.optionalScript req.profile "cleanup.sh", kubeconfigOf req, req.profile⟩
    else none
  cluster := p.releaseFunc req

def leaseOf (p : LocalProvisioner) (req : ProvisionRequest) : Lease :=
  ⟨req.profile, kubeconfigOf req, p.releaseOf req⟩

/-- The request can be served: an existing cluster without a profile to install, or a supported
profile whose assets are there, on an existing cluster or one of a known provider. -/
def serves (p : LocalProvisioner) (req : ProvisionRequest) : Bool :=
  !ownsCluster req && req.profile = .default ||
    (!ownsCluster req || p.providers req.providerName) &&
      isSupportedExecutionProfile req.profile &&
      (p.assets.resolve req.providerName req.profile).toBool

theorem resolve_eq_ok {assets : ProfileAssets}
    (hsupported : isSupportedExecutionProfile req.profile = true)
    (h : p.assets.resolve req.providerName req.profile = .ok assets) :
    assets.cleanupScript =
      if profileRequiresHooks req.profile then p.assets.optionalScript req.profile "cleanup.sh"
      else "" := by
  have hprofile : req.profile ≠ .unsupported "" := by
    intro heq
    rw [heq] at hsupported
    cases hsupported
  simp only [AssetResolver.resolve, if_neg hprofile] at h
  split_ifs at h with hconfig hhooks hinstall
  · obtain rfl := Except.ok.inj h
    rw [if_neg (by simpa using hhooks)]
  · obtain rfl := Except.ok.inj h
    rw [if_pos (by simpa using hhooks)]

theorem provisionCluster_eq_ok {c : ClusterOutcome} {k : Kubeconfig}
    (h : provisionCluster req recreate c w = (w', .ok k)) :
    k = kubeconfigOf req ∧ w'.live k = true := by
  unfold provisionCluster at h
  unfold kubeconfigOf
  cases howns : ownsCluster req with
  | false =>
    simp only [howns, Bool.not_false, if_true, Prod.mk.injEq, Except.ok.injEq] at h
    obtain ⟨rfl, rfl⟩ := h
    exact ⟨rfl, rfl⟩
  | true =>
    cases c with
    | failed err left => simp [howns] at h
    | ok fresh =>
      simp only [howns, Bool.not_true, Bool.false_eq_true, if_false, Prod.mk.injEq,
        Except.ok.injEq] at h
      obtain ⟨rfl, rfl⟩ := h
      exact ⟨rfl, World.live_make w _ _⟩

theorem prepare_eq_ok {assets : ProfileAssets} {k : Kubeconfig} {profile : ExecutionProfile}
    {hooks : HookOutcomes} {release : ProfileRelease}
    (h : prepare assets k profile hooks w = (w', .ok release)) :
    release = ⟨assets.cleanupScript, k, profile⟩ ∧ w' = w.setInstalled k profile true := by
  unfold prepare at h
  split at h
  · cases h
  split at h
  · cases h
  simp only at h
  split at h
  · cases h
  split at h
  · cases h
  cases h
  exact ⟨rfl, rfl⟩

theorem acquireDefault_eq_ok (hhooks : profileRequiresHooks req.profile = false)
    (h : p.acquireDefault req recreate o w = (w', .ok lease)) :
    lease = p.leaseOf req ∧ w'.Ready lease ∧
      (p.assets.resolve req.providerName req.profile).toBool = true := by
  unfold acquireDefault at h
  split at h
  · cases h
  next assets hassets =>
    split at h
    · cases h
    next w₁ k hcluster =>
      cases h
      obtain ⟨rfl, hlive⟩ := provisionCluster_eq_ok hcluster
      refine ⟨by simp [leaseOf, releaseOf, hhooks], ⟨hlive, ?_⟩, by simp [hassets, Except.toBool]⟩
      intro htrue
      rw [hhooks] at htrue
      cases htrue

theorem acquireWithHooks_eq_ok (hsupported : isSupportedExecutionProfile req.profile = true)
    (hhooks : profileRequiresHooks req.profile = true)
    (h : p.acquireWithHooks req recreate o w = (w', .ok lease)) :
    lease = p.leaseOf req ∧ w'.Ready lease ∧
      (p.assets.resolve req.providerName req.profile).toBool = true := by
  unfold acquireWithHooks at h
  split at h
  · cases h
  next assets hassets =>
    split at h
    · cases h
    next w₁ k hcluster =>
      split at h
      · cases h
      next w₂ release hprepare =>
        cases h
        obtain ⟨rfl, hlive⟩ := provisionCluster_eq_ok hcluster
        obtain ⟨rfl, rfl⟩ := prepare_eq_ok hprepare
        have hscript := resolve_eq_ok hsupported hassets
        rw [if_pos hhooks] at hscript
        refine ⟨by simp [leaseOf, releaseOf, hhooks, hscript], ⟨?_, ?_⟩,
          by simp [hassets, Except.toBool]⟩
        · rw [World.live_setInstalled]
          exact hlive
        · intro _
          exact World.installed_setInstalled _ _ _ _

/-- The cases of `acquire`: the existing cluster as it is, two refusals, and the supported
profiles with and without hooks. -/
theorem acquire_eq (p : LocalProvisioner) (req : ProvisionRequest) (recreate : Bool)
    (o : AcquireOutcomes) (w : World) :
    p.acquire req recreate o w =
      if !ownsCluster req && req.profile = .default then (w, .ok (p.leaseOf req))
      else if ownsCluster req && !p.providers req.providerName then
        (w, .error (.unknownProvider req.providerName))
      else if !isSupportedExecutionProfile req.profile then
        (w, .error (.unsupportedProfile req.profile))
      else if profileRequiresHooks req.profile then p.acquireWithHooks req recreate o w
      else p.acquireDefault req recreate o w := by
  obtain ⟨profile, providerName, clusterName, reuseCluster, existingKubeconfig⟩ := req
  unfold acquire
  split_ifs with hexternal
  · simp only [Bool.and_eq_true, Bool.not_eq_true', decide_eq_true_eq] at hexternal
    obtain ⟨howns, rfl⟩ := hexternal
    simp [leaseOf, releaseOf, releaseFunc, kubeconfigOf, howns, profileRequiresHooks]
  · rfl
  all_goals
    cases profile <;>
      first | rfl | simp_all [isSupportedExecutionProfile, profileRequiresHooks]

/-- A lease that is returned is the one of the request; its cluster is live and its profile
installed. -/
theorem acquire_eq_ok (h : p.acquire req recreate o w = (w', .ok lease)) :
    lease = p.leaseOf req ∧ w'.Ready lease ∧ p.serves req = true := by
  rw [acquire_eq] at h
  split_ifs at h with hexternal hunknown hsupported hhooks
  case pos =>
    cases h
    simp only [Bool.and_eq_true, Bool.not_eq_true', decide_eq_true_eq] at hexternal
    obtain ⟨howns, hdefault⟩ := hexternal
    refine ⟨rfl, ⟨by simp [leaseOf, kubeconfigOf, howns, World.live], ?_⟩,
      by simp [serves, howns, hdefault]⟩
    intro htrue
    simp [leaseOf, hdefault, profileRequiresHooks] at htrue
  all_goals try cases h
  all_goals
    simp only [Bool.not_eq_true, Bool.not_eq_false'] at hsupported hhooks
    have hserves : (p.assets.resolve req.providerName req.profile).toBool = true →
        p.serves req = true := by
      intro hassets
      cases howns : ownsCluster req <;> simp_all [serves]
  · obtain ⟨hlease, hready, hassets⟩ := acquireWithHooks_eq_ok hsupported hhooks h
    exact ⟨hlease, hready, hserves hassets⟩
  · obtain ⟨hlease, hready, hassets⟩ := acquireDefault_eq_ok hhooks h
    exact ⟨hlease, hready, hserves hassets⟩

/-! ### A lease where nothing fails -/

def smooth : AcquireOutcomes := ⟨.ok true, ⟨none, none, none, none, true⟩, .ok⟩

theorem acquire_smooth (hserves : p.serves req = true) (recreate : Bool) (w : World) :
    ∃ w', p.acquire req recreate smooth w = (w', .ok (p.leaseOf req)) := by
  suffices hlease : ∃ w' lease, p.acquire req recreate smooth w = (w', .ok lease) by
    obtain ⟨w', lease, hok⟩ := hlease
    obtain ⟨rfl, -, -⟩ := acquire_eq_ok hok
    exact ⟨w', hok⟩
  rw [acquire_eq]
  split_ifs with hexternal hunknown hsupported hhooks
  · exact ⟨_, _, rfl⟩
  · cases howns : ownsCluster req <;> simp_all [serves]
  · simp_all [serves]
  all_goals
    cases hassets : p.assets.resolve req.providerName req.profile with
    | error err => simp_all [serves, Except.toBool]
    | ok assets => ?_
  all_goals cases howns : ownsCluster req
  all_goals
    simp [acquireWithHooks, acquireDefault, hassets, provisionCluster, howns, smooth, prepare]

end LocalProvisioner

end EvidraBench.Environment
