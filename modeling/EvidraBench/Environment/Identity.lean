import EvidraBench.Authority.Matcher

/-!
# Run identities

`pkg/environment/identity.go`: the access-control objects materialized for a run
(`identityManifests`) and the refusals made before (`validateProfileRules`).

`authorizes_manifests_iff` says what the materialized objects let the agent do: the rules rendered
for a namespace inside it, and the cluster rules *everywhere*. The evidence reader's objects are
rendered too and give the agent nothing.
-/

namespace EvidraBench.Environment

open EvidraBench.Gostd EvidraBench.Scenario EvidraBench.Lib EvidraBench.Lib.Rbac
  EvidraBench.Authority

/-! ### Names -/

def identityNamespace : String := "evidra-system"
def agentServiceAccount : String := "evidra-agent"
def evidenceServiceAccount : String := "evidra-evidence"

/-- The principal name of a service account of the run. -/
def userName (sa : String) : String := "system:serviceaccount:" ++ identityNamespace ++ ":" ++ sa

def agentUserName : String := userName agentServiceAccount

/-- `unicode.ToLower`, where it reaches a lower-case ASCII letter. -/
def lowerAscii (c : Char) : Char :=
  if 'A' ≤ c && c ≤ 'Z' then Char.ofNat (c.toNat + 32)
  -- the two letters outside ASCII whose lower case is inside
  else if c = Char.ofNat 0x130 then 'i'
  else if c = Char.ofNat 0x212A then 'k'
  else c

/-- A namespace as a role-name suffix.
Source: `dnsLabel` -/
def dnsLabel (ns : String) : String :=
  let kept := (ns.toList.map lowerAscii).map fun r =>
    if ('a' ≤ r && r ≤ 'z') || ('0' ≤ r && r ≤ '9') then r else '-'
  let trimLeft := fun (cs : List Char) => cs.dropWhile (· = '-')
  String.ofList (trimLeft (trimLeft (kept.take 40)).reverse).reverse

/-- First occurrences, without empty strings.
Source: `dedupe` -/
def dedupeNonEmpty (xs : List String) : List String := dedupe (xs.filter (· ≠ ""))

/-! ### Manifests -/

def roleBinding (role ns sa : String) : Object :=
  .roleBinding (role ++ "-binding") ns role (userName sa)

def clusterRoleBinding (role sa : String) : Object :=
  .clusterRoleBinding (role ++ "-binding") role (userName sa)

/-- Source: `identityManifests`, `roleName` -/
def agentRoleName (ns : String) : String := "evidra-agent-role-" ++ dnsLabel ns

/-- The agent's objects: a role and a binding for each namespace, and for the cluster rules.
Source: `identityManifests` -/
def agentObjects (plan : Plan) : List Object :=
  (plan.roleNamespaces.flatMap fun ns =>
    [.role (agentRoleName ns) ns (plan.rolesByNamespace ns),
      roleBinding (agentRoleName ns) ns agentServiceAccount]) ++
  if plan.clusterRoleRules.isEmpty then []
  else
    [.clusterRole "evidra-agent-cluster-role" plan.clusterRoleRules,
      clusterRoleBinding "evidra-agent-cluster-role" agentServiceAccount]

def evidenceNamespaces (profile : AuthorityProfile) : List String :=
  let named := profile.evidenceReader.namespaces
  let ns := dedupeNonEmpty (if named.isEmpty then
    profile.agent.namespaces ++ profile.protectedResources.map (·.ns) else named)
  if ns.isEmpty then ["default"] else ns

def evResources (profile : AuthorityProfile) : List String :=
  let res := profile.evidenceReader.resources
  dedupeNonEmpty (if res.isEmpty then
    ["pods", "services", "endpoints", "events", "namespaces"] ++
      profile.protectedResources.map (·.resource) else res)

/-- Source: `pkg/scenario/loader.go` `clusterScopedResources` -/
def clusterScopedResources : List String :=
  ["nodes", "namespaces", "persistentvolumes", "clusterroles", "clusterrolebindings",
    "storageclasses", "priorityclasses", "customresourcedefinitions",
    "mutatingwebhookconfigurations", "validatingwebhookconfigurations", "apiservices", "csidrivers"]

/-- Whether an evidence resource is read through the cluster role. -/
def hoisted (r : String) : Bool := clusterScopedResources.contains r && r ≠ "namespaces"

/-- The group an extra grant of the evidence reader is made in.
Source: `identityManifests` -/
def extraGroup (res : String) : String :=
  if ["deployments", "statefulsets", "daemonsets", "replicasets"].contains (cut res '/').1 then
    "apps"
  else ""

/-- The rules of the evidence reader's roles.
Source: `identityManifests`, `evRules` -/
def evRules (profile : AuthorityProfile) : List Rbac.Rule :=
  (["", "apps", "batch", "networking.k8s.io", "rbac.authorization.k8s.io", "policy",
    "autoscaling"].map fun g =>
      ⟨[g], (evResources profile).filter (!hoisted ·), [], ["get", "list", "watch"]⟩) ++
  profile.evidenceReader.extra.map fun extra =>
    let (res, verb, _) := cut extra ':'
    ⟨[extraGroup res], [res], [], [verb]⟩

/-- The evidence reader's objects.
Source: `identityManifests` -/
def evidenceObjects (profile : AuthorityProfile) : List Object :=
  let clusterRes := (evResources profile).filter hoisted
  ((evidenceNamespaces profile).flatMap fun ns =>
    [.role "evidra-evidence-role" ns (evRules profile),
      roleBinding "evidra-evidence-role" ns evidenceServiceAccount]) ++
  if clusterRes.isEmpty then []
  else
    [.clusterRole "evidra-evidence-cluster-role"
        [⟨["", "rbac.authorization.k8s.io", "networking.k8s.io", "storage.k8s.io",
            "apiextensions.k8s.io"], clusterRes, [], ["get", "list", "watch"]⟩,
          ⟨["authorization.k8s.io"], ["subjectaccessreviews"], [], ["create"]⟩],
      clusterRoleBinding "evidra-evidence-cluster-role" evidenceServiceAccount]

/-- The objects a profile dictates, in apply order; an error is the source's panic. A namespace is
taken as given: which one `kubectl` picks for an object without namespace is outside the
model.
Source: `identityManifests` -/
def identityManifests (profile : AuthorityProfile) : Except String (List Object) :=
  match compile (some profile) "" with
  | .ok (some plan) => .ok (
      [.other "Namespace" identityNamespace "",
        .other "ServiceAccount" agentServiceAccount identityNamespace,
        .other "ServiceAccount" evidenceServiceAccount identityNamespace] ++
      agentObjects plan ++ evidenceObjects profile)
  | .ok none => .error "identity: no plan"
  | .error e => .error ("identity: authority compile: " ++ e)

/-! ### Refusals -/

def readVerbs : List String := ["get", "list", "watch"]

/-- The namespaces of a rule.
Source: `ValidateProfileRules`, `scopeOf` -/
def scopeOf (profile : AuthorityProfile) (rule : PolicyRule) : List String :=
  if rule.namespaces.isEmpty then profile.agent.namespaces else rule.namespaces

/-- The refusal of a rule over a protected object, if there is one.
Source: `ValidateProfileRules`, the inner loop body -/
def refusal (profile : AuthorityProfile) (rule : PolicyRule) (prot : ProtectedResource) :
    List String :=
  if !(rule.resources.contains prot.resource || rule.resources.contains "*") then []
  else if !(scopeOf profile rule).contains prot.ns then []
  else if rule.resourceNames.isEmpty then
    [prot.ns ++ ": verbs " ++ formatList rule.verbs ++ " on " ++ prot.ns ++ "/" ++ prot.resource ++
      " granted by wildcard (protected: " ++ prot.ns ++ "/" ++ prot.name ++ ")"]
  else if rule.resourceNames.contains prot.name then
    [prot.ns ++ ": verbs " ++ formatList rule.verbs ++ " explicitly granted on protected " ++
      prot.ns ++ "/" ++ prot.name]
  else []

def validateProfileRules (profile : AuthorityProfile) : Except String Unit :=
  let out := profile.agent.rules.flatMap fun rule =>
    if rule.verbs.any fun v => v == "*" || !readVerbs.contains v then
      profile.protectedResources.flatMap (refusal profile rule)
    else []
  require out.isEmpty
    ("identity: authority profile grants agent writes on protected resources: " ++
      join (dedupeNonEmpty out) "; ")

/-! ### What the agent may do -/

theorem agentRoleName_ne (ns : String) : agentRoleName ns ≠ "evidra-evidence-role" := by
  unfold agentRoleName
  generalize dnsLabel ns = label
  intro h
  have hchars : (("evidra-agent-role-" ++ label).toList).take 8 =
      "evidra-evidence-role".toList.take 8 := by rw [h]
  have hlen : 8 ≤ "evidra-agent-role-".toList.length := by decide
  rw [String.toList_append, List.take_append_of_le_length hlen] at hchars
  exact absurd hchars (by decide)

theorem userName_evidence_ne : userName evidenceServiceAccount ≠ agentUserName := by decide

section agent

variable {plan : Plan} {profile : AuthorityProfile} {name ns role : String}
  {rules : List Rbac.Rule}

theorem mem_agentObjects {o : Object} :
    o ∈ agentObjects plan ↔
      (∃ ns ∈ plan.roleNamespaces, o = .role (agentRoleName ns) ns (plan.rolesByNamespace ns) ∨
        o = .roleBinding (agentRoleName ns ++ "-binding") ns (agentRoleName ns) agentUserName) ∨
      (plan.clusterRoleRules ≠ [] ∧
        (o = .clusterRole "evidra-agent-cluster-role" plan.clusterRoleRules ∨
          o = .clusterRoleBinding ("evidra-agent-cluster-role" ++ "-binding")
            "evidra-agent-cluster-role" agentUserName)) := by
  rw [agentObjects, List.mem_append, List.mem_flatMap]
  refine or_congr (exists_congr fun ns => ?_) ?_
  · simp [roleBinding, agentUserName]
  · by_cases h : plan.clusterRoleRules = [] <;> simp [h, clusterRoleBinding, agentUserName]

theorem roleBinding_mem_agentObjects :
    .roleBinding name ns role agentUserName ∈ agentObjects plan ↔
      ns ∈ plan.roleNamespaces ∧ role = agentRoleName ns ∧
        name = agentRoleName ns ++ "-binding" := by
  rw [mem_agentObjects]
  constructor
  · rintro (⟨ns', hns, h | h⟩ | ⟨-, h | h⟩) <;> cases h
    exact ⟨hns, rfl, rfl⟩
  · rintro ⟨hns, rfl, rfl⟩
    exact Or.inl ⟨ns, hns, Or.inr rfl⟩

theorem role_mem_agentObjects :
    .role role ns rules ∈ agentObjects plan ↔
      ns ∈ plan.roleNamespaces ∧ role = agentRoleName ns ∧ rules = plan.rolesByNamespace ns := by
  rw [mem_agentObjects]
  constructor
  · rintro (⟨ns', hns, h | h⟩ | ⟨-, h | h⟩) <;> cases h
    exact ⟨hns, rfl, rfl⟩
  · rintro ⟨hns, rfl, rfl⟩
    exact Or.inl ⟨ns, hns, Or.inl rfl⟩

theorem clusterRole_mem_agentObjects :
    .clusterRole role rules ∈ agentObjects plan ↔ plan.clusterRoleRules ≠ [] ∧
      role = "evidra-agent-cluster-role" ∧ rules = plan.clusterRoleRules := by
  rw [mem_agentObjects]
  constructor
  · rintro (⟨ns', -, h | h⟩ | ⟨hne, h | h⟩) <;> cases h
    exact ⟨hne, rfl, rfl⟩
  · rintro ⟨hne, rfl, rfl⟩
    exact Or.inr ⟨hne, Or.inl rfl⟩

theorem clusterRoleBinding_mem_agentObjects :
    .clusterRoleBinding name role agentUserName ∈ agentObjects plan ↔
      plan.clusterRoleRules ≠ [] ∧ name = "evidra-agent-cluster-role" ++ "-binding" ∧
        role = "evidra-agent-cluster-role" := by
  rw [mem_agentObjects]
  constructor
  · rintro (⟨ns', -, h | h⟩ | ⟨hne, h | h⟩) <;> cases h
    exact ⟨hne, rfl, rfl⟩
  · rintro ⟨hne, rfl, rfl⟩
    exact Or.inr ⟨hne, Or.inr rfl⟩

theorem binding_not_mem_evidenceObjects :
    .roleBinding name ns role agentUserName ∉ evidenceObjects profile ∧
      .clusterRoleBinding name role agentUserName ∉ evidenceObjects profile := by
  have hne := userName_evidence_ne.symm
  unfold evidenceObjects
  dsimp only
  split_ifs <;> simp [roleBinding, clusterRoleBinding, hne]

theorem role_not_mem_evidenceObjects :
    .role (agentRoleName ns) ns rules ∉ evidenceObjects profile ∧
      .clusterRole "evidra-agent-cluster-role" rules ∉ evidenceObjects profile := by
  have hne := agentRoleName_ne ns
  unfold evidenceObjects
  dsimp only
  split_ifs <;> simp [roleBinding, clusterRoleBinding, hne]

end agent

theorem rendered_eq_of_compiled {profile : AuthorityProfile} {p p' : Plan}
    (h : Compiled profile p) (h' : Compiled profile p') :
    p.rolesByNamespace = p'.rolesByNamespace ∧ p.roleNamespaces = p'.roleNamespaces ∧
      p.clusterRoleRules = p'.clusterRoleRules := by
  unfold Plan.rolesByNamespace Plan.roleNamespaces Plan.clusterRoleRules
  rw [h.allRules, h'.allRules, h.agentNamespace, h'.agentNamespace]
  exact ⟨rfl, rfl, rfl⟩

theorem mem_roleNamespaces_of_rule {p : Plan} {ns : String} {rr : Rbac.Rule}
    (h : rr ∈ p.rolesByNamespace ns) : ns ∈ p.roleNamespaces := by
  obtain ⟨r, hr, hc, hns, -⟩ := mem_rolesByNamespace.mp h
  unfold Plan.roleNamespaces
  simp only [mem_sortStrings, mem_dedupe, List.mem_flatMap, List.mem_filter, Bool.not_eq_true']
  exact ⟨r, ⟨hr, hc⟩, hns⟩

section manifests

variable {profile : AuthorityProfile} {objs : List Object} {plan : Plan} {name ns role : String}
  {rules : List Rbac.Rule} (hplan : compile (some profile) "" = .ok (some plan))
  (hobjs : identityManifests profile = .ok objs)
include hplan hobjs

theorem mem_manifests {o : Object} (ho : ∀ kind name ns, o ≠ .other kind name ns) :
    o ∈ objs ↔ o ∈ agentObjects plan ∨ o ∈ evidenceObjects profile := by
  rw [identityManifests, hplan] at hobjs
  rw [← Except.ok.inj hobjs]
  simp [ho]

theorem roleBinding_mem_manifests :
    .roleBinding name ns role agentUserName ∈ objs ↔
      ns ∈ plan.roleNamespaces ∧ role = agentRoleName ns ∧
        name = agentRoleName ns ++ "-binding" := by
  rw [mem_manifests hplan hobjs (by simp), roleBinding_mem_agentObjects]
  exact or_iff_left binding_not_mem_evidenceObjects.1

theorem role_mem_manifests :
    .role (agentRoleName ns) ns rules ∈ objs ↔
      ns ∈ plan.roleNamespaces ∧ rules = plan.rolesByNamespace ns := by
  rw [mem_manifests hplan hobjs (by simp), role_mem_agentObjects]
  simpa only [true_and] using or_iff_left role_not_mem_evidenceObjects.1

theorem clusterRoleBinding_mem_manifests :
    .clusterRoleBinding name role agentUserName ∈ objs ↔
      plan.clusterRoleRules ≠ [] ∧ name = "evidra-agent-cluster-role" ++ "-binding" ∧
        role = "evidra-agent-cluster-role" := by
  rw [mem_manifests hplan hobjs (by simp), clusterRoleBinding_mem_agentObjects]
  exact or_iff_left (@binding_not_mem_evidenceObjects profile name "" role).2

theorem clusterRole_mem_manifests :
    .clusterRole "evidra-agent-cluster-role" rules ∈ objs ↔
      plan.clusterRoleRules ≠ [] ∧ rules = plan.clusterRoleRules := by
  rw [mem_manifests hplan hobjs (by simp), clusterRole_mem_agentObjects]
  simpa only [true_and] using or_iff_left (@role_not_mem_evidenceObjects profile "" rules).2

end manifests

theorem compiled_of_identityManifests {profile : AuthorityProfile} {objs : List Object}
    (h : identityManifests profile = .ok objs) : ∃ p, compile (some profile) "" = .ok (some p) := by
  unfold identityManifests at h
  rcases hcompile : compile (some profile) "" with e | _ | p
  · simp [hcompile] at h
  · simp [hcompile] at h
  · exact ⟨p, rfl⟩

/-- What the materialized objects let the agent do: the rules of a namespace inside it, the
cluster rules everywhere. -/
theorem authorizes_manifests_iff {profile : AuthorityProfile} {objs : List Object} {plan : Plan}
    (hobjs : identityManifests profile = .ok objs) (hplan : Compiled profile plan) {q : Request} :
    authorizes objs agentUserName q ↔
      allowsAny (plan.rolesByNamespace q.ns) q ∨ allowsAny plan.clusterRoleRules q := by
  obtain ⟨p, hp⟩ := compiled_of_identityManifests hobjs
  obtain ⟨hroles, -, hcluster⟩ := rendered_eq_of_compiled hplan (compile_ok hp)
  rw [hroles, hcluster, authorizes_iff]
  constructor
  · rintro (⟨name, role, rules, hb, hr, hq⟩ | ⟨name, role, rules, hb, hr, hq⟩)
    · obtain ⟨-, rfl, -⟩ := (roleBinding_mem_manifests hp hobjs).mp hb
      obtain ⟨-, rfl⟩ := (role_mem_manifests hp hobjs).mp hr
      exact Or.inl hq
    · obtain ⟨-, -, rfl⟩ := (clusterRoleBinding_mem_manifests hp hobjs).mp hb
      obtain ⟨-, rfl⟩ := (clusterRole_mem_manifests hp hobjs).mp hr
      exact Or.inr hq
  · rintro (hq | hq)
    · obtain ⟨rr, hrr, -⟩ := List.any_eq_true.mp hq
      have hns := mem_roleNamespaces_of_rule hrr
      exact Or.inl ⟨_, _, _, (roleBinding_mem_manifests hp hobjs).mpr ⟨hns, rfl, rfl⟩,
        (role_mem_manifests hp hobjs).mpr ⟨hns, rfl⟩, hq⟩
    · obtain ⟨rr, hrr, -⟩ := List.any_eq_true.mp hq
      have hne := List.ne_nil_of_mem hrr
      exact Or.inr ⟨_, _, _, (clusterRoleBinding_mem_manifests hp hobjs).mpr ⟨hne, rfl, rfl⟩,
        (clusterRole_mem_manifests hp hobjs).mpr ⟨hne, rfl⟩, hq⟩

end EvidraBench.Environment
