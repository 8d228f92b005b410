import EvidraBench.Environment.Identity

/-!
# What the materialized roles hand out

The objects of `identityManifests` against the matcher and against the protected objects.

Results: `authorized_granted_iff`, `protected_unreachable_iff`.

Source: `pkg/authority/plan.go`
-/

namespace EvidraBench.Environment

open EvidraBench.Gostd EvidraBench.Scenario EvidraBench.Lib EvidraBench.Lib.Rbac
  EvidraBench.Authority EvidraBench.Evaluation

/-! ### Rules as the API server reads them -/

def requestOf (a : Action) : Request :=
  ⟨a.verb, a.apiGroup, a.resource, a.subresource, a.ns, a.name⟩

@[simp] theorem target_requestOf (a : Action) : (requestOf a).target = a.key := by
  unfold requestOf Request.target Action.key
  split_ifs <;> simp_all

@[simp] theorem requestOf_ns (a : Action) : (requestOf a).ns = a.ns := rfl

/-- Whether a binding of the rendered rule reaches a namespace. -/
def bound (r : Authority.Rule) (agentNS : List String) (ns : String) : Bool :=
  r.cluster || (r.scope agentNS).contains ns

/-- Whether the rendered rule covers the object of an action. -/
def coversObject (r : Authority.Rule) (a : Action) : Bool :=
  covers r.apiGroups a.apiGroup && covers r.render.resources a.key &&
    (r.resourceNames.isEmpty || r.resourceNames.contains a.name)

/-- Whether a compiled rule, once rendered and bound, authorizes an action. -/
def ruleAuthorizes (r : Authority.Rule) (agentNS : List String) (a : Action) : Bool :=
  bound r agentNS a.ns && coversObject r a && r.render.verbs.contains a.verb

theorem star_not_mem_render (r : Authority.Rule) : "*" ∉ r.render.verbs := by
  unfold Rule.render
  have hsafe : "*" ∉ safeWildcardVerbs := by decide
  by_cases hs : "*" ∈ r.verbs
  · simp [hs, hsafe]
  · simp [hs]

theorem allows_render {r : Authority.Rule} {a : Action} :
    r.render.allows (requestOf a) = (coversObject r a && r.render.verbs.contains a.verb) := by
  have hgroups : r.render.apiGroups = r.apiGroups := rfl
  have hnames : r.render.resourceNames = r.resourceNames := rfl
  unfold Rule.allows coversObject
  rw [target_requestOf, hgroups, hnames]
  simp [covers, requestOf, star_not_mem_render]

section authorized

variable {profile : AuthorityProfile} {objs : List Object} {p : Plan}
  (hobjs : identityManifests profile = .ok objs) (hp : Compiled profile p)
include hobjs hp

/-- The materialized objects authorize an action of the agent exactly when some rule of the plan
does. -/
theorem authorized_iff_rule {a : Action} :
    authorizes objs agentUserName (requestOf a) ↔
      ∃ r ∈ p.allRules, ruleAuthorizes r p.agentNamespace a := by
  rw [authorizes_manifests_iff hobjs hp]
  unfold allowsAny ruleAuthorizes bound
  simp only [List.any_eq_true, mem_rolesByNamespace, mem_clusterRoleRules, Bool.and_eq_true,
    Bool.or_eq_true, List.contains_eq_mem, decide_eq_true_eq]
  constructor
  · rintro (⟨_, ⟨r, hr, hc, hns, rfl⟩, ha⟩ | ⟨_, ⟨r, hr, hc, rfl⟩, ha⟩) <;>
      rw [allows_render] at ha
    · exact ⟨r, hr, ⟨Or.inr hns, by simp_all⟩, by simp_all⟩
    · exact ⟨r, hr, ⟨Or.inl hc, by simp_all⟩, by simp_all⟩
  · rintro ⟨r, hr, ⟨hb, hcov⟩, hverb⟩
    have ha : r.render.allows (requestOf a) := by
      rw [allows_render]
      simp [hcov, hverb]
    cases hc : r.cluster
    · exact Or.inl ⟨_, ⟨r, hr, hc, by simpa [hc] using hb, rfl⟩, ha⟩
    · exact Or.inr ⟨_, ⟨r, hr, hc, rfl⟩, ha⟩

end authorized

/-! ### Authorized and granted -/

/-- Whether a rule is about an action exactly: in the action's own scope, listing the resource or
pair itself, and not by name when the action has no name. -/
def aboutExactly (r : Authority.Rule) (a : Action) : Bool :=
  (!r.cluster || a.ns == "") &&
    (r.resources.contains a.key ||
      (r.resources.contains a.resource && r.subresources.contains a.key)) &&
    (r.resourceNames.isEmpty || a.name ≠ "")

theorem nsIn_iff {r : Authority.Rule} {agentNS : List String} {ns : String} :
    r.nsIn ns agentNS ↔ bound r agentNS ns ∧ (r.cluster = false ∨ ns = "") := by
  unfold Rule.nsIn bound
  cases r.cluster <;> simp

theorem resource_tests_iff {r : Authority.Rule} {a : Action} :
    (a.resource ∈ r.resources ∨ a.key ∈ r.resources) ∧
      (a.subresource = "" ∨ a.key ∈ r.resources ∨ a.key ∈ r.subresources) ↔
    a.key ∈ r.resources ∨ (a.resource ∈ r.resources ∧ a.key ∈ r.subresources) := by
  by_cases hs : a.subresource = ""
  · have hkey : a.key = a.resource := by simp [Action.key, hs]
    rw [hkey]
    tauto
  · tauto

theorem nsIn_matches_iff {r : Authority.Rule} {agentNS : List String} {a : Action} :
    r.nsIn a.ns agentNS ∧ r.matches_ a ↔
      bound r agentNS a.ns ∧ coversObject r a ∧ aboutExactly r a := by
  have hexact : aboutExactly r a ↔ (r.cluster = false ∨ a.ns = "") ∧
      (a.key ∈ r.resources ∨ (a.resource ∈ r.resources ∧ a.key ∈ r.subresources)) ∧
      (r.resourceNames = [] ∨ a.name ≠ "") := by
    simp [aboutExactly, and_assoc]
  have hcovers : coversObject r a ↔ (a.apiGroup ∈ r.apiGroups ∨ "*" ∈ r.apiGroups) ∧
      ("*" ∈ r.render.resources ∨ a.key ∈ r.resources ∨ a.key ∈ r.subresources) ∧
      (r.resourceNames = [] ∨ a.name ∈ r.resourceNames) := by
    simp [coversObject, covers, and_assoc, or_comm]
  rw [matches_iff, groupAllowed_iff, nsIn_iff, hexact, hcovers]
  constructor
  · rintro ⟨⟨hb, hc⟩, hg, hres₁, hres₂, hname⟩
    have hres := resource_tests_iff.mp ⟨hres₁, hres₂⟩
    exact ⟨hb, ⟨hg, Or.inr (hres.imp_right And.right), hname.imp_right And.right⟩, hc, hres,
      hname.imp_right And.left⟩
  · rintro ⟨hb, ⟨hg, -, hname⟩, hc, hres, hname'⟩
    obtain ⟨hres₁, hres₂⟩ := resource_tests_iff.mpr hres
    refine ⟨⟨hb, hc⟩, hg, hres₁, hres₂, ?_⟩
    rcases hname' with h | h
    · exact Or.inl h
    · exact hname.imp_right fun hmem => ⟨h, hmem⟩

/-- A mutation verb the matcher allows is rendered, or is a `deletecollection` listed beside the
wildcard. -/
theorem verbAllowed_iff_render {r : Authority.Rule} (hr : r.Canonical) {v : String}
    (hv : v ∈ mutationVerbs) :
    r.verbAllowed v ↔ v ∈ r.render.verbs ∨
      (v = "deletecollection" ∧ "deletecollection" ∈ r.verbs ∧ "*" ∈ r.verbs) := by
  rw [verbAllowed_iff hr hv, mem_render_verbs hv]
  by_cases hdc : v = "deletecollection"
  · subst hdc
    tauto
  · tauto

/-- **Authorized and granted.** For a mutation that touches nothing protected, the matcher grants
what the materialized roles authorize exactly when, if any rule authorizes it, one that does is
about it exactly, or else a rule about it exactly lists `deletecollection` beside the wildcard.
Source: `Plan.Classify`; `pkg/environment/identity.go` `identityManifests` -/
theorem authorized_granted_iff {scenarioID agentIdentity : String} {profile : AuthorityProfile}
    {p : Plan} {objs : List Object}
    (hvalid : validateAuthorityProfile scenarioID (some profile) = .ok ())
    (hcompile : compile (some profile) agentIdentity = .ok (some p))
    (hobjs : identityManifests profile = .ok objs) {a : Action} (hmut : a.verb ∈ mutationVerbs)
    (hfree : p.protectedHit a = false) :
    (authorizes objs agentUserName (requestOf a) → p.classify a = .granted) ↔
      ((∃ r ∈ p.allRules, ruleAuthorizes r p.agentNamespace a) →
        (∃ r ∈ p.allRules, ruleAuthorizes r p.agentNamespace a ∧ aboutExactly r a) ∨
        ∃ r ∈ p.allRules, bound r p.agentNamespace a.ns ∧ coversObject r a ∧ aboutExactly r a ∧
          a.verb = "deletecollection" ∧ "deletecollection" ∈ r.verbs ∧ "*" ∈ r.verbs) := by
  have hcanon := canonical_of_validated hvalid hcompile
  rw [authorized_iff_rule hobjs (compile_ok hcompile),
    classify_granted_iff (compile_ok hcompile) hcanon hmut]
  refine imp_congr_right fun _ => ?_
  simp only [hfree, true_and]
  constructor
  · rintro ⟨r, hr, hns, hmatch, hverb⟩
    obtain ⟨hb, hcov, hex⟩ := nsIn_matches_iff.mp ⟨hns, hmatch⟩
    rcases (verbAllowed_iff_render (hcanon r hr) hmut).mp hverb with hv | hdc
    · exact Or.inl ⟨r, hr, by simp [ruleAuthorizes, hb, hcov, hv], hex⟩
    · exact Or.inr ⟨r, hr, hb, hcov, hex, hdc⟩
  · rintro (⟨r, hr, hauth, hex⟩ | ⟨r, hr, hb, hcov, hex, hdc⟩)
    · simp only [ruleAuthorizes, Bool.and_eq_true, List.contains_eq_mem, decide_eq_true_eq] at hauth
      obtain ⟨⟨hb, hcov⟩, hv⟩ := hauth
      obtain ⟨hns, hmatch⟩ := nsIn_matches_iff.mpr ⟨hb, hcov, hex⟩
      exact ⟨r, hr, hns, hmatch, (verbAllowed_iff_render (hcanon r hr) hmut).mpr (Or.inl hv)⟩
    · obtain ⟨hns, hmatch⟩ := nsIn_matches_iff.mpr ⟨hb, hcov, hex⟩
      exact ⟨r, hr, hns, hmatch, (verbAllowed_iff_render (hcanon r hr) hmut).mpr (Or.inr hdc)⟩

/-- A profile whose only write is a cluster-scoped rule, with one protected secret. -/
def clusterProfile (resource : String) : AuthorityProfile :=
  { agent :=
      { namespaces := ["bench"]
        clusterScopedRules := [{ resources := [resource], verbs := ["patch"] }] }
    protectedResources := [{ resource := "secrets", ns := "bench", name := "db" }] }

def planOf (profile : AuthorityProfile) : Plan :=
  match compile (some profile) agentUserName with
  | .ok (some p) => p
  | _ => ⟨"", [], [], [], [], [], ""⟩

def manifestsOf (profile : AuthorityProfile) : List Object :=
  match identityManifests profile with
  | .ok objs => objs
  | .error _ => []

/-- A patch of a config map, in a namespace or in none. -/
def configMapPatch (ns : String) : Action :=
  { verb := "patch", resource := "configmaps", ns, name := "x" }

/-- Without namespace the cluster rule authorizes and the matcher grants. -/
theorem authorized_granted_iff_cluster :
    (planOf (clusterProfile "configmaps")).classify (configMapPatch "") = .granted :=
  (@authorized_granted_iff "s" agentUserName (clusterProfile "configmaps")
    (planOf (clusterProfile "configmaps")) (manifestsOf (clusterProfile "configmaps")) (by decide)
    (by decide) (by decide) (configMapPatch "") (by decide) (by decide)).mpr
      (fun _ => Or.inl (by decide)) (by decide)

/-- Inside a namespace the cluster rule authorizes too, and the matcher does not grant. -/
theorem authorized_not_granted :
    validateAuthorityProfile "s" (some (clusterProfile "configmaps")) = .ok () ∧
    compile (some (clusterProfile "configmaps")) agentUserName =
      .ok (some (planOf (clusterProfile "configmaps"))) ∧
    identityManifests (clusterProfile "configmaps") =
      .ok (manifestsOf (clusterProfile "configmaps")) ∧
    (planOf (clusterProfile "configmaps")).protectedHit (configMapPatch "bench") = false ∧
    authorizes (manifestsOf (clusterProfile "configmaps")) agentUserName
      (requestOf (configMapPatch "bench")) ∧
    (planOf (clusterProfile "configmaps")).classify (configMapPatch "bench") = .outOfScope := by
  decide

/-! ### Protected objects -/

/-- The resources a declared rule is rendered to: bases and pairs. -/
def renderedResources (rule : PolicyRule) : List String :=
  baseResources rule.resources ++ subresourcePairs rule.resources rule.subresources

def hasWrite (rule : PolicyRule) : Bool := rule.verbs.any fun v => v == "*" || isMutation v

/-- Whether a declared rule, once rendered, writes to a protected object it reaches. -/
def writesOn (rule : PolicyRule) (prot : ProtectedResource) : Bool :=
  hasWrite rule && covers (renderedResources rule) prot.resource &&
    (rule.resourceNames.isEmpty || rule.resourceNames.contains prot.name)

/-- A profile none of whose *unchecked* rules writes to a protected object: no cluster-scoped rule,
and no rule of the object's namespace that lists neither the resource nor `*` but is rendered to
one of them. -/
def UncheckedRulesKeepOut (profile : AuthorityProfile) : Prop :=
  ∀ prot ∈ profile.protectedResources,
    (∀ rule ∈ profile.agent.clusterScopedRules, ¬ writesOn rule prot) ∧
    ∀ rule ∈ profile.agent.rules, prot.ns ∈ scopeOf profile rule →
      prot.resource ∉ rule.resources → "*" ∉ rule.resources → ¬ writesOn rule prot

instance (profile : AuthorityProfile) : Decidable (UncheckedRulesKeepOut profile) :=
  inferInstanceAs (Decidable (∀ prot ∈ profile.protectedResources,
    (∀ rule ∈ profile.agent.clusterScopedRules, ¬ writesOn rule prot) ∧
    ∀ rule ∈ profile.agent.rules, prot.ns ∈ scopeOf profile rule →
      prot.resource ∉ rule.resources → "*" ∉ rule.resources → ¬ writesOn rule prot))

theorem covers_ruleOf (cluster : Bool) (rule : PolicyRule) (x : String) :
    covers (ruleOf cluster rule).render.resources x = covers (renderedResources rule) x := by
  unfold covers
  have hmem : ∀ y, y ∈ (ruleOf cluster rule).render.resources ↔ y ∈ renderedResources rule := by
    intro y
    rw [mem_render_resources]
    simp [renderedResources, ruleOf]
  simp [hmem]

theorem hasWrite_of_render {cluster : Bool} {rule : PolicyRule} {v : String}
    (hv : v ∈ mutationVerbs) (h : v ∈ (ruleOf cluster rule).render.verbs) : hasWrite rule := by
  unfold hasWrite
  rw [List.any_eq_true]
  rcases (mem_render_verbs hv).mp h with ⟨-, h⟩ | ⟨h, -⟩
  · exact ⟨v, by simpa [ruleOf] using h, by simpa [isMutation] using Or.inr hv⟩
  · exact ⟨"*", by simpa [ruleOf] using h, by simp⟩

theorem exists_render_of_hasWrite (cluster : Bool) {rule : PolicyRule} (h : hasWrite rule) :
    ∃ v ∈ mutationVerbs, v ∈ (ruleOf cluster rule).render.verbs := by
  by_cases hs : "*" ∈ rule.verbs
  · refine ⟨"create", by decide, ?_⟩
    rw [mem_render_verbs (by decide)]
    exact Or.inr ⟨by simpa [ruleOf] using hs, by decide⟩
  · obtain ⟨v, hmem, hv⟩ := List.any_eq_true.mp h
    have hne : v ≠ "*" := fun heq => hs (heq ▸ hmem)
    have hv : v ∈ mutationVerbs := by simpa [hne, isMutation] using hv
    refine ⟨v, hv, ?_⟩
    rw [mem_render_verbs hv]
    exact Or.inl ⟨by simpa [ruleOf] using hs, by simpa [ruleOf] using hmem⟩

theorem exists_group (cluster : Bool) (rule : PolicyRule) :
    ∃ g, covers (ruleOf cluster rule).apiGroups g := by
  have hne : (ruleOf cluster rule).apiGroups ≠ [] := by
    unfold ruleOf normGroups
    dsimp only
    split_ifs with h
    · simp
    · simpa using h
  obtain ⟨g, hg⟩ := List.exists_mem_of_ne_nil _ hne
  exact ⟨g, by simp [covers, hg]⟩

theorem mem_scope_ruleOf {profile : AuthorityProfile} {rule : PolicyRule} {ns : String} :
    ns ∈ (ruleOf false rule).scope (dedupe profile.agent.namespaces) ↔
      ns ∈ scopeOf profile rule := by
  unfold Rule.scope scopeOf ruleOf
  by_cases h : rule.namespaces = [] <;> simp [h]

/-- Some mutation of a protected object is authorized by a rule exactly when the rule is bound in
the object's namespace and writes to it. -/
theorem exists_authorized_iff {cluster : Bool} {rule : PolicyRule} {agentNS : List String}
    {prot : ProtectedResource} :
    (∃ a : Action, a.verb ∈ mutationVerbs ∧ a.ns = prot.ns ∧ a.key = prot.resource ∧
      a.name = prot.name ∧ ruleAuthorizes (ruleOf cluster rule) agentNS a) ↔
    bound (ruleOf cluster rule) agentNS prot.ns ∧ writesOn rule prot := by
  have hnames : ∀ name, ((ruleOf cluster rule).resourceNames.isEmpty ||
      (ruleOf cluster rule).resourceNames.contains name) =
      (rule.resourceNames.isEmpty || rule.resourceNames.contains name) := by
    intro name
    simp [ruleOf]
  unfold ruleAuthorizes coversObject writesOn
  simp only [covers_ruleOf, hnames]
  simp only [Bool.and_eq_true, List.contains_eq_mem, decide_eq_true_eq]
  constructor
  · rintro ⟨a, hmut, hns, hkey, hname, ⟨hb, ⟨-, hres⟩, hn⟩, hv⟩
    rw [hns] at hb
    rw [hkey] at hres
    rw [hname] at hn
    exact ⟨hb, ⟨hasWrite_of_render hmut hv, hres⟩, hn⟩
  · rintro ⟨hb, ⟨hw, hres⟩, hn⟩
    obtain ⟨v, hmut, hv⟩ := exists_render_of_hasWrite cluster hw
    obtain ⟨g, hg⟩ := exists_group cluster rule
    refine ⟨⟨"", v, prot.resource, prot.ns, prot.name, g, ""⟩, hmut, rfl, by simp [Action.key],
      rfl, ⟨hb, ⟨hg, ?_⟩, hn⟩, hv⟩
    simpa [Action.key] using hres

theorem looked_at_of_hasWrite {rule : PolicyRule} (h : hasWrite rule) :
    rule.verbs.any (fun v => v == "*" || !readVerbs.contains v) := by
  have hread : ∀ v ∈ mutationVerbs, v ∉ readVerbs := by decide
  obtain ⟨v, hmem, hv⟩ := List.any_eq_true.mp h
  refine List.any_eq_true.mpr ⟨v, hmem, ?_⟩
  by_cases hs : v = "*"
  · simp [hs]
  · have hv : v ∈ mutationVerbs := by simpa [hs, isMutation] using hv
    simp [hread v hv]

/-- The refusal check keeps out every rule that lists the protected resource, or `*`, in its
namespace. -/
theorem not_writesOn_of_listed {profile : AuthorityProfile}
    (h : validateProfileRules profile = .ok ()) {rule : PolicyRule}
    (hrule : rule ∈ profile.agent.rules) {prot : ProtectedResource}
    (hprot : prot ∈ profile.protectedResources)
    (hres : prot.resource ∈ rule.resources ∨ "*" ∈ rule.resources)
    (hns : prot.ns ∈ scopeOf profile rule) : ¬ writesOn rule prot := by
  intro hw
  simp only [writesOn, Bool.and_eq_true] at hw
  obtain ⟨⟨hwrite, -⟩, hname⟩ := hw
  simp only [validateProfileRules, require_eq_ok, List.isEmpty_iff, List.flatMap_eq_nil_iff] at h
  have hnone := h rule hrule
  rw [if_pos (looked_at_of_hasWrite hwrite), List.flatMap_eq_nil_iff] at hnone
  have hnone := hnone prot hprot
  unfold refusal at hnone
  have hres' : (rule.resources.contains prot.resource || rule.resources.contains "*") = true := by
    simpa using hres
  have hns' : (scopeOf profile rule).contains prot.ns = true := by simpa using hns
  simp only [hres', hns', Bool.not_true, Bool.false_eq_true, if_false] at hnone
  cases hempty : rule.resourceNames.isEmpty
  · rw [hempty, Bool.false_or] at hname
    simp only [hempty, hname, Bool.false_eq_true, if_false, if_true] at hnone
    exact absurd hnone (List.cons_ne_nil _ _)
  · simp [hempty] at hnone

/-- **Protected objects.** For a profile that passes the refusal check, the materialized roles let
the agent mutate no protected object exactly when the rules the check does not look at keep out.
Source: `pkg/environment/identity.go` `ValidateProfileRules`, `identityManifests` -/
theorem protected_unreachable_iff {profile : AuthorityProfile} {p : Plan} {objs : List Object}
    {agentIdentity : String} (hcompile : compile (some profile) agentIdentity = .ok (some p))
    (hrefuse : validateProfileRules profile = .ok ())
    (hobjs : identityManifests profile = .ok objs) :
    (∀ (a : Action) (prot : ProtectedResource), prot ∈ profile.protectedResources →
      a.verb ∈ mutationVerbs → a.ns = prot.ns → a.key = prot.resource → a.name = prot.name →
        ¬ authorizes objs agentUserName (requestOf a)) ↔
      UncheckedRulesKeepOut profile := by
  have hp := compile_ok hcompile
  have hbound : ∀ {rule : PolicyRule} {ns : String},
      bound (ruleOf false rule) p.agentNamespace ns ↔ ns ∈ scopeOf profile rule := by
    intro rule ns
    rw [← mem_scope_ruleOf, hp.agentNamespace]
    simp [bound, ruleOf]
  constructor
  · intro hkeep prot hprot
    have hnone : ∀ (cluster : Bool) (rule : PolicyRule), ruleOf cluster rule ∈ p.allRules →
        bound (ruleOf cluster rule) p.agentNamespace prot.ns → ¬ writesOn rule prot := by
      intro cluster rule hrule hb hw
      obtain ⟨a, hmut, hns, hkey, hname, ha⟩ := exists_authorized_iff.mpr ⟨hb, hw⟩
      exact hkeep a prot hprot hmut hns hkey hname
        ((authorized_iff_rule hobjs hp).mpr ⟨_, hrule, ha⟩)
    rw [hp.allRules] at hnone
    refine ⟨fun rule hrule => ?_, fun rule hrule hns _ _ => ?_⟩
    · exact hnone true rule (List.mem_append_right _ (List.mem_map_of_mem hrule))
        (by simp [bound, ruleOf])
    · exact hnone false rule (List.mem_append_left _ (List.mem_map_of_mem hrule)) (hbound.mpr hns)
  · intro hkeep a prot hprot hmut hns hkey hname hauth
    obtain ⟨r, hr, ha⟩ := (authorized_iff_rule hobjs hp).mp hauth
    obtain ⟨hcluster, hnamespaced⟩ := hkeep prot hprot
    rw [hp.allRules] at hr
    rcases List.mem_append.mp hr with hr | hr <;> obtain ⟨rule, hrule, rfl⟩ := List.mem_map.mp hr
    · obtain ⟨hb, hw⟩ := exists_authorized_iff.mp ⟨a, hmut, hns, hkey, hname, ha⟩
      by_cases hlisted : prot.resource ∈ rule.resources ∨ "*" ∈ rule.resources
      · exact not_writesOn_of_listed hrefuse hrule hprot hlisted (hbound.mp hb) hw
      · rw [not_or] at hlisted
        exact hnamespaced rule hrule (hbound.mp hb) hlisted.1 hlisted.2 hw
    · exact hcluster rule hrule (exists_authorized_iff.mp ⟨a, hmut, hns, hkey, hname, ha⟩).2

/-- The cluster rule on config maps keeps out of the protected secret. -/
theorem protected_unreachable_iff_configmaps :
    ¬ authorizes (manifestsOf (clusterProfile "configmaps")) agentUserName
      (requestOf { verb := "patch", resource := "secrets", ns := "bench", name := "db" }) :=
  (@protected_unreachable_iff (clusterProfile "configmaps") (planOf (clusterProfile "configmaps"))
    (manifestsOf (clusterProfile "configmaps")) agentUserName (by decide) (by decide)
    (by decide)).mpr (by decide)
      { verb := "patch", resource := "secrets", ns := "bench", name := "db" }
      { resource := "secrets", ns := "bench", name := "db" } (by decide) (by decide) (by decide)
      (by decide) (by decide)

/-- A cluster rule on secrets passes every check and writes to the protected secret. -/
theorem protected_reachable :
    validateAuthorityProfile "s" (some (clusterProfile "secrets")) = .ok () ∧
    compile (some (clusterProfile "secrets")) agentUserName =
      .ok (some (planOf (clusterProfile "secrets"))) ∧
    validateProfileRules (clusterProfile "secrets") = .ok () ∧
    identityManifests (clusterProfile "secrets") = .ok (manifestsOf (clusterProfile "secrets")) ∧
    { resource := "secrets", ns := "bench", name := "db" } ∈
      (clusterProfile "secrets").protectedResources ∧
    authorizes (manifestsOf (clusterProfile "secrets")) agentUserName
      (requestOf { verb := "patch", resource := "secrets", ns := "bench", name := "db" }) := by
  decide

end EvidraBench.Environment
