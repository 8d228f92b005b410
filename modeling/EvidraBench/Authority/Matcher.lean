import EvidraBench.Authority.Plan

/-!
# Matcher and renderer

The plan is read twice: `Plan.classify` judges observed actions with it, and the renderer turns it
into RBAC rules. This file compares the two readings rule by rule.

Results: `matches_iff`, `Rule.lists_of_matches`, `verbAllowed_iff`, `mem_render_verbs`,
`granted_admitted_iff`.

Source: `pkg/authority/plan.go`
-/

namespace EvidraBench.Authority

open EvidraBench.Gostd EvidraBench.Scenario EvidraBench.Lib EvidraBench.Evaluation

/-! ### Verbs -/

def Rule.Canonical (r : Rule) : Prop := ∀ v ∈ r.verbs, v ∈ canonicalRBACVerbs

theorem equalFold_canonical {rv v : String} (hrv : rv ∈ canonicalRBACVerbs)
    (hv : v ∈ mutationVerbs) : equalFold rv v = (rv == v) := by
  have : ∀ rv ∈ canonicalRBACVerbs, ∀ v ∈ mutationVerbs, equalFold rv v = (rv == v) := by decide
  exact this rv hrv v hv

theorem not_escalation {v : String} (hv : v ∈ mutationVerbs) : v ∉ escalationVerbs := by
  have : ∀ v ∈ mutationVerbs, v ∉ escalationVerbs := by decide
  exact this v hv

theorem mem_safeWildcardVerbs {v : String} (hv : v ∈ mutationVerbs) :
    v ∈ safeWildcardVerbs ↔ v ≠ "deletecollection" := by
  have : ∀ v ∈ mutationVerbs, (v ∈ safeWildcardVerbs ↔ v ≠ "deletecollection") := by decide
  exact this v hv

theorem verbAllowed_iff {r : Rule} (hr : r.Canonical) {v : String} (hv : v ∈ mutationVerbs) :
    r.verbAllowed v ↔ v ∈ r.verbs ∨ ("*" ∈ r.verbs ∧ v ≠ "deletecollection") := by
  have hesc := not_escalation hv
  have hstar : v ≠ "*" := by
    rintro rfl
    exact absurd hv (by decide)
  unfold Rule.verbAllowed
  rw [List.any_eq_true]
  constructor
  · rintro ⟨rv, hmem, hrv⟩
    split_ifs at hrv with hs
    · exact Or.inr ⟨hs ▸ hmem, by simpa [hesc] using hrv⟩
    · rw [equalFold_canonical (hr rv hmem) hv, beq_iff_eq] at hrv
      exact Or.inl (hrv ▸ hmem)
  · rintro (hmem | ⟨hmem, hne⟩)
    · refine ⟨v, hmem, ?_⟩
      rw [if_neg hstar, equalFold_canonical (hr v hmem) hv]
      simp
    · exact ⟨"*", hmem, by simp [hesc, hne]⟩

theorem mem_render_verbs {r : Rule} {v : String} (hv : v ∈ mutationVerbs) :
    v ∈ r.render.verbs ↔
      ("*" ∉ r.verbs ∧ v ∈ r.verbs) ∨ ("*" ∈ r.verbs ∧ v ≠ "deletecollection") := by
  unfold Rule.render
  by_cases hs : "*" ∈ r.verbs
  · simp [hs, mem_safeWildcardVerbs hv]
  · simp [hs, not_escalation hv]

/-! ### Objects -/

/-- Whether the rendered rule names the object of a request: group, resource or pair, and name. -/
def Rule.lists (r : Rule) (a : Action) : Bool :=
  groupAllowed r.apiGroups a.apiGroup &&
    (r.resources.contains a.key || r.subresources.contains a.key) &&
    (r.resourceNames.isEmpty || r.resourceNames.contains a.name)

@[simp] theorem mem_render_resources {r : Rule} {x : String} :
    x ∈ r.render.resources ↔ x ∈ r.resources ∨ x ∈ r.subresources := by
  unfold Rule.render
  by_cases h : x ∈ r.resources <;> simp [h]

theorem matches_iff {r : Rule} {a : Action} :
    r.matches_ a ↔ groupAllowed r.apiGroups a.apiGroup ∧
      (a.resource ∈ r.resources ∨ a.key ∈ r.resources) ∧
      (a.subresource = "" ∨ a.key ∈ r.resources ∨ a.key ∈ r.subresources) ∧
      (r.resourceNames = [] ∨ (a.name ≠ "" ∧ a.name ∈ r.resourceNames)) := by
  unfold Rule.matches_
  cases hgroup : groupAllowed r.apiGroups a.apiGroup
  · split_ifs <;> simp_all
  · split_ifs with h₁ h₂ h₃ h₄ <;>
      simp only [Bool.and_eq_true, Bool.or_eq_true, Bool.not_eq_true', List.contains_eq_mem,
        decide_eq_true_eq, decide_eq_false_iff_not, List.isEmpty_eq_false_iff, beq_iff_eq, ne_eq,
        Bool.not_eq_false] at * <;>
      tauto

theorem Rule.lists_of_matches {r : Rule} {a : Action} (h : r.matches_ a) : r.lists a := by
  obtain ⟨hgroup, hres, hsub, hname⟩ := matches_iff.mp h
  have hkey : a.key ∈ r.resources ∨ a.key ∈ r.subresources := by
    by_cases hs : a.subresource = ""
    · have : a.key = a.resource := by simp [Action.key, hs]
      rw [this] at hres ⊢
      tauto
    · tauto
  unfold Rule.lists
  simp only [hgroup, Bool.true_and, Bool.and_eq_true, Bool.or_eq_true, List.contains_eq_mem,
    decide_eq_true_eq, List.isEmpty_iff]
  exact ⟨hkey, hname.imp_right And.right⟩

/-! ### Rendered rules and granted actions -/

/-- Whether a rendered rule admits an action: the group or the group wildcard, the resource or
pair as requested, the name, and the verb. -/
def admits (rr : Rbac.Rule) (a : Action) : Bool :=
  (rr.apiGroups.contains a.apiGroup || rr.apiGroups.contains "*") && rr.resources.contains a.key &&
    (rr.resourceNames.isEmpty || rr.resourceNames.contains a.name) && rr.verbs.contains a.verb

/-- Whether the rendered rules admit an action: those of its namespace, or the cluster-scoped ones
for an action without namespace. -/
def Plan.rbacAdmits (p : Plan) (a : Action) : Bool :=
  (p.rolesByNamespace a.ns).any (admits · a) ||
    (a.ns == "" && p.clusterRoleRules.any (admits · a))

theorem groupAllowed_iff {groups : List String} {g : String} :
    groupAllowed groups g ↔ g ∈ groups ∨ "*" ∈ groups := by
  unfold groupAllowed
  simp only [List.any_eq_true, Bool.or_eq_true, beq_iff_eq]
  constructor
  · rintro ⟨ag, h, rfl | rfl⟩
    · exact Or.inr h
    · exact Or.inl h
  · rintro (h | h)
    · exact ⟨g, h, Or.inr rfl⟩
    · exact ⟨"*", h, Or.inl rfl⟩

theorem admits_render {r : Rule} {a : Action} :
    admits r.render a ↔ r.lists a ∧ a.verb ∈ r.render.verbs := by
  have hgroups : r.render.apiGroups = r.apiGroups := rfl
  have hnames : r.render.resourceNames = r.resourceNames := rfl
  unfold admits Rule.lists
  simp only [hgroups, hnames, Bool.and_eq_true, Bool.or_eq_true, List.contains_eq_mem,
    decide_eq_true_eq, mem_render_resources, groupAllowed_iff]

@[simp] theorem mem_rolesByNamespace {p : Plan} {ns : String} {rr : Rbac.Rule} :
    rr ∈ p.rolesByNamespace ns ↔
      ∃ r ∈ p.allRules, r.cluster = false ∧ ns ∈ r.scope p.agentNamespace ∧ r.render = rr := by
  unfold Plan.rolesByNamespace
  simp only [List.mem_flatMap, List.mem_filter, Bool.not_eq_true', List.mem_map,
    decide_eq_true_eq]
  constructor
  · rintro ⟨r, ⟨hr, hc⟩, ns', ⟨hns, rfl⟩, rfl⟩
    exact ⟨r, hr, hc, hns, rfl⟩
  · rintro ⟨r, hr, hc, hns, rfl⟩
    exact ⟨r, ⟨hr, hc⟩, ns, ⟨hns, rfl⟩, rfl⟩

@[simp] theorem mem_clusterRoleRules {p : Plan} {rr : Rbac.Rule} :
    rr ∈ p.clusterRoleRules ↔ ∃ r ∈ p.allRules, r.cluster = true ∧ r.render = rr := by
  simp [Plan.clusterRoleRules, and_assoc]

/-- The rendered rules admit an action exactly when some rule of its own scope names it under a
rendered verb. -/
theorem rbacAdmits_iff {p : Plan} {a : Action} :
    p.rbacAdmits a ↔ ∃ r ∈ p.allRules, r.nsIn a.ns p.agentNamespace ∧ r.lists a ∧
      a.verb ∈ r.render.verbs := by
  unfold Plan.rbacAdmits
  simp only [Bool.or_eq_true, Bool.and_eq_true, List.any_eq_true, mem_rolesByNamespace,
    mem_clusterRoleRules, beq_iff_eq]
  constructor
  · rintro (⟨_, ⟨r, hr, hc, hns, rfl⟩, ha⟩ | ⟨hns, _, ⟨r, hr, hc, rfl⟩, ha⟩)
    · exact ⟨r, hr, by simpa [Rule.nsIn, hc] using hns, admits_render.mp ha⟩
    · exact ⟨r, hr, by simpa [Rule.nsIn, hc] using hns, admits_render.mp ha⟩
  · rintro ⟨r, hr, hns, ha⟩
    cases hc : r.cluster
    · exact Or.inl ⟨_, ⟨r, hr, hc, by simpa [Rule.nsIn, hc] using hns, rfl⟩, admits_render.mpr ha⟩
    · exact Or.inr ⟨by simpa [Rule.nsIn, hc] using hns, _, ⟨r, hr, hc, rfl⟩, admits_render.mpr ha⟩

theorem canonical_of_validated {scenarioID agentIdentity : String} {profile : AuthorityProfile}
    {p : Plan} (hvalid : validateAuthorityProfile scenarioID (some profile) = .ok ())
    (hcompile : compile (some profile) agentIdentity = .ok (some p)) :
    ∀ r ∈ p.allRules, r.Canonical := by
  rw [(compile_ok hcompile).allRules]
  have hrules := validated_rules hvalid
  intro r hr v hv
  rcases List.mem_append.mp hr with hr | hr <;> obtain ⟨raw, hraw, rfl⟩ := List.mem_map.mp hr
  · exact (hrules raw (List.mem_append_left _ hraw)).verbs v (by simpa [ruleOf] using hv)
  · exact (hrules raw (List.mem_append_right _ hraw)).verbs v (by simpa [ruleOf] using hv)

/-- A mutation is granted exactly when it touches nothing protected and some write rule of its
scope covers it and allows its verb. -/
theorem classify_granted_iff_writeRule {p : Plan} {a : Action} (hmut : a.verb ∈ mutationVerbs) :
    p.classify a = .granted ↔ p.protectedHit a = false ∧ ∃ r ∈ p.writeRules,
      r.nsIn a.ns p.agentNamespace ∧ r.matches_ a ∧ r.verbAllowed a.verb := by
  have hm : isMutation a.verb = true := by simpa [isMutation] using hmut
  unfold Plan.classify
  simp only [hm, Bool.not_true, Bool.false_and, Bool.false_eq_true, if_false]
  cases p.protectedHit a
  · simp only [Bool.false_eq_true, if_false, true_and]
    split_ifs with h
    · simpa using h
    · simpa using h
  · simp

theorem writes_of_verbAllowed {r : Rule} (hr : r.Canonical) {v : String} (hv : v ∈ mutationVerbs)
    (h : r.verbAllowed v) : r.writes := by
  unfold Rule.writes
  rw [List.any_eq_true]
  rcases (verbAllowed_iff hr hv).mp h with hmem | ⟨hmem, -⟩
  · exact ⟨v, hmem, by simpa [isMutation] using Or.inr hv⟩
  · exact ⟨"*", hmem, by simp⟩

/-- A mutation is granted exactly when it touches nothing protected and some rule of its scope
covers it and allows its verb. -/
theorem classify_granted_iff {profile : AuthorityProfile} {p : Plan} (hp : Compiled profile p)
    (hcanon : ∀ r ∈ p.allRules, r.Canonical) {a : Action} (hmut : a.verb ∈ mutationVerbs) :
    p.classify a = .granted ↔ p.protectedHit a = false ∧ ∃ r ∈ p.allRules,
      r.nsIn a.ns p.agentNamespace ∧ r.matches_ a ∧ r.verbAllowed a.verb := by
  rw [classify_granted_iff_writeRule hmut, hp.writeRules]
  refine and_congr_right fun _ => ?_
  constructor
  · rintro ⟨r, hr, hcovers⟩
    exact ⟨r, (List.mem_filter.mp hr).1, hcovers⟩
  · rintro ⟨r, hr, hns, hmatch, hverb⟩
    exact ⟨r, List.mem_filter.mpr ⟨hr, writes_of_verbAllowed (hcanon r hr) hmut hverb⟩, hns, hmatch,
      hverb⟩

section agreement

variable {scenarioID agentIdentity : String} {profile : AuthorityProfile} {p : Plan}
  (hvalid : validateAuthorityProfile scenarioID (some profile) = .ok ())
  (hcompile : compile (some profile) agentIdentity = .ok (some p)) {a : Action}
  (hmut : a.verb ∈ mutationVerbs)
include hvalid hcompile hmut

theorem admitted_of_granted (hgranted : p.classify a = .granted)
    (hdc : a.verb ≠ "deletecollection") : p.rbacAdmits a := by
  have hcanon := canonical_of_validated hvalid hcompile
  obtain ⟨-, r, hr, hns, hmatch, hverb⟩ :=
    (classify_granted_iff (compile_ok hcompile) hcanon hmut).mp hgranted
  rw [verbAllowed_iff (hcanon r hr) hmut] at hverb
  refine rbacAdmits_iff.mpr ⟨r, hr, hns, Rule.lists_of_matches hmatch, ?_⟩
  rw [mem_render_verbs hmut]
  tauto

/-- **Matcher against renderer.** A granted mutation is admitted by the rendered rules exactly when
it is no `deletecollection`, or when some rule of its scope names it and lists `deletecollection`
without the wildcard beside it.
Source: `Plan.Classify`, `Rule.render` -/
theorem granted_admitted_iff (hgranted : p.classify a = .granted) :
    p.rbacAdmits a ↔ a.verb ≠ "deletecollection" ∨
      ∃ r ∈ p.allRules, r.nsIn a.ns p.agentNamespace ∧ r.lists a ∧
        "deletecollection" ∈ r.verbs ∧ "*" ∉ r.verbs := by
  by_cases hdc : a.verb = "deletecollection"
  · have hverbs : ∀ r : Rule, a.verb ∈ r.render.verbs ↔
        "deletecollection" ∈ r.verbs ∧ "*" ∉ r.verbs := by
      intro r
      rw [mem_render_verbs hmut, hdc]
      tauto
    simp only [rbacAdmits_iff, hverbs]
    simp [hdc]
  · simp only [hdc, ne_eq, not_false_eq_true, true_or, iff_true]
    exact admitted_of_granted hvalid hcompile hmut hgranted hdc

end agreement

/-- A profile with one rule on config maps in one namespace. -/
def configMapProfile (verbs : List String) : AuthorityProfile :=
  { agent := { namespaces := ["bench"], rules := [{ resources := ["configmaps"], verbs }] } }

/-- The plan of `configMapProfile`. -/
def configMapPlan (verbs : List String) : Plan :=
  match compile (some (configMapProfile verbs)) "agent" with
  | .ok (some p) => p
  | _ => ⟨"", [], [], [], [], [], ""⟩

/-- A granted `patch` is admitted. -/
theorem granted_admitted_iff_patch :
    (configMapPlan ["*"]).rbacAdmits
      { verb := "patch", resource := "configmaps", ns := "bench", name := "x" } :=
  (@granted_admitted_iff "s" "agent" (configMapProfile ["*"]) (configMapPlan ["*"]) (by decide)
    (by decide) { verb := "patch", resource := "configmaps", ns := "bench", name := "x" }
    (by decide) (by decide)).mpr (Or.inl (by decide))

/-- `deletecollection` listed beside the wildcard is granted and not admitted. -/
theorem granted_not_admitted :
    validateAuthorityProfile "s" (some (configMapProfile ["deletecollection", "*"])) = .ok () ∧
    compile (some (configMapProfile ["deletecollection", "*"])) "agent" =
      .ok (some (configMapPlan ["deletecollection", "*"])) ∧
    (configMapPlan ["deletecollection", "*"]).classify
      { verb := "deletecollection", resource := "configmaps", ns := "bench" } = .granted ∧
    (configMapPlan ["deletecollection", "*"]).rbacAdmits
      { verb := "deletecollection", resource := "configmaps", ns := "bench" } = false := by
  decide

end EvidraBench.Authority
