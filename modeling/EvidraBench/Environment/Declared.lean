import EvidraBench.Environment.Grants

/-!
# Compiled authority and declared authority

A profile states the agent's authority rule by rule; compilation rewrites the resource lists into
base resources and `base/sub` pairs. This file asks whether the rewriting adds anything.

Results: `mem_baseResources`, `declares_of_mem_pairs`, `authority_declared_iff`.

Source: `pkg/authority/plan.go`
-/

namespace EvidraBench.Environment

open EvidraBench.Gostd EvidraBench.Scenario EvidraBench.Lib EvidraBench.Lib.Rbac
  EvidraBench.Authority EvidraBench.Evaluation

/-! ### Declared targets -/

/-- The declared rules, with whether they are cluster scoped. -/
def declaredRules (profile : AuthorityProfile) : List (Bool × PolicyRule) :=
  profile.agent.rules.map (Prod.mk false) ++ profile.agent.clusterScopedRules.map (Prod.mk true)

/-- Whether a declared rule lists the target of an action: the resource, or the pair in either
spelling. The resource wildcard lists every target. -/
def Declares (rule : PolicyRule) (a : Action) : Prop :=
  "*" ∈ rule.resources ∨ a.key ∈ rule.resources ∨
    ∃ base ∈ rule.resources, ∃ sub ∈ rule.subresources, a.key = base ++ "/" ++ sub

instance (rule : PolicyRule) (a : Action) : Decidable (Declares rule a) :=
  inferInstanceAs (Decidable ("*" ∈ rule.resources ∨ a.key ∈ rule.resources ∨
    ∃ base ∈ rule.resources, ∃ sub ∈ rule.subresources, a.key = base ++ "/" ++ sub))

/-- Whether a declared rule has an entry `base/sub` for some `sub`. -/
def NamesPartOf (rule : PolicyRule) (base : String) : Prop :=
  ∃ entry ∈ rule.resources, (cut entry '/').2.2 = true ∧ (cut entry '/').1 = base

instance (rule : PolicyRule) (base : String) : Decidable (NamesPartOf rule base) :=
  inferInstanceAs (Decidable
    (∃ entry ∈ rule.resources, (cut entry '/').2.2 = true ∧ (cut entry '/').1 = base))

theorem cut_fst_of_not_found {s : String} {sep : Char} (h : (cut s sep).2.2 = false) :
    (cut s sep).1 = s := by
  unfold cut at h ⊢
  split at h
  · rfl
  · simp at h

theorem mem_baseResources {rule : PolicyRule} {x : String} (h : x ∈ baseResources rule.resources) :
    x ∈ rule.resources ∨ NamesPartOf rule x := by
  simp only [baseResources, mem_dedupe, List.mem_map] at h
  obtain ⟨entry, hentry, hx⟩ := h
  cases hfound : (cut entry '/').2.2
  · rw [cut_fst_of_not_found hfound] at hx
    exact Or.inl (hx ▸ hentry)
  · exact Or.inr ⟨entry, hentry, hfound, hx⟩

theorem mem_baseResources_of_namesPartOf {rule : PolicyRule} {x : String}
    (h : NamesPartOf rule x) : x ∈ baseResources rule.resources := by
  obtain ⟨entry, hentry, -, hx⟩ := h
  simp only [baseResources, mem_dedupe, List.mem_map]
  exact ⟨entry, hentry, hx⟩

theorem declares_of_mem_pairs {rule : PolicyRule} {a : Action}
    (h : a.key ∈ subresourcePairs rule.resources rule.subresources) : Declares rule a := by
  simp only [subresourcePairs, mem_sortStrings, mem_dedupe, List.mem_append, List.mem_filter,
    List.mem_flatMap, List.mem_map] at h
  rcases h with ⟨hkey, -⟩ | ⟨base, ⟨hbase, -⟩, sub, hsub, hkey⟩
  · exact Or.inr (Or.inl hkey)
  · exact Or.inr (Or.inr ⟨base, hbase, sub, hsub, hkey.symm⟩)

/-! ### Rules in reach of an action -/

/-- Whether the matcher would grant an action by a rule, its resource apart. -/
def reachedByMatcher (p : Plan) (r : Authority.Rule) (a : Action) : Bool :=
  !p.protectedHit a && r.nsIn a.ns p.agentNamespace && groupAllowed r.apiGroups a.apiGroup &&
    (r.resourceNames.isEmpty || (a.name ≠ "" && r.resourceNames.contains a.name)) &&
    r.verbAllowed a.verb

/-- Whether the materialized roles would authorize an action by a rule, its resource apart. -/
def reachedByRoles (p : Plan) (r : Authority.Rule) (a : Action) : Bool :=
  bound r p.agentNamespace a.ns && covers r.apiGroups a.apiGroup &&
    (r.resourceNames.isEmpty || r.resourceNames.contains a.name) && r.render.verbs.contains a.verb

theorem ruleAuthorizes_iff {p : Plan} {r : Authority.Rule} {a : Action} :
    ruleAuthorizes r p.agentNamespace a ↔
      reachedByRoles p r a ∧ ("*" ∈ r.resources ∨ "*" ∈ r.subresources ∨ a.key ∈ r.resources ∨
        a.key ∈ r.subresources) := by
  have hcovers : covers r.render.resources a.key ↔ ("*" ∈ r.resources ∨ "*" ∈ r.subresources ∨
      a.key ∈ r.resources ∨ a.key ∈ r.subresources) := by
    simp [covers, or_assoc]
  rw [← hcovers]
  unfold ruleAuthorizes coversObject reachedByRoles
  simp only [Bool.and_eq_true]
  tauto

theorem star_not_mem_pairs (resources subresources : List String) :
    "*" ∉ subresourcePairs resources subresources := by
  have hslash : contains "*" "/" = false := by decide
  intro h
  simp only [subresourcePairs, mem_sortStrings, mem_dedupe, List.mem_append, List.mem_filter,
    List.mem_flatMap, List.mem_map, hslash, Bool.false_eq_true, and_false, false_or] at h
  obtain ⟨base, -, sub, -, hpair⟩ := h
  have hchars : '/' ∈ (base ++ "/" ++ sub).toList := by simp
  rw [hpair] at hchars
  exact absurd hchars (by decide)

theorem key_mem_of_matches {r : Authority.Rule} {a : Action} (h : r.matches_ a) :
    a.key ∈ r.resources ∨ a.key ∈ r.subresources := by
  obtain ⟨-, hres₁, hres₂, -⟩ := matches_iff.mp h
  rcases resource_tests_iff.mp ⟨hres₁, hres₂⟩ with hkey | ⟨-, hkey⟩
  · exact Or.inl hkey
  · exact Or.inr hkey

theorem reachedByMatcher_of_matches {p : Plan} {r : Authority.Rule} {a : Action}
    (hfree : p.protectedHit a = false) (hns : r.nsIn a.ns p.agentNamespace)
    (hmatch : r.matches_ a) (hverb : r.verbAllowed a.verb) : reachedByMatcher p r a := by
  obtain ⟨hgroup, -, -, hname⟩ := matches_iff.mp hmatch
  unfold reachedByMatcher
  simpa [hfree, hns, hgroup, hverb] using hname

theorem matches_of_reachedByMatcher {p : Plan} {r : Authority.Rule} {a : Action}
    (h : reachedByMatcher p r a) (hkey : a.key ∈ r.resources) :
    p.protectedHit a = false ∧ r.nsIn a.ns p.agentNamespace ∧ r.matches_ a ∧
      r.verbAllowed a.verb := by
  simp only [reachedByMatcher, Bool.and_eq_true, Bool.or_eq_true, Bool.not_eq_true',
    List.isEmpty_iff, List.contains_eq_mem, decide_eq_true_eq] at h
  obtain ⟨⟨⟨⟨hfree, hns⟩, hgroup⟩, hname⟩, hverb⟩ := h
  refine ⟨hfree, hns, ?_, hverb⟩
  exact matches_iff.mpr ⟨hgroup, Or.inr hkey, Or.inr (Or.inl hkey), hname⟩

/-- A declared rule in reach of an action that lists only subresources of the action's target, or
of the wildcard. -/
def Widens (p : Plan) (d : Bool × PolicyRule) (a : Action) : Prop :=
  (NamesPartOf d.2 a.key ∧
    (reachedByMatcher p (ruleOf d.1 d.2) a ∨ reachedByRoles p (ruleOf d.1 d.2) a)) ∨
  (NamesPartOf d.2 "*" ∧ reachedByRoles p (ruleOf d.1 d.2) a)

instance (p : Plan) (d : Bool × PolicyRule) (a : Action) : Decidable (Widens p d a) :=
  inferInstanceAs (Decidable ((NamesPartOf d.2 a.key ∧
    (reachedByMatcher p (ruleOf d.1 d.2) a ∨ reachedByRoles p (ruleOf d.1 d.2) a)) ∨
    (NamesPartOf d.2 "*" ∧ reachedByRoles p (ruleOf d.1 d.2) a)))

/-! ### The comparison -/

section declared

variable {scenarioID agentIdentity : String} {profile : AuthorityProfile} {p : Plan}
  {objs : List Object} (hvalid : validateAuthorityProfile scenarioID (some profile) = .ok ())
  (hcompile : compile (some profile) agentIdentity = .ok (some p))
include hcompile

theorem mem_allRules_iff {r : Authority.Rule} :
    r ∈ p.allRules ↔ ∃ d ∈ declaredRules profile, ruleOf d.1 d.2 = r := by
  rw [(compile_ok hcompile).allRules]
  simp only [declaredRules, List.mem_append, List.mem_map]
  constructor
  · rintro (⟨rule, hrule, rfl⟩ | ⟨rule, hrule, rfl⟩)
    · exact ⟨(false, rule), Or.inl ⟨rule, hrule, rfl⟩, rfl⟩
    · exact ⟨(true, rule), Or.inr ⟨rule, hrule, rfl⟩, rfl⟩
  · rintro ⟨d, ⟨rule, hrule, rfl⟩ | ⟨rule, hrule, rfl⟩, rfl⟩
    · exact Or.inl ⟨rule, hrule, rfl⟩
    · exact Or.inr ⟨rule, hrule, rfl⟩

variable (hobjs : identityManifests profile = .ok objs) {a : Action}
  (hmut : a.verb ∈ mutationVerbs)
include hvalid hobjs hmut

theorem declared_or_widens
    (h : p.classify a = .granted ∨ authorizes objs agentUserName (requestOf a)) :
    ∃ d ∈ declaredRules profile, Declares d.2 a ∨ Widens p d a := by
  have hcanon := canonical_of_validated hvalid hcompile
  rw [classify_granted_iff (compile_ok hcompile) hcanon hmut,
    authorized_iff_rule hobjs (compile_ok hcompile)] at h
  rcases h with ⟨hfree, r, hr, hns, hmatch, hverb⟩ | ⟨r, hr, hauth⟩ <;>
    obtain ⟨d, hd, rfl⟩ := (mem_allRules_iff hcompile).mp hr
  · refine ⟨d, hd, ?_⟩
    rcases key_mem_of_matches hmatch with hkey | hkey
    · rcases mem_baseResources hkey with hlisted | hpart
      · exact Or.inl (Or.inr (Or.inl hlisted))
      · exact Or.inr (Or.inl ⟨hpart, Or.inl
          (reachedByMatcher_of_matches hfree hns hmatch hverb)⟩)
    · exact Or.inl (declares_of_mem_pairs hkey)
  · obtain ⟨hreach, hres⟩ := ruleAuthorizes_iff.mp hauth
    refine ⟨d, hd, ?_⟩
    rcases hres with hstar | hstar | hkey | hkey
    · rcases mem_baseResources hstar with hlisted | hpart
      · exact Or.inl (Or.inl hlisted)
      · exact Or.inr (Or.inr ⟨hpart, hreach⟩)
    · exact absurd hstar (star_not_mem_pairs _ _)
    · rcases mem_baseResources hkey with hlisted | hpart
      · exact Or.inl (Or.inr (Or.inl hlisted))
      · exact Or.inr (Or.inl ⟨hpart, Or.inr hreach⟩)
    · exact Or.inl (declares_of_mem_pairs hkey)

theorem authority_of_widens {d : Bool × PolicyRule} (hd : d ∈ declaredRules profile)
    (h : Widens p d a) : p.classify a = .granted ∨ authorizes objs agentUserName (requestOf a) := by
  have hcanon := canonical_of_validated hvalid hcompile
  have hr : ruleOf d.1 d.2 ∈ p.allRules := (mem_allRules_iff hcompile).mpr ⟨d, hd, rfl⟩
  rw [classify_granted_iff (compile_ok hcompile) hcanon hmut,
    authorized_iff_rule hobjs (compile_ok hcompile)]
  rcases h with ⟨hpart, hreach | hreach⟩ | ⟨hpart, hreach⟩
  · have hkey : a.key ∈ (ruleOf d.1 d.2).resources := mem_baseResources_of_namesPartOf hpart
    obtain ⟨hfree, hns, hmatch, hverb⟩ := matches_of_reachedByMatcher hreach hkey
    exact Or.inl ⟨hfree, _, hr, hns, hmatch, hverb⟩
  · have hkey : a.key ∈ (ruleOf d.1 d.2).resources := mem_baseResources_of_namesPartOf hpart
    exact Or.inr ⟨_, hr, ruleAuthorizes_iff.mpr ⟨hreach, Or.inr (Or.inr (Or.inl hkey))⟩⟩
  · have hstar : "*" ∈ (ruleOf d.1 d.2).resources := mem_baseResources_of_namesPartOf hpart
    exact Or.inr ⟨_, hr, ruleAuthorizes_iff.mpr ⟨hreach, Or.inl hstar⟩⟩

/-- **Declared authority.** For an accepted profile and a mutation, a granted or authorized mutation
has a target that some declared rule lists exactly when some declared rule lists it anyway, or no
rule in reach of the mutation has an entry `base/sub` for its target or for the wildcard.
Source: `Compile`, `baseResources`, `subresourcePairs`, `Rule.matches`, `Rule.render` -/
theorem authority_declared_iff :
    ((p.classify a = .granted ∨ authorizes objs agentUserName (requestOf a)) →
      ∃ d ∈ declaredRules profile, Declares d.2 a) ↔
    (∃ d ∈ declaredRules profile, Declares d.2 a) ∨
      ∀ d ∈ declaredRules profile, ¬ Widens p d a := by
  constructor
  · intro hclaim
    by_cases hdecl : ∃ d ∈ declaredRules profile, Declares d.2 a
    · exact Or.inl hdecl
    · refine Or.inr fun d hd hwiden => hdecl (hclaim ?_)
      exact authority_of_widens hvalid hcompile hobjs hmut hd hwiden
  · rintro (hdecl | hnone) hauth
    · exact hdecl
    · obtain ⟨d, hd, hdecl | hwiden⟩ := declared_or_widens hvalid hcompile hobjs hmut hauth
      · exact ⟨d, hd, hdecl⟩
      · exact absurd hwiden (hnone d hd)

end declared

/-- A profile that gives the agent `create` on one resource. -/
def createProfile (resource : String) : AuthorityProfile :=
  { agent :=
      { namespaces := ["bench"]
        rules := [{ resources := [resource], verbs := ["create"] }] } }

/-- The creation of a pod, or of a channel into it. -/
def podCreate (subresource : String) : Action :=
  { verb := "create", resource := "pods", ns := "bench", name := "web", subresource }

/-- Opening a channel on a rule about `pods/exec` is declared. -/
theorem authority_declared_iff_exec :
    ∃ d ∈ declaredRules (createProfile "pods/exec"), Declares d.2 (podCreate "exec") :=
  (@authority_declared_iff "s" agentUserName (createProfile "pods/exec")
    (planOf (createProfile "pods/exec")) (manifestsOf (createProfile "pods/exec")) (by decide)
    (by decide) (by decide) (podCreate "exec") (by decide)).mpr (Or.inr (by decide))
    (Or.inl (by decide))

/-- A rule about `pods/exec` alone grants and authorizes the creation of pods. -/
theorem exec_rule_grants_pods :
    validateAuthorityProfile "s" (some (createProfile "pods/exec")) = .ok () ∧
    compile (some (createProfile "pods/exec")) agentUserName =
      .ok (some (planOf (createProfile "pods/exec"))) ∧
    identityManifests (createProfile "pods/exec") =
      .ok (manifestsOf (createProfile "pods/exec")) ∧
    (planOf (createProfile "pods/exec")).classify (podCreate "") = .granted ∧
    authorizes (manifestsOf (createProfile "pods/exec")) agentUserName (requestOf (podCreate "")) ∧
    ¬ ∃ d ∈ declaredRules (createProfile "pods/exec"), Declares d.2 (podCreate "") := by
  decide

end EvidraBench.Environment
