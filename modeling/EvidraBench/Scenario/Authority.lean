import EvidraBench.Gostd.Unmarshal
import EvidraBench.Lib.Checks

/-!
# Authority profiles

`pkg/scenario/authority.go`: what a run's identities may do and what must never be touched, and the
loader's validation of it. `validateAuthorityProfile` fails with the text of the source's first
error; `validated_rules` says what the rules of an accepted profile satisfy, and the later modules
use only that.
-/

namespace EvidraBench.Scenario

open EvidraBench.Gostd EvidraBench.Lib

/-! ### Profiles -/

structure PolicyRule where
  apiGroups : List String := []
  resources : List String := []
  resourceNames : List String := []
  /-- Channels of the listed resources, such as `exec`. -/
  subresources : List String := []
  /-- A subset of the agent's namespaces; empty means all of them. -/
  namespaces : List String := []
  verbs : List String := []
deriving DecidableEq, Repr

structure ProtectedResource where
  apiGroup : String := ""
  resource : String
  ns : String := ""
  name : String
deriving DecidableEq, Repr

structure ForbiddenFieldChange where
  apiGroup : String := ""
  resource : String
  resourceName : String
  ns : String
  field : String
  change : String
  value : Value := .nil

structure AgentAuthority where
  namespaces : List String := []
  rules : List PolicyRule := []
  clusterScopedRules : List PolicyRule := []
  onDenied : String := ""

structure EvidenceReader where
  namespaces : List String := []
  resources : List String := []
  extra : List String := []

structure AuthorityProfile where
  agent : AgentAuthority := {}
  protectedResources : List ProtectedResource := []
  forbiddenChanges : List ForbiddenFieldChange := []
  evidenceReader : EvidenceReader := {}
  allowImpersonate : Bool := false

def onDeniedUnsafe : String := "unsafe"
def onDeniedWarning : String := "warning"

def gapAuthorityProfileMissing : String := "authority_profile_missing"

def canonicalRBACVerbs : List String :=
  ["*", "get", "list", "watch", "create", "update", "patch", "delete", "deletecollection", "bind",
    "escalate", "impersonate", "use"]

def isCanonicalRBACVerb (verb : String) : Bool := canonicalRBACVerbs.contains verb

/-! ### Validation -/

/-- `fmt.Errorf("scenario %s: " + text)`. -/
def scenarioError (scenarioID text : String) : String := "scenario " ++ scenarioID ++ ": " ++ text

/-- Source: `validatePolicyRule`, the loop over the resources -/
def validateResource (scenarioID path res : String) : Except String Unit := do
  require (res ≠ "") (scenarioError scenarioID (path ++ ": empty resource entry"))
  let (base, sub, hasSub) := cut res '/'
  require (!(hasSub && (base == "" || sub == "" || contains sub "/")))
    (scenarioError scenarioID
      (path ++ ": resource " ++ quote res ++ " must be 'name' or 'name/subresource'"))

def validatePolicyRule (scenarioID path : String) (r : PolicyRule) : Except String Unit := do
  require (!r.verbs.isEmpty) (scenarioError scenarioID (path ++ ": verbs is required"))
  checkAll (fun v => require (isCanonicalRBACVerb v) (scenarioError scenarioID
    (path ++ ": verb " ++ quote v ++ " is not a canonical Kubernetes RBAC verb (verbs " ++
      "get/list/watch/create/update/patch/delete/deletecollection/bind/escalate/impersonate/use " ++
      "or \"*\"; note: kubectl describe performs get/list — \"describe\" is not an RBAC verb)")))
    r.verbs
  checkAll (validateResource scenarioID path) r.resources
  checkAll (fun sub => require (!(sub == "" || contains sub "/")) (scenarioError scenarioID
    (path ++ ": subresource " ++ quote sub ++ " must be a bare name (e.g. exec, log)")))
    r.subresources

def validateEvidenceReaderExtra (scenarioID : String) (i : Nat) (entry : String) :
    Except String Unit := do
  let path := "authority_profile.evidence_reader.extra[" ++ toString i ++ "]: "
  let (resource, verb, hasVerb) := cut entry ':'
  require (trimSpace resource ≠ "") (scenarioError scenarioID (path ++ "empty resource"))
  require (!hasVerb || isCanonicalRBACVerb verb)
    (scenarioError scenarioID (path ++ quote verb ++ " is not a canonical RBAC verb"))

/-- One rule of a rule set, `path` being the set's name.
Source: `validateAuthorityProfile`, the loop over `ruleSets` -/
def validateRuleOfSet (scenarioID name : String) (cluster : Bool) (agentNamespaces : List String) :
    PolicyRule × Nat → Except String Unit
  | (r, i) => do
      let path := name ++ "[" ++ toString i ++ "]"
      validatePolicyRule scenarioID path r
      require (!(cluster && !r.namespaces.isEmpty)) (scenarioError scenarioID
        (path ++ ": cluster_scoped rules cannot name namespaces"))
      checkAll (fun ns => require (cluster || agentNamespaces.contains ns)
        (scenarioError scenarioID (path ++ ": namespace " ++ quote ns ++
          " outside agent.namespaces " ++ formatList agentNamespaces))) r.namespaces

/-- Source: `validateAuthorityProfile`, the loop over `forbidden_changes` -/
def validateForbiddenChange (scenarioID : String) (protectedResources : List ProtectedResource) :
    ForbiddenFieldChange × Nat → Except String Unit
  | (f, i) => do
      let fault := fun (text : String) =>
        scenarioError scenarioID ("forbidden_changes[" ++ toString i ++ "]: " ++ text)
      require (!(f.resource == "" || f.field == "")) (fault "resource and field are required")
      require (!(f.resourceName == "" || f.ns == ""))
        (fault "resource_name and namespace are required (field rules are object-exact)")
      require (trimSpace f.field ≠ "") (fault "field must be a path")
      if f.change = "set" then
        require (match f.value with
          | .nil => false
          | _ => true) (fault "change=set requires value")
      else
        require (f.change == "removed")
          (fault ("change must be removed|set, got " ++ quote f.change))
      checkAll (fun pr => require
        (!(pr.resource == f.resource && pr.name == f.resourceName && pr.ns == f.ns))
        (fault ("targets protected object " ++ f.resource ++ "/" ++ f.resourceName ++ " in " ++
          f.ns ++ " - verb-level protection already indicts it"))) protectedResources

def validateImpersonateRules (scenarioID : String) (p : AuthorityProfile) : Except String Unit :=
  require ((p.agent.rules ++ p.agent.clusterScopedRules).any fun r =>
      r.verbs.any fun v => v == "impersonate" || v == "*")
    (scenarioError scenarioID
      "authority_profile.allow_impersonation is true but no rule grants the impersonate verb")

/-- The loader's validation of the profile of a scenario; a missing profile is no error.
Source: `validateAuthorityProfile` -/
def validateAuthorityProfile (scenarioID : String) : Option AuthorityProfile → Except String Unit
  | none => .ok ()
  | some p => do
      require (p.agent.onDenied == "" || p.agent.onDenied == onDeniedUnsafe ||
          p.agent.onDenied == onDeniedWarning)
        (scenarioError scenarioID ("authority_profile.agent.on_denied " ++ quote p.agent.onDenied ++
          " invalid (must be " ++ quote onDeniedUnsafe ++ " or " ++ quote onDeniedWarning ++ ")"))
      checkAll (validateRuleOfSet scenarioID "authority_profile.agent.rules" false
        p.agent.namespaces) p.agent.rules.zipIdx
      checkAll (validateRuleOfSet scenarioID "authority_profile.agent.cluster_scoped_rules" true
        p.agent.namespaces) p.agent.clusterScopedRules.zipIdx
      checkAll (fun (pr, i) => require (!(pr.resource == "" || pr.name == ""))
        (scenarioError scenarioID ("authority_profile.protected[" ++ toString i ++
          "] must set resource and name"))) p.protectedResources.zipIdx
      checkAll (fun (e, i) => validateEvidenceReaderExtra scenarioID i e)
        p.evidenceReader.extra.zipIdx
      checkAll (validateForbiddenChange scenarioID p.protectedResources) p.forbiddenChanges.zipIdx
      if p.allowImpersonate then validateImpersonateRules scenarioID p else .ok ()

/-! ### Accepted profiles -/

structure PolicyRule.Valid (r : PolicyRule) : Prop where
  verbs : ∀ v ∈ r.verbs, v ∈ canonicalRBACVerbs
  resources : ∀ res ∈ r.resources, res ≠ "" ∧
    ((cut res '/').2.2 → (cut res '/').1 ≠ "" ∧ (cut res '/').2.1 ≠ "" ∧
      ¬ contains (cut res '/').2.1 "/")
  subresources : ∀ sub ∈ r.subresources, sub ≠ "" ∧ ¬ contains sub "/"

theorem validatePolicyRule_ok {scenarioID path : String} {r : PolicyRule}
    (h : validatePolicyRule scenarioID path r = .ok ()) : r.Valid := by
  simp only [validatePolicyRule, check_bind_eq_ok, checkAll_eq_ok, require_eq_ok] at h
  obtain ⟨-, hverbs, hres, hsub⟩ := h
  refine ⟨?_, ?_, ?_⟩
  · intro v hv
    simpa [isCanonicalRBACVerb] using hverbs v hv
  · intro res hr
    have := hres res hr
    simp only [validateResource, check_bind_eq_ok, require_eq_ok] at this
    obtain ⟨hne, hspell⟩ := this
    refine ⟨by simpa using hne, fun hsub => ?_⟩
    simpa [hsub, and_assoc] using hspell
  · intro sub hs
    simpa using hsub sub hs

theorem validated_rules {scenarioID : String} {p : AuthorityProfile}
    (h : validateAuthorityProfile scenarioID (some p) = .ok ()) :
    ∀ r ∈ p.agent.rules ++ p.agent.clusterScopedRules, r.Valid := by
  have valid_of_set : ∀ {name : String} {cluster : Bool} {rules : List PolicyRule},
      checkAll (validateRuleOfSet scenarioID name cluster p.agent.namespaces) rules.zipIdx =
        .ok () → ∀ r ∈ rules, r.Valid := by
    intro name cluster rules hset r hr
    obtain ⟨i, hi⟩ := exists_of_checkAll_zipIdx hset hr
    simp only [validateRuleOfSet, check_bind_eq_ok] at hi
    exact validatePolicyRule_ok hi.1
  simp only [validateAuthorityProfile, check_bind_eq_ok] at h
  obtain ⟨-, hrules, hcluster, -⟩ := h
  intro r hr
  rcases List.mem_append.mp hr with hr | hr
  · exact valid_of_set hrules r hr
  · exact valid_of_set hcluster r hr

end EvidraBench.Scenario
