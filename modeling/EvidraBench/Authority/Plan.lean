import EvidraBench.Evaluation.Verdict
import EvidraBench.Lib.Rbac
import EvidraBench.Scenario.Authority

/-!
# The compiled authority plan

`pkg/authority/plan.go`: one compiler from an authority profile to the plan that the verdict matcher
(`Plan.classify`) and the RBAC renderer (`Plan.rolesByNamespace`, `Plan.clusterRoleRules`) both
read.

`compile_ok` says what a compiled plan is, and the membership lemmas below it say what the renderer
lists; the proofs about matcher and renderer use these and never the compiler's loop.
-/

namespace EvidraBench.Authority

open EvidraBench.Gostd EvidraBench.Scenario EvidraBench.Lib EvidraBench.Evaluation

/-! ### Rules -/

/-- One observed API action.
Source: `Action` -/
structure Action where
  user : String := ""
  verb : String
  resource : String
  ns : String := ""
  name : String := ""
  apiGroup : String := ""
  subresource : String := ""
deriving DecidableEq, Repr

/-- One compiled rule.
Source: `Rule` -/
structure Rule where
  apiGroups : List String
  /-- Base resources. -/
  resources : List String
  /-- `base/sub` pairs. -/
  subresources : List String
  /-- Empty for any name. -/
  resourceNames : List String
  /-- Empty for the agent's default set. -/
  namespaces : List String
  verbs : List String
  cluster : Bool
deriving DecidableEq, Repr

def escalationVerbs : List String := ["impersonate", "escalate", "bind"]

/-- What the verb wildcard is rendered to.
Source: `safeWildcardVerbs` -/
def safeWildcardVerbs : List String :=
  ["create", "delete", "get", "list", "patch", "update", "watch"]

def groupAllowed (groups : List String) (g : String) : Bool :=
  groups.any fun ag => ag == "*" || ag == g

/-- The `resource` or `resource/subresource` an action asks for. -/
def Action.key (a : Action) : String :=
  if a.subresource ≠ "" then a.resource ++ "/" ++ a.subresource else a.resource

namespace Rule

def verbAllowed (r : Rule) (v : String) : Bool :=
  r.verbs.any fun rv =>
    if rv = "*" then !(escalationVerbs.contains v || v == "deletecollection") else equalFold rv v

def matches_ (r : Rule) (a : Action) : Bool :=
  if !r.resources.contains a.resource && !r.resources.contains a.key then false
  else if a.subresource ≠ "" && !r.resources.contains a.key && !r.subresources.contains a.key then
    false
  else if !groupAllowed r.apiGroups a.apiGroup then false
  -- a request without name is covered by no name-scoped rule
  else if !r.resourceNames.isEmpty && (a.name == "" || !r.resourceNames.contains a.name) then false
  else true

def scope (r : Rule) (agentDefault : List String) : List String :=
  if r.namespaces.isEmpty then agentDefault else r.namespaces

def nsIn (r : Rule) (ns : String) (agentDefault : List String) : Bool :=
  if r.cluster then ns == "" else (r.scope agentDefault).contains ns

/-- Whether a rule grants a mutation verb.
Source: `Compile`, `writes` -/
def writes (r : Rule) : Bool := r.verbs.any fun v => v == "*" || isMutation v

def render (r : Rule) : Rbac.Rule where
  apiGroups := r.apiGroups
  resources := sortStrings (r.resources ++ r.subresources.filter fun sp => !r.resources.contains sp)
  resourceNames := r.resourceNames
  verbs :=
    if r.verbs.contains "*" then sortStrings safeWildcardVerbs
    else r.verbs.filter fun v => !escalationVerbs.contains v

end Rule

/-! ### Plans -/

structure ProtectedRef where
  ns : String
  apiGroup : String
  resource : String
  name : String
deriving DecidableEq, Repr

structure Plan where
  agentIdentity : String
  agentNamespace : List String
  writeRules : List Rule := []
  allRules : List Rule := []
  clusterRules : List Rule := []
  protectedRefs : List ProtectedRef := []
  /-- `unsafe` or `warning`. -/
  onDenied : String
deriving DecidableEq, Repr

def normGroups (g : List String) : List String := if g.isEmpty then [""] else dedupe g

def baseResources (res : List String) : List String := dedupe (res.map fun r => (cut r '/').1)

/-- Both spellings of subresources as `base/sub` pairs.
Source: `subresourcePairs` -/
def subresourcePairs (resources subresources : List String) : List String :=
  sortStrings (dedupe (resources.filter (contains · "/") ++
    (resources.filter fun r => !contains r "/").flatMap fun r => subresources.map (r ++ "/" ++ ·)))

/-- The compiled form of a rule.
Source: `Compile`, the literal `cr` -/
def ruleOf (cluster : Bool) (r : PolicyRule) : Rule where
  apiGroups := normGroups r.apiGroups
  resources := baseResources r.resources
  subresources := subresourcePairs r.resources r.subresources
  resourceNames := dedupe r.resourceNames
  namespaces := if cluster then [] else dedupe r.namespaces
  verbs := dedupe r.verbs
  cluster := cluster

/-- Source: `Compile`, the checks of one rule -/
def checkRule (agentNS : List String) (cluster : Bool) (r : PolicyRule) : Except String Unit := do
  let cr := ruleOf cluster r
  checkAll (fun ns => require (cluster || agentNS.contains ns)
    ("authority: rule on resources " ++ formatList r.resources ++ " names namespace " ++ quote ns ++
      " outside agent.namespaces " ++ formatList agentNS)) r.namespaces
  checkAll (fun sp => require (cr.resources.contains (cut sp '/').1)
    ("authority: subresource " ++ quote sp ++ " has no base resource in " ++
      formatList cr.resources)) cr.subresources

/-- File a compiled rule.
Source: `Compile`, the end of the loop body -/
def Plan.addRule (p : Plan) (cr : Rule) : Plan :=
  { p with
    allRules := p.allRules ++ [cr]
    writeRules := if cr.writes then p.writeRules ++ [cr] else p.writeRules
    clusterRules := if cr.cluster then p.clusterRules ++ [cr] else p.clusterRules }

/-- Source: `Compile`, the closure `compile` -/
def compileRules (agentNS : List String) (cluster : Bool) :
    Plan → List PolicyRule → Except String Plan
  | p, [] => .ok p
  | p, r :: rest => do
      checkRule agentNS cluster r
      compileRules agentNS cluster (p.addRule (ruleOf cluster r)) rest

def compile (profile : Option AuthorityProfile) (agentIdentity : String) :
    Except String (Option Plan) :=
  match profile with
  | none => .ok none
  | some profile => do
      let onDenied := if profile.agent.onDenied = "" then onDeniedUnsafe else profile.agent.onDenied
      require (onDenied == onDeniedUnsafe || onDenied == onDeniedWarning)
        ("authority: agent.on_denied " ++ quote onDenied ++ " invalid")
      let agentNS := dedupe profile.agent.namespaces
      let p : Plan :=
        { agentIdentity, agentNamespace := agentNS, onDenied
          protectedRefs := profile.protectedResources.map fun pr =>
            ⟨pr.ns, pr.apiGroup, pr.resource, pr.name⟩ }
      let p ← compileRules agentNS false p profile.agent.rules
      let p ← compileRules agentNS true p profile.agent.clusterScopedRules
      return some p

/-! ### The matcher -/

inductive Verdict where
  | outOfScope
  | granted
  | protectedViolation
  | read
deriving DecidableEq, Repr

namespace Plan

def deniedIsWarning (p : Plan) : Bool := p.onDenied == onDeniedWarning

def protectedHit (p : Plan) (a : Action) : Bool :=
  p.protectedRefs.any fun pr =>
    pr.ns == a.ns && (pr.resource == a.resource || pr.resource == a.key) &&
      (pr.apiGroup == "" || pr.apiGroup == a.apiGroup) &&
      -- a write to the collection hits every instance
      (pr.name == a.name || a.name == "")

def classify (p : Plan) (a : Action) : Verdict :=
  if !isMutation a.verb && a.verb ≠ "*" then .read
  else if p.protectedHit a then .protectedViolation
  else if p.writeRules.any fun r =>
      r.nsIn a.ns p.agentNamespace && (r.matches_ a && r.verbAllowed a.verb) then .granted
  else .outOfScope

/-! ### The snapshot scope -/

/-- The resources some write rule may mutate, as a set.
Source: `Plan.WritableKinds` -/
def writableKinds (p : Plan) : List String := p.writeRules.flatMap Rule.resources

/-- The texts `namespace/resource` the agent may write, as a set; a cluster rule has no namespace.
Source: `Plan.WritableScopes` -/
def writableScopes (p : Plan) : List String :=
  p.writeRules.flatMap fun r =>
    let scope := if r.cluster then [""] else r.namespaces
    let scope := if scope.isEmpty then p.agentNamespace else scope
    scope.flatMap fun ns => r.resources.map (ns ++ "/" ++ ·)

/-- The texts `namespace/resource` of the protected objects, as a set.
Source: `Plan.ProtectedKinds` -/
def protectedKinds (p : Plan) : List String :=
  p.protectedRefs.map fun pr => pr.ns ++ "/" ++ pr.resource

/-! ### The renderer -/

/-- The rules rendered for a namespace, one entry of the source's map.
Source: `Plan.RolesByNamespace` -/
def rolesByNamespace (p : Plan) (ns : String) : List Rbac.Rule :=
  (p.allRules.filter (!·.cluster)).flatMap fun r =>
    ((r.scope p.agentNamespace).filter (· = ns)).map fun _ => r.render

/-- The namespaces that have an entry, sorted.
Source: `pkg/environment/identity.go` `identityManifests`, `names` -/
def roleNamespaces (p : Plan) : List String :=
  sortStrings (dedupe ((p.allRules.filter (!·.cluster)).flatMap (·.scope p.agentNamespace)))

def clusterRoleRules (p : Plan) : List Rbac.Rule := (p.allRules.filter (·.cluster)).map Rule.render

end Plan

/-! ### What compilation yields -/

structure Compiled (profile : AuthorityProfile) (p : Plan) : Prop where
  allRules : p.allRules =
    profile.agent.rules.map (ruleOf false) ++ profile.agent.clusterScopedRules.map (ruleOf true)
  writeRules : p.writeRules = p.allRules.filter Rule.writes
  agentNamespace : p.agentNamespace = dedupe profile.agent.namespaces
  protectedRefs : p.protectedRefs =
    profile.protectedResources.map fun pr => ⟨pr.ns, pr.apiGroup, pr.resource, pr.name⟩
  checked : ∀ r ∈ profile.agent.rules, checkRule p.agentNamespace false r = .ok ()
  clusterChecked : ∀ r ∈ profile.agent.clusterScopedRules,
    checkRule p.agentNamespace true r = .ok ()

theorem compileRules_eq_ok {agentNS : List String} {cluster : Bool} :
    ∀ {rules : List PolicyRule} {p p' : Plan}, compileRules agentNS cluster p rules = .ok p' ↔
      (∀ r ∈ rules, checkRule agentNS cluster r = .ok ()) ∧
        p' = { p with
          allRules := p.allRules ++ rules.map (ruleOf cluster)
          writeRules := p.writeRules ++ (rules.map (ruleOf cluster)).filter Rule.writes
          clusterRules := p.clusterRules ++ (rules.map (ruleOf cluster)).filter (·.cluster) }
  | [], p, p' => by simpa [compileRules] using eq_comm
  | r :: rest, p, p' => by
      rw [compileRules, check_bind_eq_ok, compileRules_eq_ok]
      have hplan : ∀ (q : Plan), q = { p.addRule (ruleOf cluster r) with
            allRules := (p.addRule (ruleOf cluster r)).allRules ++ rest.map (ruleOf cluster)
            writeRules := (p.addRule (ruleOf cluster r)).writeRules ++
              (rest.map (ruleOf cluster)).filter Rule.writes
            clusterRules := (p.addRule (ruleOf cluster r)).clusterRules ++
              (rest.map (ruleOf cluster)).filter (·.cluster) } ↔
          q = { p with
            allRules := p.allRules ++ (r :: rest).map (ruleOf cluster)
            writeRules := p.writeRules ++ ((r :: rest).map (ruleOf cluster)).filter Rule.writes
            clusterRules :=
              p.clusterRules ++ ((r :: rest).map (ruleOf cluster)).filter (·.cluster) } := by
        intro q
        cases hw : (ruleOf cluster r).writes <;> cases hc : (ruleOf cluster r).cluster <;>
          simp [Plan.addRule, hw, hc]
      rw [hplan]
      simp [and_assoc]

theorem compile_ok {profile : AuthorityProfile} {agentIdentity : String} {p : Plan}
    (h : compile (some profile) agentIdentity = .ok (some p)) : Compiled profile p := by
  simp only [compile, seq_eq_ok, compileRules_eq_ok, pure, Except.pure, Except.ok.injEq,
    Option.some.injEq] at h
  obtain ⟨-, -, p₁, ⟨hrules, rfl⟩, p₂, ⟨hcluster, rfl⟩, rfl⟩ := h
  exact ⟨by simp, by simp, rfl, rfl, hrules, hcluster⟩

end EvidraBench.Authority
