import Mathlib

/-!
# Role-based access control

The authorizer of a Kubernetes API server, as far as namespaced and cluster-wide roles go: a request
is allowed when some binding of the requester reaches it and some rule of the bound role covers it.
A role binding reaches the requests of its own namespace, a cluster role binding every request.

`authorizes_iff` is the authorizer as a statement about bindings, roles and rules.
-/

namespace EvidraBench.Lib.Rbac

/-- An API request. `ns` is empty for cluster-scoped requests, `name` for collections, and
`subresource` for the resource itself. -/
structure Request where
  verb : String
  apiGroup : String
  resource : String
  subresource : String
  ns : String
  name : String
deriving DecidableEq, Repr

/-- What a rule must list: `resource` or `resource/subresource`. -/
def Request.target (q : Request) : String :=
  if q.subresource = "" then q.resource else q.resource ++ "/" ++ q.subresource

/-- A policy rule. No resource names means every name. -/
structure Rule where
  apiGroups : List String
  resources : List String
  resourceNames : List String
  verbs : List String
deriving DecidableEq, Repr

def covers (list : List String) (x : String) : Bool := list.contains "*" || list.contains x

def Rule.allows (r : Rule) (q : Request) : Bool :=
  covers r.apiGroups q.apiGroup && covers r.resources q.target &&
    (r.resourceNames.isEmpty || r.resourceNames.contains q.name) && covers r.verbs q.verb

inductive Object where
  | role (name ns : String) (rules : List Rule)
  /-- Binds a role of the same namespace to a subject. -/
  | roleBinding (name ns role subject : String)
  | clusterRole (name : String) (rules : List Rule)
  /-- Binds a cluster role to a subject. -/
  | clusterRoleBinding (name role subject : String)
  /-- Any other object. -/
  | other (kind name ns : String)
deriving DecidableEq, Repr

/-- Whether `rules` cover a request. -/
def allowsAny (rules : List Rule) (q : Request) : Bool := rules.any (·.allows q)

/-- Whether an object, as a binding of `subject`, grants a request. -/
def Object.grants (objs : List Object) (subject : String) (q : Request) : Object → Bool
  | .roleBinding _ ns bound sub =>
      sub == subject && ns == q.ns && objs.any fun o =>
        match o with
        | .role name ns' rules => name == bound && ns' == ns && allowsAny rules q
        | _ => false
  | .clusterRoleBinding _ bound sub =>
      sub == subject && objs.any fun o =>
        match o with
        | .clusterRole name rules => name == bound && allowsAny rules q
        | _ => false
  | _ => false

/-- Whether the objects let `subject` make a request. -/
def authorizes (objs : List Object) (subject : String) (q : Request) : Bool :=
  objs.any (Object.grants objs subject q)

section authorizes

variable {objs : List Object} {subject sub name ns bound : String} {q : Request}

theorem grants_roleBinding_iff :
    Object.grants objs subject q (.roleBinding name ns bound sub) ↔
      sub = subject ∧ ns = q.ns ∧ ∃ rules, .role bound ns rules ∈ objs ∧ allowsAny rules q := by
  simp only [Object.grants, Bool.and_eq_true, beq_iff_eq, List.any_eq_true, and_assoc]
  refine and_congr_right fun _ => and_congr_right fun _ => ?_
  constructor
  · rintro ⟨o, ho, hr⟩
    cases o with
    | role name' ns' rules =>
        simp only [Bool.and_eq_true, beq_iff_eq] at hr
        obtain ⟨⟨rfl, rfl⟩, hr⟩ := hr
        exact ⟨rules, ho, hr⟩
    | _ => simp at hr
  · rintro ⟨rules, ho, hr⟩
    exact ⟨_, ho, by simpa using hr⟩

theorem grants_clusterRoleBinding_iff :
    Object.grants objs subject q (.clusterRoleBinding name bound sub) ↔
      sub = subject ∧ ∃ rules, .clusterRole bound rules ∈ objs ∧ allowsAny rules q := by
  simp only [Object.grants, Bool.and_eq_true, beq_iff_eq, List.any_eq_true]
  refine and_congr_right fun _ => ?_
  constructor
  · rintro ⟨o, ho, hr⟩
    cases o with
    | clusterRole name' rules =>
        simp only [Bool.and_eq_true, beq_iff_eq] at hr
        obtain ⟨rfl, hr⟩ := hr
        exact ⟨rules, ho, hr⟩
    | _ => simp at hr
  · rintro ⟨rules, ho, hr⟩
    exact ⟨_, ho, by simpa using hr⟩

theorem authorizes_iff :
    authorizes objs subject q ↔
      (∃ name role rules, .roleBinding name q.ns role subject ∈ objs ∧
        .role role q.ns rules ∈ objs ∧ allowsAny rules q) ∨
      ∃ name role rules, .clusterRoleBinding name role subject ∈ objs ∧
        .clusterRole role rules ∈ objs ∧ allowsAny rules q := by
  rw [authorizes, List.any_eq_true]
  constructor
  · rintro ⟨binding, hb, hg⟩
    cases binding with
    | roleBinding name ns role sub =>
        obtain ⟨rfl, rfl, rules, ho, hr⟩ := grants_roleBinding_iff.mp hg
        exact Or.inl ⟨name, role, rules, hb, ho, hr⟩
    | clusterRoleBinding name role sub =>
        obtain ⟨rfl, rules, ho, hr⟩ := grants_clusterRoleBinding_iff.mp hg
        exact Or.inr ⟨name, role, rules, hb, ho, hr⟩
    | _ => simp [Object.grants] at hg
  · rintro (⟨name, role, rules, hb, ho, hr⟩ | ⟨name, role, rules, hb, ho, hr⟩)
    · exact ⟨_, hb, grants_roleBinding_iff.mpr ⟨rfl, rfl, rules, ho, hr⟩⟩
    · exact ⟨_, hb, grants_clusterRoleBinding_iff.mpr ⟨rfl, rules, ho, hr⟩⟩

end authorizes

end EvidraBench.Lib.Rbac
