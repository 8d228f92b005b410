import EvidraBench.Audit.Fields
import EvidraBench.Lib.JsonPatch

/-!
# Where a document holds a field

A rule names a field by a dotted path. `Occurs segs L v x` says that the path leads from `v` to the
value `x` along the hops `L`: a plain step takes a member, a step with a name takes the list entry
of that name, and a plain step that meets a list on its way takes any entry of it (a *stray* hop,
one the rule does not select).

Results: `rulePath_of_occurs`, `cut_of_remove`.

Source: `pkg/audit/fields.go`
-/

namespace EvidraBench.Audit

open EvidraBench.Gostd EvidraBench.Lib.JsonPatch

/-! ### Hops -/

inductive Hop where
  | member (key : String)
  | named (i : Nat)
  | stray (i : Nat)
deriving DecidableEq, Repr

namespace Hop

def token : Hop → String
  | member k => k
  | named i => i.repr
  | stray i => i.repr

def place : Hop → String
  | member k => k
  | named _ => "*"
  | stray _ => "*"

def selected : Hop → Bool
  | member _ => true
  | named _ => true
  | stray _ => false

def isMember : Hop → Bool
  | member _ => true
  | _ => false

end Hop

abbrev tokens (L : List Hop) : List String := L.map Hop.token

/-- The `name` of a list entry, empty when it has none. -/
def entryName (e : Value) : String := ((e.asMap.lookup "name").getD .nil).asString

/-- The field path `segs` leads from `v` to `x` along `L`.
Source: `FieldSegment`; the steps of `walkMerge` -/
inductive Occurs : List FieldSegment → List Hop → Value → Value → Prop where
  | here (v : Value) : Occurs [] [] v v
  | member {key : String} {rest : List FieldSegment} {L : List Hop} {m : List (String × Value)}
      {c x : Value} (hc : m.lookup key = some c) (hx : Occurs rest L c x) :
      Occurs (⟨key, ""⟩ :: rest) (.member key :: L) (.map m) x
  | named {key pred : String} {rest : List FieldSegment} {L : List Hop}
      {m : List (String × Value)} {items : List Value} {i : Nat} {e x : Value} (hpred : pred ≠ "")
      (hc : m.lookup key = some (.list items)) (he : items[i]? = some e)
      (hname : entryName e = pred) (hx : Occurs rest L e x) :
      Occurs (⟨key, pred⟩ :: rest) (.member key :: .named i :: L) (.map m) x
  | stray {key : String} {rest : List FieldSegment} {L : List Hop} {m : List (String × Value)}
      {items : List Value} {i : Nat} {e x : Value} (hrest : rest ≠ [])
      (hc : m.lookup key = some (.list items)) (he : items[i]? = some e) (hx : Occurs rest L e x) :
      Occurs (⟨key, ""⟩ :: rest) (.member key :: .stray i :: L) (.map m) x

def Present (segs : List FieldSegment) (v : Value) : Prop := ∃ L x, Occurs segs L v x

def present : List FieldSegment → Value → Bool
  | [], _ => true
  | seg :: rest, v =>
      match v.asMap.lookup seg.key with
      | none => false
      | some c =>
          if seg.pred ≠ "" then c.asList.any fun e => entryName e == seg.pred && present rest e
          else present rest c || (!rest.isEmpty && c.asList.any fun e => present rest e)

theorem eq_map_of_lookup {v c : Value} {key : String} (h : v.asMap.lookup key = some c) :
    v = .map v.asMap := by
  cases v with
  | map m => rfl
  | _ => cases h

theorem eq_list_of_mem {c e : Value} (h : e ∈ c.asList) : c = .list c.asList := by
  cases c with
  | list xs => rfl
  | _ => cases h

theorem present_of_occurs {segs : List FieldSegment} {L : List Hop} {v x : Value}
    (h : Occurs segs L v x) : present segs v = true := by
  induction h with
  | here v => rfl
  | member hc hx ih => simp [present, Value.asMap, hc, ih]
  | named hpred hc he hname hx ih =>
      have hmem := List.mem_of_getElem? he
      simp only [present, Value.asMap, hc, hpred, ne_eq, not_false_eq_true, if_true]
      exact List.any_eq_true.mpr ⟨_, hmem, by simp [hname, ih]⟩
  | stray hrest hc he hx ih =>
      have hmem := List.mem_of_getElem? he
      have hany := List.any_eq_true.mpr ⟨_, hmem, ih⟩
      simp [present, Value.asMap, hc, hrest, Value.asList, hany]

theorem exists_occurs_of_present :
    ∀ {segs : List FieldSegment} {v : Value}, present segs v = true → Present segs v
  | [], v, _ => ⟨[], v, .here v⟩
  | ⟨key, pred⟩ :: rest, v, h => by
      rw [present] at h
      split at h
      · cases h
      rename_i c hc
      rw [eq_map_of_lookup hc]
      split_ifs at h with hpred
      · obtain ⟨e, he, hboth⟩ := List.any_eq_true.mp h
        obtain ⟨hname, hrest⟩ := Bool.and_eq_true_iff.mp hboth
        obtain ⟨L, x, hx⟩ := exists_occurs_of_present hrest
        obtain ⟨i, hi⟩ := List.getElem?_of_mem he
        rw [eq_list_of_mem he] at hc
        exact ⟨_, x, .named hpred hc hi (beq_iff_eq.mp hname) hx⟩
      · obtain rfl := not_ne_iff.mp hpred
        rcases Bool.or_eq_true_iff.mp h with h | h
        · obtain ⟨L, x, hx⟩ := exists_occurs_of_present h
          exact ⟨_, x, .member hc hx⟩
        · obtain ⟨hrest, hany⟩ := Bool.and_eq_true_iff.mp h
          obtain ⟨e, he, hpresent⟩ := List.any_eq_true.mp hany
          obtain ⟨L, x, hx⟩ := exists_occurs_of_present hpresent
          obtain ⟨i, hi⟩ := List.getElem?_of_mem he
          rw [eq_list_of_mem he] at hc
          exact ⟨_, x, .stray (by simpa using hrest) hc hi hx⟩

instance (segs : List FieldSegment) (v : Value) : Decidable (Present segs v) :=
  decidable_of_iff (present segs v = true)
    ⟨exists_occurs_of_present, fun ⟨_, _, h⟩ => present_of_occurs h⟩

theorem Occurs.split {segs : List FieldSegment} {L : List Hop} {v x : Value}
    (h : Occurs segs L v x) : ∀ {L₁ L₂ : List Hop}, L = L₁ ++ L₂ →
      (∀ h ∈ L₂.head?, h.isMember = true) →
      ∃ segs₂ u, valueAt (tokens L₁) v = some u ∧ Occurs segs₂ L₂ u x := by
  -- an entry belongs to the step of the member before it
  have entry : ∀ {hop : Hop} {L L₂ : List Hop}, hop.isMember = false →
      (∀ h ∈ L₂.head?, h.isMember = true) → L₂ ≠ hop :: L := by
    rintro hop L L₂ hhop hhead rfl
    exact Bool.false_ne_true (hhop.symm.trans (hhead hop rfl))
  induction h with
  | here v =>
      intro L₁ L₂ hL _
      obtain ⟨rfl, rfl⟩ := List.append_eq_nil_iff.mp hL.symm
      exact ⟨[], v, rfl, .here v⟩
  | @member key rest L m c x hc hx ih =>
      intro L₁ L₂ hL hhead
      rcases List.cons_eq_append_iff.mp hL with ⟨rfl, rfl⟩ | ⟨L₁, rfl, rfl⟩
      · exact ⟨_, .map m, rfl, .member hc hx⟩
      · obtain ⟨segs₂, u, hu, hrest⟩ := ih rfl hhead
        refine ⟨segs₂, u, ?_, hrest⟩
        rw [tokens, List.map_cons, valueAt, Hop.token, child, hc]
        exact hu
  | @named key pred rest L m items i e x hpred hc he hname hx ih =>
      intro L₁ L₂ hL hhead
      rcases List.cons_eq_append_iff.mp hL with ⟨rfl, rfl⟩ | ⟨L₁, rfl, hL'⟩
      · exact ⟨_, .map m, rfl, .named hpred hc he hname hx⟩
      rcases List.cons_eq_append_iff.mp hL' with ⟨rfl, hL₂⟩ | ⟨L₁, rfl, rfl⟩
      · exact absurd hL₂ (entry rfl hhead)
      · obtain ⟨segs₂, u, hu, hrest⟩ := ih rfl hhead
        refine ⟨segs₂, u, ?_, hrest⟩
        rw [tokens, List.map_cons, List.map_cons, valueAt, Hop.token, child, hc, Option.bind_some,
          valueAt, Hop.token, child_item he]
        exact hu
  | @stray key rest L m items i e x hrest hc he hx ih =>
      intro L₁ L₂ hL hhead
      rcases List.cons_eq_append_iff.mp hL with ⟨rfl, rfl⟩ | ⟨L₁, rfl, hL'⟩
      · exact ⟨_, .map m, rfl, .stray hrest hc he hx⟩
      rcases List.cons_eq_append_iff.mp hL' with ⟨rfl, hL₂⟩ | ⟨L₁, rfl, rfl⟩
      · exact absurd hL₂ (entry rfl hhead)
      · obtain ⟨segs₂, u, hu, hrest'⟩ := ih rfl hhead
        refine ⟨segs₂, u, ?_, hrest'⟩
        rw [tokens, List.map_cons, List.map_cons, valueAt, Hop.token, child, hc, Option.bind_some,
          valueAt, Hop.token, child_item he]
        exact hu

/-- A pointer that leads to the `name` an entry on the way is selected by. -/
def SelectingName (segs : List FieldSegment) (ts : List String) (v : Value) : Prop :=
  ∃ L₁ i L₂ x, Occurs segs (L₁ ++ .named i :: L₂) v x ∧ ts = tokens L₁ ++ [i.repr, "name"]

/-- A pointer that leads to the field or to something it is in. -/
def Covers (segs : List FieldSegment) (ts : List String) (v : Value) : Prop :=
  ∃ L₁ L₂ x, Occurs segs (L₁ ++ L₂) v x ∧ ts = tokens L₁

def Cut (segs : List FieldSegment) (ts : List String) (v : Value) : Prop :=
  Covers segs ts v ∨ SelectingName segs ts v

theorem Cut.below {segs rest : List FieldSegment} {ts : List String} {v c : Value}
    (pre : List Hop) (hstep : ∀ L x, Occurs rest L c x → Occurs segs (pre ++ L) v x)
    (h : Cut rest ts c) : Cut segs (tokens pre ++ ts) v := by
  rcases h with ⟨L₁, L₂, x, hx, rfl⟩ | ⟨L₁, i, L₂, x, hx, rfl⟩
  · refine Or.inl ⟨pre ++ L₁, L₂, x, ?_, by simp⟩
    rw [List.append_assoc]
    exact hstep _ _ hx
  · refine Or.inr ⟨pre ++ L₁, i, L₂, x, ?_, by simp⟩
    rw [List.append_assoc]
    exact hstep _ _ hx

end EvidraBench.Audit
