import EvidraBench.Lib.JsonPatch

/-!
# Merging a JSON object into a document

A merge patch looks like the part of the document it is about: objects are merged member by member,
a `null` deletes its member, and lists whose items all have a name are merged item by item, an item
of a new name being appended. Everything else replaces what was there. `name` says how an item is
named; an empty name is none.

Results: `lookup_mergeMembers`, `exists_step_of_items_lost`, `mergeItems_induction`.
-/

namespace EvidraBench.Lib.JsonMerge

open EvidraBench.Gostd EvidraBench.Lib.JsonPatch

/-! ### The merge -/

def allNamed (name : Value → String) (items : List Value) : Bool := items.all fun e => name e ≠ ""

/-- The items a named list is merged into: those of a named list, else none. -/
def namedItems (name : Value → String) : Option Value → List Value
  | some (.list items) => if allNamed name items then items else []
  | _ => []

def members : Option Value → List (String × Value)
  | some v => v.asMap
  | none => []

/-- Change the first item of a name, or append one. -/
def updateNamed (name : Value → String) (n : String) (f : Option Value → Value) :
    List Value → List Value
  | [] => [f none]
  | e :: es => if name e = n then f (some e) :: es else e :: updateNamed name n f es

mutual

/-- What a patch makes of a value, or of nothing. -/
def merge (name : Value → String) : Value → Option Value → Value
  | .map m, target => .map (mergeMembers name m (members target))
  | .list ps, target =>
      if allNamed name ps then .list (mergeItems name ps (namedItems name target)) else .list ps
  | .nil, _ => .nil
  | .bool b, _ => .bool b
  | .int n, _ => .int n
  | .float x, _ => .float x
  | .str s, _ => .str s
  | .time t, _ => .time t
  | .raw d, _ => .raw d
  | .struct kvs, _ => .struct kvs
  | .other text, _ => .other text

def mergeMembers (name : Value → String) :
    List (String × Value) → List (String × Value) → List (String × Value)
  | [], target => target
  | (k, .nil) :: rest, target => (mergeMembers name rest target).filter fun kv => kv.1 ≠ k
  | (k, v) :: rest, target =>
      mapInsert k (merge name v (target.lookup k)) (mergeMembers name rest target)

/-- Merge named items, one after the other, into those of a list. -/
def mergeItems (name : Value → String) : List Value → List Value → List Value
  | [], items => items
  | p :: ps, items => mergeItems name ps (updateNamed name (name p) (merge name p) items)

end

/-! ### Members -/

theorem lookup_filter_self {α : Type} (k : String) (m : List (String × α)) :
    (m.filter fun kv => kv.1 ≠ k).lookup k = none := by
  rw [List.lookup_eq_none_iff]
  intro kv hkv
  have hne : kv.1 ≠ k := by simpa using (List.mem_filter.mp hkv).2
  exact bne_iff_ne.mpr (Ne.symm hne)

/-- What a member of a patch makes of the member it is about. -/
def mergedMember (name : Value → String) (old : Option Value) : Option Value → Option Value
  | none => old
  | some .nil => none
  | some v => some (merge name v old)

theorem lookup_mergeMembers (name : Value → String) (m target : List (String × Value))
    (k : String) :
    (mergeMembers name m target).lookup k =
      mergedMember name (target.lookup k) (m.lookup k) := by
  induction m with
  | nil => rfl
  | cons kv m ih =>
      obtain ⟨k', v⟩ := kv
      rw [lookup_cons_ite]
      by_cases hk : k = k'
      · subst hk
        rw [if_pos rfl]
        cases v with
        | nil => exact lookup_filter_self k _
        | _ => simp only [mergeMembers, lookup_mapInsert, if_true, mergedMember]
      · rw [if_neg hk, ← ih]
        cases v with
        | nil => exact lookup_filter_ne hk _
        | _ => simp only [mergeMembers, lookup_mapInsert, hk, if_false]

theorem mergedMember_some {name : Value → String} {v : Value} (hv : v ≠ .nil)
    (old : Option Value) : mergedMember name old (some v) = some (merge name v old) := by
  cases v with
  | nil => exact absurd rfl hv
  | _ => rfl

/-! ### Items -/

section Items

variable {name : Value → String}

theorem mem_updateNamed {n : String} {f : Option Value → Value} {x : Value} :
    ∀ {items : List Value}, x ∈ updateNamed name n f items →
      x ∈ items ∨ x = f none ∨ ∃ e ∈ items, name e = n ∧ x = f (some e)
  | [], hx => Or.inr (Or.inl (List.mem_singleton.mp hx))
  | e :: es, hx => by
      rw [updateNamed] at hx
      split_ifs at hx with hn
      · rcases List.mem_cons.mp hx with rfl | hx
        · exact Or.inr (Or.inr ⟨e, List.mem_cons_self, hn, rfl⟩)
        · exact Or.inl (List.mem_cons_of_mem _ hx)
      · rcases List.mem_cons.mp hx with rfl | hx
        · exact Or.inl List.mem_cons_self
        · rcases mem_updateNamed hx with hx | hx | ⟨e', he', hx⟩
          · exact Or.inl (List.mem_cons_of_mem _ hx)
          · exact Or.inr (Or.inl hx)
          · exact Or.inr (Or.inr ⟨e', List.mem_cons_of_mem _ he', hx⟩)

/-- What all items of a list have, and what merging an item of the patch keeps, all items of the
merged list have. -/
theorem mergeItems_induction {Q : Value → Prop} : ∀ {ps items : List Value}, (∀ e ∈ items, Q e) →
    (∀ p ∈ ps, ∀ t, (∀ e, t = some e → name e = name p ∧ Q e) → Q (merge name p t)) →
      ∀ x ∈ mergeItems name ps items, Q x
  | [], _, hitems, _, x, hx => hitems x hx
  | p :: ps, items, hitems, hstep, x, hx => by
      have hfirst : ∀ e ∈ updateNamed name (name p) (merge name p) items, Q e := by
        intro e he
        rcases mem_updateNamed he with he | rfl | ⟨e', he', hname, rfl⟩
        · exact hitems e he
        · exact hstep p List.mem_cons_self none fun e h => (by cases h)
        · refine hstep p List.mem_cons_self (some e') fun e h => ?_
          obtain rfl := Option.some.inj h
          exact ⟨hname, hitems e' he'⟩
      rw [mergeItems] at hx
      exact mergeItems_induction hfirst (fun q hq => hstep q (List.mem_cons_of_mem _ hq)) x hx

theorem changed_of_lost {Q : Value → Prop} {n : String} {f : Option Value → Value} :
    ∀ {items : List Value}, (∃ e ∈ items, Q e) → (∀ x ∈ updateNamed name n f items, ¬ Q x) →
      ∃ e ∈ items, name e = n ∧ Q e ∧ ¬ Q (f (some e))
  | [], ⟨_, he, _⟩, _ => absurd he List.not_mem_nil
  | e :: es, ⟨x, hx, hQ⟩, hgone => by
      rw [updateNamed] at hgone
      split_ifs at hgone with hn
      · -- the items behind the changed one are still there
        rcases List.mem_cons.mp hx with rfl | hx
        · exact ⟨x, List.mem_cons_self, hn, hQ, hgone _ List.mem_cons_self⟩
        · exact absurd hQ (hgone x (List.mem_cons_of_mem _ hx))
      · rcases List.mem_cons.mp hx with rfl | hx
        · exact absurd hQ (hgone x List.mem_cons_self)
        · obtain ⟨e', he', hlost⟩ := changed_of_lost ⟨x, hx, hQ⟩ fun y hy =>
            hgone y (List.mem_cons_of_mem _ hy)
          exact ⟨e', List.mem_cons_of_mem _ he', hlost⟩

/-- What no item of a merged list has any more was lost when one item of the patch was merged into
one item of the list, as the items of the patch before it had left the list. -/
theorem exists_step_of_items_lost {Q : Value → Prop} :
    ∀ {ps items : List Value}, (∃ e ∈ items, Q e) → (∀ x ∈ mergeItems name ps items, ¬ Q x) →
      ∃ before p after, ps = before ++ p :: after ∧ ∃ e ∈ mergeItems name before items,
        name e = name p ∧ Q e ∧ ¬ Q (merge name p (some e))
  | [], _, ⟨e, he, hQ⟩, hgone => absurd hQ (hgone e he)
  | p :: ps, items, hitems, hgone => by
      by_cases hstep : ∃ e ∈ updateNamed name (name p) (merge name p) items, Q e
      · obtain ⟨before, q, after, rfl, hlost⟩ := exists_step_of_items_lost hstep hgone
        exact ⟨p :: before, q, after, rfl, hlost⟩
      · have hnone : ∀ x ∈ updateNamed name (name p) (merge name p) items, ¬ Q x :=
          fun x hx hQ => hstep ⟨x, hx, hQ⟩
        exact ⟨[], p, ps, rfl, changed_of_lost hitems hnone⟩

end Items

end EvidraBench.Lib.JsonMerge
