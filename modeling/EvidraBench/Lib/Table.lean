import Mathlib

/-!
# Tables with a primary key

A table is a list of rows no two of which have the same key; the rule is a field, so that a table
that breaks it cannot be built. The operations are the statements of a relational store: an insert
that a taken key refuses, an update of the rows that meet a condition, and a lookup.

Results: `find_eq_some`, `find_update`, `find_insert`, `restrict_update`,
`restrict_update_of_disjoint`.
-/

namespace EvidraBench.Lib

variable {ρ κ : Type} {key : ρ → κ}

@[ext]
structure Table (key : ρ → κ) where
  rows : List ρ
  primary : (rows.map key).Nodup

namespace Table

def empty : Table key := ⟨[], List.nodup_nil⟩

/-- An update of the rows that meet a condition, by a function that keeps the key. -/
def update (t : Table key) (p : ρ → Bool) (f : ρ → ρ) (hf : ∀ r, key (f r) = key r) :
    Table key where
  rows := t.rows.map fun r => if p r then f r else r
  primary := by
    have hkey : (key ∘ fun r => if p r then f r else r) = key := by
      funext r
      rw [Function.comp_apply]
      split
      · exact hf r
      · rfl
    rw [List.map_map, hkey]
    exact t.primary

def restrict (t : Table key) (q : ρ → Bool) : Table key where
  rows := t.rows.filter q
  primary := t.primary.sublist (List.filter_sublist.map key)

section Lookup

variable [DecidableEq κ]

def find (t : Table key) (k : κ) : Option ρ := t.rows.find? fun r => key r = k

def insert (t : Table key) (r : ρ) : Option (Table key) :=
  if h : key r ∈ t.rows.map key then none
  else some ⟨t.rows ++ [r], by
    rw [List.map_append, List.map_singleton, ← List.concat_eq_append]
    exact t.primary.concat h⟩

variable {t t' : Table key} {p q : ρ → Bool} {f : ρ → ρ} {hf : ∀ r, key (f r) = key r}
  {k : κ} {r : ρ}

/-! ### Lookups -/

theorem find_eq_some : t.find k = some r ↔ r ∈ t.rows ∧ key r = k := by
  constructor
  · intro h
    exact ⟨List.mem_of_find?_eq_some h, by simpa using List.find?_some h⟩
  · rintro ⟨hr, rfl⟩
    rcases h : t.find (key r) with _ | r'
    · exact absurd (List.find?_eq_none.mp h r hr) (by simp)
    · have hkey : key r' = key r := by simpa using List.find?_some h
      have hr' := List.mem_of_find?_eq_some h
      rw [List.inj_on_of_nodup_map t.primary hr' hr hkey]

theorem find_eq_none : t.find k = none ↔ k ∉ t.rows.map key := by
  rw [find, List.find?_eq_none]
  simp

theorem find_update :
    (t.update p f hf).find k = (t.find k).map fun r => if p r then f r else r := by
  have hkey : ((fun r => decide (key r = k)) ∘ fun r => if p r then f r else r) =
      fun r => decide (key r = k) := by
    funext r
    rw [Function.comp_apply]
    split
    · rw [hf]
    · rfl
  rw [find, find, update, List.find?_map, hkey]

theorem find_insert (h : t.insert r = some t') :
    t'.find k = if key r = k then some r else t.find k := by
  rw [insert] at h
  split at h
  · cases h
  · rename_i hfresh
    obtain rfl := Option.some.inj h
    rw [find, List.find?_append]
    split
    · rename_i hk
      have hnone := find_eq_none.mpr (hk ▸ hfresh)
      rw [find] at hnone
      rw [hnone, Option.none_or]
      exact List.find?_cons_of_pos (by simpa using hk)
    · rename_i hk
      rw [List.find?_cons_of_neg (by simpa using hk), List.find?_nil, Option.or_none]
      rfl

theorem find_insert_of_some {r' : ρ} (h : t.insert r = some t') (hk : t.find k = some r') :
    t'.find k = some r' := by
  rw [find_insert h, if_neg, hk]
  rintro rfl
  rw [insert, dif_pos] at h
  · cases h
  · obtain ⟨hr', hkey⟩ := find_eq_some.mp hk
    exact hkey ▸ List.mem_map_of_mem hr'

theorem find_restrict : (t.restrict q).find k = (t.find k).filter q := by
  apply Option.ext
  intro r
  rw [find_eq_some, Option.filter_eq_some_iff, find_eq_some]
  show r ∈ t.rows.filter q ∧ key r = k ↔ _
  rw [List.mem_filter, and_right_comm]

theorem insert_eq_none : t.insert r = none ↔ t.find (key r) ≠ none := by
  rw [ne_eq, find_eq_none, not_not, insert]
  split
  · rename_i h
    exact iff_of_true rfl h
  · rename_i h
    exact iff_of_false (by simp) h

theorem insert_restrict (h : t.insert r = some t') (hr : q r = true) :
    (t.restrict q).insert r = some (t'.restrict q) := by
  have hfresh : (t.restrict q).find (key r) = none := by
    have hfind : t.find (key r) = none := by
      by_contra hne
      rw [insert_eq_none.mpr hne] at h
      cases h
    rw [find_restrict, hfind]
    rfl
  rw [insert] at h
  split at h
  · cases h
  · obtain rfl := Option.some.inj h
    rw [insert, dif_neg (find_eq_none.mp hfresh)]
    congr 1
    apply Table.ext
    show t.rows.filter q ++ [r] = (t.rows ++ [r]).filter q
    rw [List.filter_append, List.filter_cons_of_pos hr, List.filter_nil]

theorem restrict_insert_of_not (h : t.insert r = some t') (hr : q r = false) :
    t'.restrict q = t.restrict q := by
  rw [insert] at h
  split at h
  · cases h
  · obtain rfl := Option.some.inj h
    apply Table.ext
    show (t.rows ++ [r]).filter q = t.rows.filter q
    rw [List.filter_append, List.filter_cons_of_neg (by simpa using hr), List.filter_nil,
      List.append_nil]

end Lookup

variable {t : Table key} {p q : ρ → Bool} {f : ρ → ρ} (hf : ∀ r, key (f r) = key r)

/-! ### Parts of a table -/

theorem update_eq_self (h : t.rows.any p = false) : t.update p f hf = t := by
  apply Table.ext
  refine (List.map_congr_left fun r hr => ?_).trans (List.map_id _)
  rw [if_neg (List.any_eq_false.mp h r hr)]
  rfl

theorem restrict_update (hq : ∀ r, q (f r) = q r) :
    (t.update p f hf).restrict q = (t.restrict q).update p f hf := by
  have hcomp : (q ∘ fun r => if p r then f r else r) = q := by
    funext r
    rw [Function.comp_apply]
    split
    · exact hq r
    · rfl
  apply Table.ext
  show (t.rows.map _).filter q = (t.rows.filter q).map _
  rw [List.filter_map, hcomp]

theorem restrict_update_of_disjoint (hq : ∀ r, q (f r) = q r)
    (h : ∀ r ∈ t.rows, q r = true → p r = false) :
    (t.update p f hf).restrict q = t.restrict q := by
  rw [restrict_update hf hq]
  apply update_eq_self
  apply List.any_eq_false.mpr
  intro r hr
  obtain ⟨hmem, hqr⟩ := List.mem_filter.mp hr
  rw [h r hmem hqr]
  exact Bool.false_ne_true

end Table

end EvidraBench.Lib
