import EvidraBench.Gostd.Strings

/-!
# Keyed journals

A journal is a finite set of entries in which a key identifies an entry: recording an entry whose
key is already present changes nothing. Entries carry a time and belong to a group.

Results: `subset_recordAll`, `mem_recordAll_empty`, `filter_timeline_congr`.
-/

namespace EvidraBench.Lib

open EvidraBench.Gostd

/-- Entries with pairwise different keys, in the order they were recorded. -/
structure Journal (α κ : Type) (key : α → κ) where
  /-- The entries. -/
  entries : List α
  /-- A key identifies an entry. -/
  keys_nodup : (entries.map key).Nodup

namespace Journal

variable {α κ : Type} {key : α → κ}

def empty : Journal α κ key := ⟨[], List.nodup_nil⟩

theorem eq_of_key_eq (j : Journal α κ key) {a b : α} (ha : a ∈ j.entries) (hb : b ∈ j.entries)
    (h : key a = key b) : a = b :=
  List.inj_on_of_nodup_map j.keys_nodup ha hb h

section record

variable [DecidableEq κ]

def record (j : Journal α κ key) (a : α) : Journal α κ key :=
  if h : key a ∈ j.entries.map key then j
  else
    { entries := j.entries ++ [a]
      keys_nodup := by
        rw [List.map_append, List.map_singleton]
        exact j.keys_nodup.append (List.nodup_singleton _) (by simpa using h) }

def recordAll (j : Journal α κ key) (as : List α) : Journal α κ key := as.foldl record j

theorem subset_record (j : Journal α κ key) (a : α) : j.entries ⊆ (j.record a).entries := by
  unfold record
  split_ifs
  · exact fun _ h => h
  · exact List.subset_append_left _ _

theorem subset_recordAll (as : List α) :
    ∀ j : Journal α κ key, j.entries ⊆ (j.recordAll as).entries := by
  induction as with
  | nil => exact fun _ _ h => h
  | cons a as ih => exact fun j _ h => ih (j.record a) (subset_record j a h)

theorem mem_of_mem_recordAll (as : List α) :
    ∀ (j : Journal α κ key) {x : α}, x ∈ (j.recordAll as).entries → x ∈ j.entries ∨ x ∈ as := by
  induction as with
  | nil => exact fun _ _ h => Or.inl h
  | cons a as ih =>
      intro j x hx
      rcases ih (j.record a) hx with hx | hx
      · unfold record at hx
        split_ifs at hx
        · exact Or.inl hx
        · rcases List.mem_append.mp hx with hx | hx
          · exact Or.inl hx
          · exact Or.inr (List.mem_cons.mpr (Or.inl (List.mem_singleton.mp hx)))
      · exact Or.inr (List.mem_cons_of_mem a hx)

theorem exists_key_recordAll (as : List α) :
    ∀ (j : Journal α κ key) {a : α}, a ∈ as → ∃ x ∈ (j.recordAll as).entries, key x = key a := by
  induction as with
  | nil => exact fun _ _ h => absurd h List.not_mem_nil
  | cons b as ih =>
      intro j a ha
      rcases List.mem_cons.mp ha with rfl | ha
      · have hrec : ∃ x ∈ (j.record a).entries, key x = key a := by
          unfold record
          split_ifs with h
          · exact List.mem_map.mp h
          · exact ⟨a, List.mem_append_right _ (List.mem_singleton_self a), rfl⟩
        obtain ⟨x, hx, hkey⟩ := hrec
        exact ⟨x, subset_recordAll as (j.record a) hx, hkey⟩
      · exact ih (j.record b) ha

/-- When keys tell the offered entries apart, exactly they are recorded, whatever their order and
however often each is offered. -/
theorem mem_recordAll_empty {as : List α} (h : ∀ a ∈ as, ∀ b ∈ as, key a = key b → a = b) {x : α} :
    x ∈ ((empty : Journal α κ key).recordAll as).entries ↔ x ∈ as := by
  have hfrom : ∀ {y : α}, y ∈ ((empty : Journal α κ key).recordAll as).entries → y ∈ as := by
    intro y hy
    rcases mem_of_mem_recordAll as empty hy with hy | hy
    · exact absurd hy List.not_mem_nil
    · exact hy
  constructor
  · exact hfrom
  · intro hx
    obtain ⟨y, hy, hkey⟩ := exists_key_recordAll as (empty : Journal α κ key) hx
    rwa [← h y (hfrom hy) x hx hkey]

theorem recordAll_append (j : Journal α κ key) (as bs : List α) :
    j.recordAll (as ++ bs) = (j.recordAll as).recordAll bs := List.foldl_append

end record

/-! ### The timeline -/

section timeline

variable {τ : Type} [LinearOrder τ] [LinearOrder κ] (time : α → τ)

variable (key) in
/-- Earlier, or at the same time with a smaller key. -/
def Precedes (a b : α) : Prop := time a < time b ∨ (time a = time b ∧ key a ≤ key b)

instance (a b : α) : Decidable (Precedes key time a b) :=
  inferInstanceAs (Decidable (time a < time b ∨ (time a = time b ∧ key a ≤ key b)))

instance : Std.Total (Precedes key time) where
  total a b := by
    unfold Precedes
    rcases lt_trichotomy (time a) (time b) with h | h | h
    · exact Or.inl (Or.inl h)
    · rcases le_total (key a) (key b) with hk | hk
      · exact Or.inl (Or.inr ⟨h, hk⟩)
      · exact Or.inr (Or.inr ⟨h.symm, hk⟩)
    · exact Or.inr (Or.inl h)

instance : IsTrans α (Precedes key time) where
  trans a b c := by
    rintro (hab | ⟨hab, kab⟩) (hbc | ⟨hbc, kbc⟩)
    · exact Or.inl (hab.trans hbc)
    · exact Or.inl (hbc ▸ hab)
    · exact Or.inl (hab ▸ hbc)
    · exact Or.inr ⟨hab.trans hbc, kab.trans kbc⟩

theorem key_eq_of_precedes {a b : α} (hab : Precedes key time a b) (hba : Precedes key time b a) :
    key a = key b := by
  rcases hab with hab | ⟨hab, kab⟩ <;> rcases hba with hba | ⟨hba, kba⟩
  · exact absurd hba (lt_asymm hab)
  · exact absurd hba.symm hab.ne
  · exact absurd hab.symm hba.ne
  · exact le_antisymm kab kba

def timeline (j : Journal α κ key) : List α := j.entries.insertionSort (Precedes key time)

@[simp] theorem mem_timeline {j : Journal α κ key} {a : α} :
    a ∈ j.timeline time ↔ a ∈ j.entries := List.mem_insertionSort _

theorem keys_timeline_nodup (j : Journal α κ key) : ((j.timeline time).map key).Nodup :=
  ((List.perm_insertionSort _ _).map key).nodup_iff.mpr j.keys_nodup

theorem pairwise_timeline (j : Journal α κ key) :
    (j.timeline time).Pairwise (Precedes key time) := List.pairwise_insertionSort _ _

theorem filter_timeline_congr {j j' : Journal α κ key} (p : α → Bool)
    (h : ∀ a, p a → (a ∈ j.entries ↔ a ∈ j'.entries)) :
    (j.timeline time).filter p = (j'.timeline time).filter p := by
  refine @List.Perm.eq_of_pairwise _ (Precedes key time) _ _ ?_
    ((pairwise_timeline time j).filter _) ((pairwise_timeline time j').filter _) ?_
  · intro a b ha hb hab hba
    rw [List.mem_filter, mem_timeline] at ha hb
    exact j.eq_of_key_eq ha.1 ((h b hb.2).mpr hb.1) (key_eq_of_precedes time hab hba)
  · refine (List.perm_ext_iff_of_nodup ?_ ?_).mpr ?_
    · exact (List.Nodup.of_map _ (keys_timeline_nodup time j)).filter _
    · exact (List.Nodup.of_map _ (keys_timeline_nodup time j')).filter _
    · intro a
      simp only [List.mem_filter, mem_timeline]
      exact ⟨fun ha => ⟨(h a ha.2).mp ha.1, ha.2⟩, fun ha => ⟨(h a ha.2).mpr ha.1, ha.2⟩⟩

theorem timeline_congr {j j' : Journal α κ key} (h : ∀ a, a ∈ j.entries ↔ a ∈ j'.entries) :
    j.timeline time = j'.timeline time := by
  have hfilter := filter_timeline_congr time (fun _ => true) fun a _ => h a
  rwa [List.filter_true, List.filter_true] at hfilter

variable {γ : Type} [DecidableEq γ] (group : α → γ)

def groupOf (j : Journal α κ key) (g : γ) : List α := (j.timeline time).filter (group · = g)

/-- The groups, in order of first appearance on the timeline. -/
def groups (j : Journal α κ key) : List γ := dedupe ((j.timeline time).map group)

variable {time} {group}

@[simp] theorem mem_groupOf {j : Journal α κ key} {g : γ} {a : α} :
    a ∈ j.groupOf time group g ↔ a ∈ j.entries ∧ group a = g := by
  simp [groupOf]

@[simp] theorem mem_groups {j : Journal α κ key} {g : γ} :
    g ∈ j.groups time group ↔ ∃ a ∈ j.entries, group a = g := by
  simp [groups]

theorem nodup_groups (j : Journal α κ key) : (j.groups time group).Nodup := nodup_dedupe _

theorem groupOf_congr {j j' : Journal α κ key} {g : γ}
    (h : ∀ a, group a = g → (a ∈ j.entries ↔ a ∈ j'.entries)) :
    j.groupOf time group g = j'.groupOf time group g :=
  filter_timeline_congr time _ fun a ha => h a (by simpa using ha)

end timeline

end Journal

end EvidraBench.Lib
