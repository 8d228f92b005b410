import EvidraBench.Gostd.Write

/-!
# Structs that are written and read back

What `encoding/json` writes for a struct is an object with a member for each field that is not
omitted, in the order of the fields; reading it gives every such field its value and leaves the
others zero.

Results: `reads_struct`, `unmarshal_text`.
-/

namespace EvidraBench.Gostd

/-- What a Go `int` holds. -/
def GoInt := { n : Int // -(2 ^ 63) ≤ n ∧ n < 2 ^ 63 }
deriving DecidableEq

def Value.asGoInt : Value → Option GoInt
  | .int n => if h : -(2 ^ 63) ≤ n ∧ n < 2 ^ 63 then some ⟨n, h⟩ else none
  | _ => none

/-- The truth value of a value, `false` for anything else. -/
def Value.asBool : Value → Bool
  | .bool b => b
  | _ => false

/-- Whatever says `j` is read into a zero value of the type as `v`. -/
def Reads (t : GoType) (j : Json) (v : Value) : Prop :=
  ∀ d : Doc, d.json = j → d.decode t t.zero = some v

/-! ### Scalars and slices -/

theorem reads_string (s : String) : Reads .string (.str s) (.str s) := by
  intro d hd
  obtain ⟨lit, rfl, hlit⟩ := Doc.exists_str_of_json hd
  rw [Doc.decode, hlit]

section int

variable {n : Int} (hlo : -(2 ^ 63) ≤ n) (hhi : n < 2 ^ 63)
include hlo hhi

theorem reads_int : Reads .int (.num (formatInt n)) (.int n) := by
  intro d hd
  rw [Doc.eq_num_of_json hd, Doc.decode, String.toList_ofList, parseInt64_formatInt hlo hhi]
  rfl

theorem reads_ptr_int : Reads (.ptr .int) (.num (formatInt n)) (.int n) := by
  intro d hd
  rw [Doc.eq_num_of_json hd, Doc.decode, String.toList_ofList, parseInt64_formatInt hlo hhi]
  rfl

end int

theorem reads_slice {t : GoType} {js : List Json} {vs : List Value}
    (h : List.Forall₂ (Reads t) js vs) : Reads (.slice t) (.arr js) (.list vs) := by
  intro d hd
  obtain ⟨raw, ds, rfl, hds⟩ := Doc.exists_arr_of_json hd
  have hitems : Doc.decodeItems t [] ds = some vs := by
    clear hd
    induction h generalizing ds with
    | nil =>
        cases ds with
        | nil => rfl
        | cons d ds => cases hds
    | cons hj _ ih =>
        cases ds with
        | nil => cases hds
        | cons d ds =>
            obtain ⟨hd, hds⟩ := List.cons.inj hds
            rw [Doc.decodeItems]
            show (Doc.decode t t.zero d).bind _ = _
            rw [hj d hd, Option.bind_some]
            show (Doc.decodeItems t [] ds).bind _ = _
            rw [ih ds hds]
            rfl
  rw [Doc.decode]
  show (Doc.decodeItems t [] ds).map Value.list = _
  rw [hitems]
  rfl

/-! ### Fields -/

structure StructField where
  name : String
  type : GoType
  /-- What is written for it; `none` if it is left out. -/
  written : Option Json
  value : Value

namespace StructField

/-- What is written is read back, and what is left out is zero. -/
def ReadsBack (f : StructField) : Prop :=
  match f.written with
  | none => f.value = f.type.zero
  | some j => Reads f.type j f.value

def types (fs : List StructField) : List (String × GoType) := fs.map fun f => (f.name, f.type)

def members (fs : List StructField) : List (String × Json) :=
  fs.filterMap fun f => f.written.map fun j => (f.name, j)

def values (fs : List StructField) : List (String × Value) := fs.map fun f => (f.name, f.value)

/-- The type and what is written for a nested struct. -/
def struct (name : String) (fs : List StructField) : StructField :=
  ⟨name, .struct (types fs), some (.obj (members fs)), .struct (values fs)⟩

def string (name s : String) : StructField := ⟨name, .string, some (.str s), .str s⟩

def stringOmit (name s : String) : StructField :=
  ⟨name, .string, if s = "" then none else some (.str s), .str s⟩

def bool (name : String) (b : Bool) : StructField := ⟨name, .bool, some (.bool b), .bool b⟩

def int (name : String) (n : Int) : StructField :=
  ⟨name, .int, some (.num (formatInt n)), .int n⟩

/-- An `int` behind a pointer, left out when there is none. -/
def intOmit (name : String) (n : Option GoInt) : StructField :=
  ⟨name, .ptr .int, n.map fun n => .num (formatInt n.1), (n.map fun n => .int n.1).getD .nil⟩

def sliceOmit (name : String) (t : GoType) (items : List (Json × Value)) : StructField :=
  if items.isEmpty then ⟨name, .slice t, none, .nil⟩
  else ⟨name, .slice t, some (.arr (items.map Prod.fst)), .list (items.map Prod.snd)⟩

/-- A slice that is always written: null when it is nil. -/
def slice (name : String) (t : GoType) (items : List (Json × Value)) : StructField :=
  if items.isEmpty then ⟨name, .slice t, some .null, .nil⟩
  else ⟨name, .slice t, some (.arr (items.map Prod.fst)), .list (items.map Prod.snd)⟩

section lemmas

variable {fs : List StructField}

theorem readsBack_string (name s : String) : (string name s).ReadsBack := reads_string s

theorem readsBack_stringOmit (name s : String) : (stringOmit name s).ReadsBack := by
  unfold ReadsBack stringOmit
  by_cases hs : s = ""
  · rw [if_pos hs, hs]
    rfl
  · rw [if_neg hs]
    exact reads_string s

theorem readsBack_int (name : String) {n : Int} (hlo : -(2 ^ 63) ≤ n) (hhi : n < 2 ^ 63) :
    (int name n).ReadsBack := reads_int hlo hhi

@[simp] theorem name_sliceOmit (name : String) (t : GoType) (items : List (Json × Value)) :
    (sliceOmit name t items).name = name := by
  unfold sliceOmit
  split_ifs <;> rfl

@[simp] theorem type_sliceOmit (name : String) (t : GoType) (items : List (Json × Value)) :
    (sliceOmit name t items).type = .slice t := by
  unfold sliceOmit
  split_ifs <;> rfl

@[simp] theorem asList_sliceOmit (name : String) (t : GoType) (items : List (Json × Value)) :
    (sliceOmit name t items).value.asList = items.map Prod.snd := by
  cases items <;> rfl

theorem readsBack_intOmit (name : String) (n : Option GoInt) : (intOmit name n).ReadsBack := by
  cases n with
  | none => rfl
  | some n => exact reads_ptr_int n.2.1 n.2.2

theorem readsBack_sliceOmit (name : String) {t : GoType} {items : List (Json × Value)}
    (h : ∀ p ∈ items, Reads t p.1 p.2) : (sliceOmit name t items).ReadsBack := by
  cases items with
  | nil => rfl
  | cons p items =>
      refine reads_slice (List.forall₂_map_left_iff.mpr (List.forall₂_map_right_iff.mpr ?_))
      exact List.forall₂_same.mpr h

theorem zeros_types (fs : List StructField) :
    GoType.zeros (types fs) = fs.map fun f => (f.name, f.type.zero) := by
  induction fs with
  | nil => rfl
  | cons f fs ih =>
      show (f.name, f.type.zero) :: GoType.zeros (types fs) = _
      rw [ih, List.map_cons]

theorem setField_of_ne {name : String} {v : Value} {kvs : List (String × Value)}
    (h : ∀ p ∈ kvs, p.1 ≠ name) : setField name v kvs = kvs := by
  unfold setField
  conv_rhs => rw [← List.map_id kvs]
  exact List.map_congr_left fun p hp => if_neg (h p hp)

section split

-- the fields before one of them, that one, and those behind it
variable {pre : List StructField} {f : StructField} (hnodup : ((pre ++ f :: fs).map name).Nodup)
include hnodup

theorem name_ne : (∀ g ∈ pre, g.name ≠ f.name) ∧ ∀ g ∈ fs, g.name ≠ f.name := by
  rw [List.map_append, List.map_cons, List.nodup_append, List.nodup_cons] at hnodup
  refine ⟨fun g hg => ?_, fun g hg heq => ?_⟩
  · exact hnodup.2.2 g.name (List.mem_map_of_mem hg) f.name List.mem_cons_self
  · exact hnodup.2.1.1 (heq ▸ List.mem_map_of_mem hg)

theorem fieldFor_types : fieldFor (types (pre ++ f :: fs)) f.name = some (f.name, f.type) := by
  have hpre : ((pre.map fun g => (g.name, g.type)).find? fun p => p.1 == f.name) = none := by
    refine List.find?_eq_none.mpr fun p hp hname => ?_
    obtain ⟨g, hg, rfl⟩ := List.mem_map.mp hp
    exact (name_ne hnodup).1 g hg (eq_of_beq hname)
  unfold fieldFor types
  rw [List.map_append, List.find?_append, hpre, List.map_cons, List.find?_cons_of_pos (by simp)]
  rfl

theorem field_values (v : Value) (rest : List (String × Value)) :
    (Value.struct (values pre ++ (f.name, v) :: rest)).field f.name = v := by
  have hpre : (values pre).lookup f.name = none := by
    refine List.lookup_eq_none_iff.mpr fun p hp => ?_
    obtain ⟨g, hg, rfl⟩ := List.mem_map.mp hp
    exact bne_iff_ne.mpr ((name_ne hnodup).1 g hg).symm
  rw [Value.field, List.lookup_append, hpre, List.lookup_cons_self]
  rfl

theorem setField_values (v w : Value) :
    setField f.name v (values pre ++ (f.name, w) :: GoType.zeros (types fs)) =
      values pre ++ (f.name, v) :: GoType.zeros (types fs) := by
  have hpre : setField f.name v (values pre) = values pre := by
    refine setField_of_ne fun p hp => ?_
    obtain ⟨g, hg, rfl⟩ := List.mem_map.mp hp
    exact (name_ne hnodup).1 g hg
  have hrest : setField f.name v (GoType.zeros (types fs)) = GoType.zeros (types fs) := by
    refine setField_of_ne fun p hp => ?_
    rw [zeros_types] at hp
    obtain ⟨g, hg, rfl⟩ := List.mem_map.mp hp
    exact (name_ne hnodup).2 g hg
  unfold setField at hpre hrest ⊢
  rw [List.map_append, List.map_cons, hpre, hrest, if_pos rfl]

end split

end lemmas

end StructField

/-! ### Structs -/

section struct

open StructField

variable {fs : List StructField}

theorem decodeMembers_fields {pre : List StructField} {ms : List (String × Doc)}
    (hnodup : ((pre ++ fs).map name).Nodup) (h : ∀ f ∈ fs, f.ReadsBack)
    (hms : Doc.jsonMembers ms = members fs) :
    Doc.decodeMembers (types (pre ++ fs)) (.struct (values pre ++ GoType.zeros (types fs))) ms =
      some (.struct (values (pre ++ fs))) := by
  induction fs generalizing pre ms with
  | nil =>
      cases ms with
      | nil => rw [List.append_nil]; exact congrArg (some ∘ Value.struct) (List.append_nil _)
      | cons m ms => cases hms
  | cons f fs ih =>
      -- the field joins those that have their value
      have hjoin : pre ++ f :: fs = (pre ++ [f]) ++ fs := List.append_cons pre f fs
      have hvalues : values (pre ++ [f]) ++ GoType.zeros (types fs) =
          values pre ++ (f.name, f.value) :: GoType.zeros (types fs) := by
        unfold values
        rw [List.map_append, List.append_assoc]
        rfl
      have hzeros : GoType.zeros (types (f :: fs)) =
          (f.name, f.type.zero) :: GoType.zeros (types fs) := rfl
      obtain ⟨hf, hfs⟩ := List.forall_mem_cons.mp h
      unfold ReadsBack at hf
      cases hwritten : f.written with
      | none =>
          have hnone : members (f :: fs) = members fs := by
            unfold members
            rw [List.filterMap_cons_none (by rw [hwritten]; rfl)]
          rw [hwritten] at hf
          rw [hnone] at hms
          rw [hzeros, ← hf, ← hvalues, hjoin]
          exact ih (hjoin ▸ hnodup) hfs hms
      | some j =>
          have hsome : members (f :: fs) = (f.name, j) :: members fs := by
            unfold members
            rw [List.filterMap_cons_some (by rw [hwritten]; rfl)]
          rw [hwritten] at hf
          rw [hsome] at hms
          cases ms with
          | nil => cases hms
          | cons m ms =>
              obtain ⟨key, d⟩ := m
              obtain ⟨hm, hrest⟩ := List.cons.inj hms
              obtain ⟨rfl, hd⟩ := Prod.mk.inj hm
              rw [Doc.decodeMembers, fieldFor_types hnodup, hzeros]
              simp only [field_values hnodup, hf d hd, Option.bind_eq_bind, Option.bind_some,
                setField_values hnodup]
              rw [← hvalues, hjoin]
              exact ih (hjoin ▸ hnodup) hfs hrest

/-- **A struct is read back.** -/
theorem reads_struct (hnodup : (fs.map name).Nodup) (h : ∀ f ∈ fs, f.ReadsBack) :
    Reads (.struct (types fs)) (.obj (members fs)) (.struct (values fs)) := by
  intro d hd
  obtain ⟨raw, ms, rfl, hms⟩ := Doc.exists_obj_of_json hd
  exact @decodeMembers_fields fs [] ms hnodup h hms

theorem StructField.readsBack_struct (name : String) (hnodup : (fs.map StructField.name).Nodup)
    (h : ∀ f ∈ fs, f.ReadsBack) : (StructField.struct name fs).ReadsBack :=
  reads_struct hnodup h

end struct

/-! ### Well-formed documents -/

theorem Json.itemsOk_iff {items : List Json} {depth : Nat} :
    Json.ItemsOk items depth ↔ ∀ j ∈ items, j.Ok depth := by
  induction items with
  | nil => exact iff_of_true trivial (List.forall_mem_nil _)
  | cons j items ih => rw [Json.ItemsOk, ih, List.forall_mem_cons]

def StructField.Ok (f : StructField) (depth : Nat) : Prop := ∀ j, f.written = some j → j.Ok depth

theorem StructField.membersOk {fs : List StructField} {depth : Nat} (h : ∀ f ∈ fs, f.Ok depth) :
    Json.MembersOk (StructField.members fs) depth := by
  induction fs with
  | nil => trivial
  | cons f fs ih =>
      obtain ⟨hf, hfs⟩ := List.forall_mem_cons.mp h
      unfold StructField.members
      cases hwritten : f.written with
      | none =>
          rw [List.filterMap_cons_none (by rw [hwritten]; rfl)]
          exact ih hfs
      | some j =>
          rw [List.filterMap_cons_some (by rw [hwritten]; rfl)]
          exact ⟨hf j hwritten, ih hfs⟩

/-- A field that is written well formed, at so many open brackets at most, and read back. -/
def StructField.Good (f : StructField) (depth : Nat) : Prop := f.ReadsBack ∧ f.Ok depth

namespace StructField

variable {depth : Nat} (name : String)

@[simp] theorem good_string (s : String) : (string name s).Good depth := by
  refine ⟨readsBack_string name s, fun j hj => ?_⟩
  cases hj
  trivial

@[simp] theorem good_stringOmit (s : String) : (stringOmit name s).Good depth := by
  refine ⟨readsBack_stringOmit name s, fun j hj => ?_⟩
  unfold stringOmit at hj
  split_ifs at hj
  cases hj
  trivial

@[simp] theorem good_intOmit (n : Option GoInt) : (intOmit name n).Good depth := by
  refine ⟨readsBack_intOmit name n, fun j hj => ?_⟩
  obtain ⟨m, -, rfl⟩ := Option.map_eq_some_iff.mp hj
  exact isLiteral_formatInt _

theorem good_struct {fs : List StructField} (hnodup : (fs.map StructField.name).Nodup)
    (h : ∀ f ∈ fs, f.Good depth) : (struct name fs).Good (depth + 1) := by
  refine ⟨readsBack_struct name hnodup fun f hf => (h f hf).1, fun j hj => ?_⟩
  cases hj
  exact ⟨Nat.succ_pos depth, membersOk fun f hf => (h f hf).2⟩

theorem good_sliceOmit {t : GoType} {items : List (Json × Value)}
    (h : ∀ p ∈ items, Reads t p.1 p.2 ∧ p.1.Ok depth) :
    (sliceOmit name t items).Good (depth + 1) := by
  refine ⟨readsBack_sliceOmit name fun p hp => (h p hp).1, fun j hj => ?_⟩
  cases items with
  | nil => cases hj
  | cons p items =>
      cases hj
      refine ⟨Nat.succ_pos depth, Json.itemsOk_iff.mpr fun j hj => ?_⟩
      obtain ⟨p, hp, rfl⟩ := List.mem_map.mp hj
      exact (h p hp).2

theorem reads_of_good {fs : List StructField} (hnodup : (fs.map StructField.name).Nodup)
    (h : ∀ f ∈ fs, f.Good depth) :
    Reads (.struct (types fs)) (.obj (members fs)) (.struct (values fs)) ∧
      (Json.obj (members fs)).Ok (depth + 1) :=
  ⟨reads_struct hnodup fun f hf => (h f hf).1, Nat.succ_pos depth, membersOk fun f hf => (h f hf).2⟩

end StructField

/-- **What is written is unmarshalled.** -/
theorem unmarshal_text {t : GoType} {j : Json} {v : Value} (h : Reads t j v)
    (hok : j.Ok Doc.maxNestingDepth) (L : Layout) : unmarshal t (j.text L 0) = some v := by
  obtain ⟨d, hd, hjson⟩ := @Json.scan_text L 0 j hok
  unfold unmarshal
  rw [hd]
  exact h d hjson

end EvidraBench.Gostd
