import EvidraBench.Gostd.Json
import EvidraBench.Gostd.Scalars

/-!
# `json.Unmarshal`

Decoding a scanned document into a Go value of a given type. `GoType` describes the target, `Value`
is the value stored there, and `decode` is the reflective walk of `encoding/json`:

`any` targets get the generic representation: objects as key-sorted maps in which the last of
repeated keys wins, numbers as `Float64`.
-/

namespace EvidraBench.Gostd

inductive GoType where
  /-- `string` and string kinds. -/
  | string
  /-- `bool`. -/
  | bool
  /-- `int`. -/
  | int
  /-- `float64`. -/
  | float
  /-- `any`. -/
  | any
  /-- `json.RawMessage`. -/
  | raw
  /-- `time.Time`. -/
  | time
  /-- `*T`. -/
  | ptr (elem : GoType)
  /-- `[]T`. -/
  | slice (elem : GoType)
  /-- `map[string]T`. -/
  | map (elem : GoType)
  /-- A struct, by its JSON field names. -/
  | struct (fields : List (String × GoType))

/-- A Go value, as the decoder stores it. A non-nil pointer is the value it points to. -/
inductive Value where
  /-- A nil pointer, slice, map or interface. -/
  | nil
  /-- A `bool`. -/
  | bool (b : Bool)
  /-- An `int`. -/
  | int (n : Int)
  /-- A `float64`. -/
  | float (x : Float64)
  /-- A `string`. -/
  | str (s : String)
  /-- A `time.Time`. -/
  | time (t : Time)
  /-- A non-nil `json.RawMessage`. -/
  | raw (doc : Doc)
  /-- A slice. -/
  | list (xs : List Value)
  /-- A map with string keys, sorted by key. -/
  | map (kvs : List (String × Value))
  /-- A struct, by its JSON field names. -/
  | struct (kvs : List (String × Value))
  /-- Any other dynamic value, as what `json.Marshal` writes for it (`none`: it refuses). -/
  | other (text : Option String)

namespace Value

/-- The string of a value, empty for anything else. -/
def asString : Value → String
  | str s => s
  | _ => ""

/-- The integer of a value, `0` for anything else. -/
def asInt : Value → Int
  | int n => n
  | _ => 0

/-- The instant of a value, the zero time for anything else. -/
def asTime : Value → Time
  | time t => t
  | _ => 0

def asRaw : Value → Option Doc
  | raw d => some d
  | _ => none

def asList : Value → List Value
  | list xs => xs
  | _ => []

def asMap : Value → List (String × Value)
  | map kvs => kvs
  | _ => []

/-- A field of a struct, nil when it has none of that name. -/
def field (name : String) : Value → Value
  | struct kvs => (kvs.lookup name).getD nil
  | _ => nil

def asPtr : Value → Option Value
  | nil => none
  | v => some v

end Value

/-- Store a key in a key-sorted map, replacing what it held. -/
def mapInsert {α : Type} (k : String) (v : α) : List (String × α) → List (String × α)
  | [] => [(k, v)]
  | (k', v') :: rest =>
      if k = k' then (k, v) :: rest
      else if k < k' then (k, v) :: (k', v') :: rest
      else (k', v') :: mapInsert k v rest

theorem lookup_cons_ite {α : Type} (k l : String) (v : α) (m : List (String × α)) :
    ((k, v) :: m).lookup l = if l = k then some v else m.lookup l := by
  rw [List.lookup_cons]
  by_cases h : l = k
  · simp [h]
  · rw [beq_false_of_ne h, if_neg h]

theorem lookup_mapInsert {α : Type} (k l : String) (v : α) (m : List (String × α)) :
    (mapInsert k v m).lookup l = if l = k then some v else m.lookup l := by
  induction m with
  | nil => rw [mapInsert, lookup_cons_ite]
  | cons kv m ih =>
      obtain ⟨k', v'⟩ := kv
      rw [mapInsert]
      by_cases h₁ : k = k'
      · subst h₁
        rw [if_pos rfl, lookup_cons_ite, lookup_cons_ite]
        split_ifs <;> rfl
      rw [if_neg h₁]
      by_cases h₂ : k < k'
      · rw [if_pos h₂, lookup_cons_ite]
      rw [if_neg h₂, lookup_cons_ite, lookup_cons_ite, ih]
      by_cases h : l = k'
      · have hk : l ≠ k := fun hk => h₁ (hk.symm.trans h)
        rw [if_pos h, if_neg hk, if_pos h]
      · rw [if_neg h, if_neg h]

/-! ### Zero values and fields -/

mutual

def GoType.zero : GoType → Value
  | .string => .str ""
  | .bool => .bool false
  | .int => .int 0
  | .float => .float ⟨false, 0, 0⟩
  | .time => .time 0
  | .any | .raw | .ptr _ | .slice _ | .map _ => .nil
  | .struct fields => .struct (GoType.zeros fields)

def GoType.zeros : List (String × GoType) → List (String × Value)
  | [] => []
  | (name, t) :: rest => (name, t.zero) :: GoType.zeros rest

end

/-- The field a member of that key decodes into: exact name first, else up to letter case. -/
def fieldFor (fields : List (String × GoType)) (key : String) : Option (String × GoType) :=
  (fields.find? fun f => f.1 == key).or (fields.find? fun f => equalFold f.1 key)

def setField (name : String) (v : Value) (kvs : List (String × Value)) : List (String × Value) :=
  kvs.map fun kv => if kv.1 = name then (name, v) else kv

/-! ### The walk -/

mutual

/-- The generic representation of a document, for `any` targets. Fails on a number beyond the
finite binary64 range. -/
def Doc.toAny : Doc → Option Value
  | .null => some .nil
  | .bool b => some (.bool b)
  | .num lit => (parseFloat lit.toList).map .float
  | .str lit => some (.str (String.ofList (Doc.unquote lit.toList)))
  | .arr _ items => (Doc.itemsToAny items).map .list
  | .obj _ members => (Doc.membersToAny [] members).map .map

/-- The generic representations of the items of an array. -/
def Doc.itemsToAny : List Doc → Option (List Value)
  | [] => some []
  | d :: rest => do
      let v ← d.toAny
      let vs ← Doc.itemsToAny rest
      return v :: vs

/-- The generic representations of the members of an object, stored in order. -/
def Doc.membersToAny (acc : List (String × Value)) :
    List (String × Doc) → Option (List (String × Value))
  | [] => some acc
  | (k, d) :: rest => do
      let v ← d.toAny
      Doc.membersToAny (mapInsert k v acc) rest

end

mutual

/-- Decode a document into a target of type `t` that holds `cur`. -/
def Doc.decode (t : GoType) (cur : Value) : Doc → Option Value
  | .null =>
      match t with
      | .any | .ptr _ | .slice _ | .map _ => some .nil
      | .raw => some (.raw .null)
      | _ => some cur
  | .bool b =>
      match t with
      | .bool => some (.bool b)
      | .ptr .bool => some (.bool b)
      | .any => some (.bool b)
      | .raw => some (.raw (.bool b))
      | _ => none
  | .num lit =>
      match t with
      | .int | .ptr .int => (parseInt64 lit.toList).map .int
      | .float | .ptr .float => (parseFloat lit.toList).map .float
      | .any => (parseFloat lit.toList).map .float
      | .raw => some (.raw (.num lit))
      | _ => none
  | .str lit =>
      match t with
      | .string | .ptr .string => some (.str (String.ofList (Doc.unquote lit.toList)))
      | .time | .ptr .time => (parseTime lit.toList).map .time
      | .any => some (.str (String.ofList (Doc.unquote lit.toList)))
      | .raw => some (.raw (.str lit))
      | _ => none
  | .arr text items =>
      match t with
      | .slice elem => (Doc.decodeItems elem cur.asList items).map .list
      | .any => (Doc.itemsToAny items).map .list
      | .raw => some (.raw (.arr text items))
      | _ => none
  | .obj text members =>
      match t with
      | .struct fields => Doc.decodeMembers fields cur members
      -- a nil pointer gets a zero struct to decode into
      | .ptr (.struct fields) =>
          Doc.decodeMembers fields ((cur.asPtr).getD (GoType.struct fields).zero) members
      | .map elem => (Doc.decodeEntries elem cur.asMap members).map .map
      | .any => (Doc.membersToAny [] members).map .map
      | .raw => some (.raw (.obj text members))
      | _ => none

/-- Decode the items of an array into a slice; the slots the slice already has are decoded into. -/
def Doc.decodeItems (elem : GoType) (cur : List Value) : List Doc → Option (List Value)
  | [] => some []
  | d :: rest => do
      let v ← Doc.decode elem (cur.head?.getD elem.zero) d
      let vs ← Doc.decodeItems elem cur.tail rest
      return v :: vs

/-- Decode the members of an object into a struct. -/
def Doc.decodeMembers (fields : List (String × GoType)) (cur : Value) :
    List (String × Doc) → Option Value
  | [] => some cur
  | (key, d) :: rest =>
      match fieldFor fields key with
      | none => Doc.decodeMembers fields cur rest
      | some (name, t) => do
          let v ← Doc.decode t (cur.field name) d
          let kvs := match cur with
            | .struct kvs => kvs
            | _ => []
          Doc.decodeMembers fields (.struct (setField name v kvs)) rest

/-- Decode the members of an object into a map; every value starts from zero. -/
def Doc.decodeEntries (elem : GoType) (acc : List (String × Value)) :
    List (String × Doc) → Option (List (String × Value))
  | [] => some acc
  | (key, d) :: rest => do
      let v ← Doc.decode elem elem.zero d
      Doc.decodeEntries elem (mapInsert key v acc) rest

end

theorem Doc.decode_any (cur : Value) (d : Doc) : d.decode .any cur = d.toAny := by
  cases d <;> rfl

theorem Doc.decodeEntries_any (acc : List (String × Value)) (ms : List (String × Doc)) :
    Doc.decodeEntries .any acc ms = Doc.membersToAny acc ms := by
  induction ms generalizing acc with
  | nil => rfl
  | cons kd ms ih =>
      obtain ⟨k, d⟩ := kd
      simp only [Doc.decodeEntries, Doc.membersToAny, Doc.decode_any, ih]

/-- `json.Unmarshal` into a zero value of type `t`; `none` is an error. -/
def unmarshal (t : GoType) (text : List Char) : Option Value := do
  let d ← Doc.scan text
  d.decode t t.zero

/-- The members of an object, each into its field. One that does not fit is passed over, since a
type error does not stop the decoder; the fields are scalars. -/
def Doc.keepMembers (fields : List (String × GoType)) (cur : List (String × Value)) :
    List (String × Doc) → List (String × Value)
  | [] => cur
  | (key, d) :: rest =>
      match fieldFor fields key with
      | none => Doc.keepMembers fields cur rest
      | some (name, t) =>
          match Doc.decode t ((cur.lookup name).getD .nil) d with
          | none => Doc.keepMembers fields cur rest
          | some v => Doc.keepMembers fields (setField name v cur) rest

/-- What a struct of scalar fields holds after `json.Unmarshal`, whether it failed or not. -/
def unmarshalKept (fields : List (String × GoType)) (text : List Char) : Value :=
  match Doc.scan text with
  | some (.obj _ members) => .struct (Doc.keepMembers fields (GoType.zeros fields) members)
  | _ => .struct (GoType.zeros fields)

end EvidraBench.Gostd
