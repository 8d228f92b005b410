import EvidraBench.Gostd.Unmarshal

/-!
# Field transitions in request bodies

`pkg/audit/fields.go`: whether an audited request body removes a field or sets it to a forbidden
value. A body is a JSON Patch array or a merge object, and anything else is *unverifiable*, which
is the second result of `forbiddenChangeMatches`.

The source compares JSON values by marshalling them. Marshalling is injective on decoded values, so
the model compares the decoded values (`Value.same`), and a text that a caller just marshalled is
represented by the value it came from.
-/

namespace EvidraBench.Gostd

/-! ### Comparing decoded values -/

mutual

def Value.same : Value → Value → Bool
  | .nil, .nil => true
  | .bool a, .bool b => a == b
  | .float x, .float y => x == y
  | .str s, .str t => s == t
  | .list xs, .list ys => Value.sameList xs ys
  | .map xs, .map ys => Value.sameEntries xs ys
  | _, _ => false

def Value.sameList : List Value → List Value → Bool
  | [], [] => true
  | x :: xs, y :: ys => x.same y && Value.sameList xs ys
  | _, _ => false

/-- Equality of decoded objects; both are sorted by key. -/
def Value.sameEntries : List (String × Value) → List (String × Value) → Bool
  | [], [] => true
  | (k, x) :: xs, (l, y) :: ys => k == l && x.same y && Value.sameEntries xs ys
  | _, _ => false

end

mutual

theorem Value.eq_of_same : (a b : Value) → a.same b = true → a = b
  | .list xs, b, h => by
      cases b with
      | list ys => rw [Value.eq_of_sameList xs ys h]
      | _ => cases h
  | .map xs, b, h => by
      cases b with
      | map ys => rw [Value.eq_of_sameEntries xs ys h]
      | _ => cases h
  | .nil, b, h => by cases b <;> first | rfl | cases h
  | .bool a, b, h => by cases b <;> first | rw [beq_iff_eq.mp h] | cases h
  | .float x, b, h => by cases b <;> first | rw [beq_iff_eq.mp h] | cases h
  | .str s, b, h => by cases b <;> first | rw [beq_iff_eq.mp h] | cases h
  | .int _, b, h => by cases b <;> cases h
  | .time _, b, h => by cases b <;> cases h
  | .raw _, b, h => by cases b <;> cases h
  | .struct _, b, h => by cases b <;> cases h
  | .other _, b, h => by cases b <;> cases h

theorem Value.eq_of_sameList : (xs ys : List Value) → Value.sameList xs ys = true → xs = ys
  | [], [], _ => rfl
  | [], _ :: _, h => by cases h
  | _ :: _, [], h => by cases h
  | x :: xs, y :: ys, h => by
      obtain ⟨hx, hxs⟩ := Bool.and_eq_true_iff.mp h
      rw [Value.eq_of_same x y hx, Value.eq_of_sameList xs ys hxs]

theorem Value.eq_of_sameEntries :
    (xs ys : List (String × Value)) → Value.sameEntries xs ys = true → xs = ys
  | [], [], _ => rfl
  | [], _ :: _, h => by cases h
  | _ :: _, [], h => by cases h
  | (k, x) :: xs, (l, y) :: ys, h => by
      obtain ⟨hkx, hxs⟩ := Bool.and_eq_true_iff.mp h
      obtain ⟨hk, hx⟩ := Bool.and_eq_true_iff.mp hkx
      rw [beq_iff_eq.mp hk, Value.eq_of_same x y hx, Value.eq_of_sameEntries xs ys hxs]

end

mutual

/-- `json.Marshal` followed by `json.Unmarshal` into `any`: integers become floats, and a value
that cannot be marshalled is an error. -/
def Value.viaJson : Value → Option Value
  | .nil => some .nil
  | .bool b => some (.bool b)
  | .int n => if n = 0 then some (.float ⟨false, 0, 0⟩)
      else (roundFraction (n < 0) n.natAbs 1).map .float
  | .float x => some (.float x)
  | .str s => some (.str s)
  | .raw d => d.toAny
  | .list xs => (Value.listViaJson xs).map .list
  | .map kvs => (Value.entriesViaJson [] kvs).map .map
  | .struct kvs => (Value.entriesViaJson [] kvs).map .map
  | .other (some text) => unmarshal .any text.toList
  | .time _ | .other none => none

/-- `viaJson` on the items of a slice. -/
def Value.listViaJson : List Value → Option (List Value)
  | [] => some []
  | v :: rest => do
      let v ← v.viaJson
      let vs ← Value.listViaJson rest
      return v :: vs

/-- `viaJson` on the entries of a map. -/
def Value.entriesViaJson (acc : List (String × Value)) :
    List (String × Value) → Option (List (String × Value))
  | [] => some acc
  | (k, v) :: rest => do
      let v ← v.viaJson
      Value.entriesViaJson (mapInsert k v acc) rest

end

end EvidraBench.Gostd

namespace EvidraBench.Audit

open EvidraBench.Gostd

/-! ### Field paths -/

/-- One step of a dotted field path; `pred` is the `name` a list step selects by, empty when it
does not select.
Source: `FieldSegment` -/
structure FieldSegment where
  key : String
  pred : String
deriving DecidableEq, Repr

/-- One dotted part, such as `containers[name=api]`.
Source: `ParseFieldPath`, the loop body -/
def parseSegment (part : String) : FieldSegment :=
  let (key, rest, bracket) := cut part '['
  if bracket && hasSuffix part "]" then
    let (attr, wanted, eq) := cut (String.ofList rest.toList.dropLast) '='
    ⟨key, if eq && attr == "name" then wanted else ""⟩
  else ⟨part, ""⟩

def parseFieldPath (field : String) : List FieldSegment :=
  ((split field '.').filter (· ≠ "")).map parseSegment

/-- The normalized path: with `withIndex` a selecting list step takes a second place, an index.
Source: `rulePath` -/
def rulePath (segs : List FieldSegment) (withIndex : Bool) : List String :=
  segs.flatMap fun s => if withIndex && s.pred ≠ "" then [s.key, "*"] else [s.key]

/-- `strings.ReplaceAll(seg, "~" + code, plain)` on the characters. -/
def unescape (code plain : Char) : List Char → List Char
  | '~' :: d :: rest =>
      if d = code then plain :: unescape code plain rest
      else '~' :: unescape code plain (d :: rest)
  | c :: rest => c :: unescape code plain rest
  | [] => []

/-- One reference token of a JSON pointer: unescaped, an index folded to `*`.
Source: `normalizePointer`, the loop body -/
def normalizeToken (seg : String) : String :=
  let seg := unescape '0' '~' (unescape '1' '/' seg.toList)
  if (parseInt64 seg).isSome then "*" else String.ofList seg

def normalizePointer (p : String) : List String :=
  let p := if hasPrefix p "/" then String.ofList (p.toList.drop 1) else p
  if p = "" then [] else (split p '/').map normalizeToken

/-- Whether `got`, no longer than `rule`, agrees with it place by place, `*` matching anything.
Source: `equalPrefix` -/
def equalPrefix (rule got : List String) : Bool :=
  (rule.zip got).all fun (r, g) => r == g || r == "*" || g == "*"

/-! ### Values -/

/-- Whether a JSON text holds the value of a rule. `got` is what the text decodes to, `none` when
it does not decode; a null text is the only one that decodes to nil.
Source: `jsonValueEquals`, `jsonDeepEqual` -/
def jsonValueEquals (got : Option Value) (value : Value) : Bool :=
  match got, value with
  | some .nil, .nil => true
  | _, .nil => false
  | some v, value =>
      match value.viaJson with
      | some want => v.same want
      | none => false
  | none, _ => false

/-- Follow plain keys into a patch value; in a list, into the first object that has the key.
Source: `walkJSONValue` -/
def walkJSONValue : List String → Value → Option Value
  | [], cur => some cur
  | k :: keys, .map m =>
      match m.lookup k with
      | some v => walkJSONValue keys v
      | none => none
  | k :: keys, .list items =>
      match items.findSome? fun e => e.asMap.lookup k with
      | some v => walkJSONValue keys v
      | none => none
  | _ :: _, _ => none

/-! ### JSON Patch -/

/-- Source: `jsonPatchOp`; `value` is absent when the member is -/
structure JsonPatchOp where
  op : String
  path : String
  value : Option Doc

/-- The JSON shape of a patch array.
Source: `jsonPatchOp` -/
def jsonPatchType : GoType :=
  .slice (.struct [("op", .string), ("path", .string), ("value", .raw)])

/-- The operations of a patch array; `none` is a decoding error. -/
def decodePatch (body : String) : Option (List JsonPatchOp) :=
  (unmarshal jsonPatchType body.toList).map fun v => v.asList.map fun o =>
    ⟨(o.field "op").asString, (o.field "path").asString, (o.field "value").asRaw⟩

/-- Whether one operation performs the transition.
Source: `jsonPatchMatches`, the loop body -/
def patchOpMatches (rp : List String) (change : String) (value : Value) (o : JsonPatchOp) : Bool :=
  let np := normalizePointer o.path
  let written := o.value.bind Doc.toAny
  if np.isEmpty then false
  else if change = "removed" then
    -- removing the field or any ancestor of it
    o.op == "remove" && np.length ≤ rp.length && equalPrefix rp np
  else if change = "set" then
    (o.op == "replace" || o.op == "add") &&
      ((np.length == rp.length && equalPrefix rp np && jsonValueEquals written value) ||
        -- the value may ride inside a new ancestor
        (np.length < rp.length && equalPrefix (rp.take np.length) np &&
          match written.bind (walkJSONValue (rp.drop np.length)) with
          | some v => jsonValueEquals (some v) value
          | none => false))
  else false

def jsonPatchMatches (body : String) (segs : List FieldSegment) (change : String) (value : Value) :
    Bool :=
  match decodePatch body with
  | some ops => ops.any (patchOpMatches (rulePath segs true) change value)
  | none => false

/-! ### Merge objects -/

/-- The objects of a list that a step selects: those of the wanted name, or all of them.
Source: `walkMerge`, `absentWalk`, the `cand` loops -/
def selectEntries (seg : FieldSegment) (items : List Value) : List Value :=
  items.filter fun e =>
    match e with
    | .map m => seg.pred == "" || ((m.lookup "name").getD .nil).asString == seg.pred
    | _ => false

/-- The transition at the last step of a path.
Source: `walkMerge`, the `leaf` switch -/
def leafMatches (change : String) (value v : Value) : Bool :=
  if change = "removed" then
    match v with
    | .nil => true
    | _ => false
  else if change = "set" then jsonValueEquals (some v) value
  else false

def walkMerge (change : String) (value : Value) : List FieldSegment → List Value → Bool
  | [], _ => false
  | seg :: rest, nodes =>
      nodes.any fun n =>
        match n.asMap.lookup seg.key with
        | none => false
        | some v =>
            if rest.isEmpty then leafMatches change value v
            else
              match v with
              | .map child => walkMerge change value rest [.map child]
              | .list items => walkMerge change value rest (selectEntries seg items)
              | _ => false

/-- The nodes of one level of `absentWalk`; `descend` is the walk below and `last` says that the
step is the last of the path.
Source: `absentWalk`, the loop over the nodes -/
def absentNodes (descend : List Value → Bool) (seg : FieldSegment) (last : Bool) (anyMap : Bool) :
    List Value → Bool
  | [] => !anyMap
  | .map m :: nodes =>
      match m.lookup seg.key with
      | none => true
      | some (.map child) => descend [.map child] || absentNodes descend seg last true nodes
      | some (.list items) =>
          let cand := selectEntries seg items
          cand.isEmpty || descend cand || absentNodes descend seg last true nodes
      -- a scalar ends the loop, whatever nodes are left
      | some _ => !last
  | _ :: nodes => absentNodes descend seg last anyMap nodes

def absentWalk : List FieldSegment → List Value → Bool
  | [], _ => false
  | seg :: rest, nodes => absentNodes (absentWalk rest) seg rest.isEmpty false nodes

def mergeMatches (body : String) (segs : List FieldSegment) (change : String) (value : Value) :
    Bool :=
  match unmarshal (.map .any) body.toList with
  | some root => walkMerge change value segs [root]
  | none => false

def mergeAbsent (body : String) (segs : List FieldSegment) : Bool :=
  match unmarshal (.map .any) body.toList with
  | some root => absentWalk segs [root]
  | none => false

/-! ### The transition -/

def isObject : Option Value → Bool
  | some (.map _) => true
  | _ => false

/-- Whether `body` performs `change` on `field`, and whether it could be interpreted at all.
`fullReplace` marks an update, in which an absent field is a removed one.
Source: `ForbiddenChangeMatches` -/
def forbiddenChangeMatches (body field change : String) (value : Value) (fullReplace : Bool) :
    Bool × Bool :=
  let segs := parseFieldPath field
  let trimmed := trimSpace body
  if segs.isEmpty then (false, false)
  else if hasPrefix trimmed "[" then
    if (decodePatch body).isNone then (false, false)
    else (jsonPatchMatches body segs change value, true)
  else if hasPrefix trimmed "\x7b" then
    if !isObject (unmarshal .any body.toList) then (false, false)
    else if mergeMatches body segs change value then (true, true)
    else if fullReplace && change == "removed" && mergeAbsent body segs then (true, true)
    else (false, true)
  else (false, false)

theorem forbiddenChangeMatches_ok_of_matched {body field change : String} {value : Value}
    {fullReplace : Bool} (h : (forbiddenChangeMatches body field change value fullReplace).1) :
    (forbiddenChangeMatches body field change value fullReplace).2 := by
  revert h
  unfold forbiddenChangeMatches
  dsimp only
  split_ifs <;> simp

end EvidraBench.Audit
