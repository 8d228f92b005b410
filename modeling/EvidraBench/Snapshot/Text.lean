import EvidraBench.Gostd.Marshal
import EvidraBench.Lib.JsonMerge
import EvidraBench.Snapshot.Diff

/-!
# Checkpoints as they are stored

`pkg/snapshot` stores every object as the JSON text of its normalized form, and `Diff` compares two
such texts after it has decoded them, dropped the status and encoded them again. `Snapshot.Diff`
compares the objects themselves. This file has the texts.

Results: `generic_normalizeObject`, `diffText_eq`, `diffText_exact`.

Source: `pkg/snapshot/diff.go`
-/

namespace EvidraBench.Snapshot

open EvidraBench.Gostd

/-! ### The stored texts -/

/-- Source: `pkg/snapshot/snapshot.go` `marshalCanonical` -/
def marshalCanonical (obj : Members) : List Char := marshalAny (.map obj)

/-- Objects by key, as they are stored.
Source: `pkg/snapshot/snapshot.go` `Set`, the field `Objects` -/
abbrev Texts := AList (fun _ : Key => List Char)

/-- The objects of a checkpoint as they are stored. -/
def Set.text (s : Set) : Texts where
  entries := s.objects.entries.map fun e => ⟨e.1, marshalCanonical e.2⟩
  nodupKeys := by
    have hkeys : (s.objects.entries.map fun e =>
        (⟨e.1, marshalCanonical e.2⟩ : Sigma fun _ : Key => List Char)).keys =
          s.objects.entries.keys := by
      unfold List.keys
      rw [List.map_map]
      rfl
    unfold List.NodupKeys
    rw [hkeys]
    exact s.objects.nodupKeys

/-- Source: `comparable` -/
def comparableText (data : List Char) (present : Bool) : List Char :=
  if !present || data.isEmpty then []
  else
    match unmarshal (.map .any) data with
    | some (.map obj) => marshalCanonical (obj.filter fun kv => kv.1 ≠ "status")
    -- the text `null` leaves the map nil, which is written as `null`
    | some _ => ['n', 'u', 'l', 'l']
    | none => data

/-- One turn of the loop of `diffText`.
Source: `Diff`, the loop body -/
def diffTextKey (digestOf : List Char → String) (before after : Texts)
    (allowed : Option (Key → Bool)) (acc : List Violation × Nat) (k : Key) :
    List Violation × Nat :=
  let bin := (before.lookup k).isSome
  let ain := (after.lookup k).isSome
  let b := comparableText ((before.lookup k).getD []) bin
  let a := comparableText ((after.lookup k).getD []) ain
  if bin && ain && b == a then acc
  else if exempt allowed k then (acc.1, acc.2 + 1)
  else
    (acc.1 ++
      [{ object := k.string
         kind := if !bin then "created" else if !ain then "deleted" else "modified"
         fromDigest := if bin then digestOf b else ""
         toDigest := if ain then digestOf a else "" }],
      acc.2)

/-- The keys of both checkpoints, in an order that `sort.Slice` may give them: keys of one text
may come in either order.
Source: `Diff`, `keys` -/
structure KeyOrder (before after : Texts) (keys : List Key) : Prop where
  nodup : keys.Nodup
  mem_iff : ∀ k, k ∈ keys ↔ k ∈ before ∨ k ∈ after
  sorted : keys.Pairwise (·.string ≤ ·.string)

/-- The violations and the number of allowed changes, for the given order of the keys.
Source: `Diff` -/
def diffText (digestOf : List Char → String) (keys : List Key) (before after : Texts)
    (allowed : Option (Key → Bool)) : List Violation × Nat :=
  keys.foldl (diffTextKey digestOf before after allowed) ([], 0)

/-! ### Normalized objects are generic -/

section normalize

variable {h : Hashing} {depth : Nat}

mutual

theorem generic_stripVolatile : (m : Members) → ∀ {depth : Nat}, GenericEntries m depth →
    GenericEntries (stripVolatile m) depth ∧
      ((stripVolatile m).map Prod.fst).Sublist (m.map Prod.fst)
  | [], _, _ => by
      rw [stripVolatile]
      exact ⟨trivial, .slnil⟩
  | (k, v) :: rest, depth, hm => by
      obtain ⟨hv, hrest⟩ := hm
      obtain ⟨hgeneric, hkeys⟩ := generic_stripVolatile rest hrest
      cases v with
      | str s =>
          rw [stripVolatile]
          split_ifs
          · exact ⟨hgeneric, hkeys.cons k⟩
          · exact ⟨⟨hv, hgeneric⟩, hkeys.cons_cons k⟩
      | map m =>
          obtain ⟨hdepth, hsorted, hentries⟩ := hv
          obtain ⟨hinner, hinnerKeys⟩ := generic_stripVolatile m hentries
          rw [stripVolatile]
          refine ⟨⟨⟨hdepth, ?_, hinner⟩, hgeneric⟩, hkeys.cons_cons k⟩
          exact List.pairwise_map.mp ((List.pairwise_map.mpr hsorted).sublist hinnerKeys)
      | list xs =>
          rw [stripVolatile]
          exact ⟨⟨⟨hv.1, generic_stripItems xs hv.2⟩, hgeneric⟩, hkeys.cons_cons k⟩
      | nil | bool | float =>
          rw [stripVolatile.eq_def]
          exact ⟨⟨hv, hgeneric⟩, hkeys.cons_cons k⟩
      | int | time | raw | struct | other => exact absurd hv id

theorem generic_stripItems : (xs : List Value) → ∀ {depth : Nat}, GenericItems xs depth →
    GenericItems (stripItems xs) depth
  | [], _, _ => by
      rw [stripItems]
      trivial
  | x :: rest, depth, hxs => by
      obtain ⟨hx, hrest⟩ := hxs
      have hgeneric := generic_stripItems rest hrest
      cases x with
      | map m =>
          obtain ⟨hdepth, hsorted, hentries⟩ := hx
          obtain ⟨hinner, hinnerKeys⟩ := generic_stripVolatile m hentries
          rw [stripItems]
          refine ⟨⟨hdepth, ?_, hinner⟩, hgeneric⟩
          exact List.pairwise_map.mp ((List.pairwise_map.mpr hsorted).sublist hinnerKeys)
      | nil | bool | float | str | list =>
          rw [stripItems.eq_def]
          exact ⟨hx, hgeneric⟩
      | int | time | raw | struct | other => exact absurd hx id

end

theorem generic_secretRedact {kind : String} {obj : Members} (hdepth : 1 < depth)
    (hobj : Generic (.map obj) depth) : Generic (.map (secretRedact h kind obj)) depth := by
  have hdigest : ∀ val : Members,
      Generic (.map [("evidra:digest", .str (h.payload val))]) (depth - 1) :=
    fun val => ⟨by omega, List.pairwise_singleton _ _, trivial, trivial⟩
  unfold secretRedact
  split_ifs
  · exact hobj
  · refine List.foldlRecOn (motive := fun obj => Generic (.map obj) depth) _ _ hobj ?_
    intro obj hobj field _
    split
    · exact generic_mapInsert hobj field (hdigest _)
    · exact hobj

theorem generic_normalizeMeta {metadata : Members} (hmeta : Generic (.map metadata) depth) :
    Generic (.map (normalizeMeta metadata)) depth := by
  have hkept := generic_filter hmeta fun kv => !volatileTop.contains kv.1
  unfold normalizeMeta
  dsimp only
  split
  · rename_i anns hanns
    split_ifs
    · exact generic_filter hkept _
    · exact generic_mapInsert hkept _ (generic_filter (generic_of_lookup hkept hanns) _)
  · exact hkept

/-- **A normalized object is generic.** -/
theorem generic_normalizeObject {obj : Members} (hdepth : 1 < depth)
    (hobj : Generic (.map obj) depth) (fallbackKind fallbackNS : String) :
    Generic (.map (normalizeObject h obj fallbackKind fallbackNS).2) depth := by
  have hmeta : Generic (.map ((obj.lookup "metadata").getD .nil).asMap) (depth - 1) := by
    have hempty : Generic (.map []) (depth - 1) := ⟨by omega, .nil, trivial⟩
    cases hlookup : obj.lookup "metadata" with
    | none => exact hempty
    | some v =>
        have hv := generic_of_lookup hobj hlookup
        cases v with
        | map m => exact hv
        | _ => exact hempty
  have hstatus : ∀ status, obj.lookup "status" = some (.map status) →
      Generic (.map (mapInsert "status" (.map (stripVolatile status)) obj)) depth := by
    intro status hlookup
    obtain ⟨hpos, hsorted, hentries⟩ := generic_of_lookup hobj hlookup
    obtain ⟨hinner, hkeys⟩ := generic_stripVolatile status hentries
    refine generic_mapInsert hobj _ ⟨hpos, ?_, hinner⟩
    exact List.pairwise_map.mp ((List.pairwise_map.mpr hsorted).sublist hkeys)
  refine generic_mapInsert (generic_secretRedact hdepth ?_) _ (generic_normalizeMeta hmeta)
  split
  · exact hstatus _ ‹_›
  · exact hobj

end normalize

/-! ### Normalized checkpoints -/

/-- Every object is the normalized form of an object as `encoding/json` decodes it, under the key
of its normal form. -/
def Set.Normalized (h : Hashing) (s : Set) : Prop :=
  ∀ k data, s.objects.lookup k = some data → ∃ obj fallbackKind fallbackNS,
    Generic (.map obj) Doc.maxNestingDepth ∧
      normalizeObject h obj fallbackKind fallbackNS = (k, data)

section checkpoints

variable {h : Hashing}

theorem Set.Normalized.generic {s : Set} (hs : s.Normalized h) {k : Key} {data : Members}
    (hk : s.objects.lookup k = some data) : Generic (.map data) Doc.maxNestingDepth := by
  obtain ⟨obj, fallbackKind, fallbackNS, hobj, heq⟩ := hs k data hk
  have hnormal := generic_normalizeObject (h := h) (by decide) hobj fallbackKind fallbackNS
  rwa [heq] at hnormal

theorem Set.Normalized.insert {s : Set} (hs : s.Normalized h) {obj : Members}
    (hobj : Generic (.map obj) Doc.maxNestingDepth) (fallbackKind fallbackNS : String) :
    Set.Normalized h { s with
      objects := s.objects.insert (normalizeObject h obj fallbackKind fallbackNS).1
        (normalizeObject h obj fallbackKind fallbackNS).2 } := by
  intro k data hk
  by_cases hkey : k = (normalizeObject h obj fallbackKind fallbackNS).1
  · subst hkey
    rw [AList.lookup_insert] at hk
    obtain rfl := Option.some.inj hk
    exact ⟨obj, fallbackKind, fallbackNS, hobj, rfl⟩
  · rw [AList.lookup_insert_ne hkey] at hk
    exact hs k data hk

end checkpoints

/-! ### Comparing texts is comparing objects -/

section refinement

variable {h : Hashing} {before after : Set} {digestOf : List Char → String}

@[simp] theorem lookup_text (s : Set) (k : Key) :
    s.text.lookup k = (s.objects.lookup k).map marshalCanonical := by
  show (s.objects.entries.map fun e =>
    (⟨e.1, marshalCanonical e.2⟩ : Sigma fun _ : Key => List Char)).dlookup k =
      (s.objects.entries.dlookup k).map marshalCanonical
  induction s.objects.entries with
  | nil => rfl
  | cons e entries ih =>
      obtain ⟨k', data⟩ := e
      by_cases hk : k' = k
      · subst hk
        simp
      · rw [List.map_cons, List.dlookup_cons_ne _ _ (Ne.symm hk),
          List.dlookup_cons_ne _ _ (Ne.symm hk), ih]

@[simp] theorem keys_text (s : Set) : s.text.keys = s.objects.keys := by
  show (s.objects.entries.map _).map Sigma.fst = s.objects.entries.map Sigma.fst
  rw [List.map_map]
  rfl

theorem comparableText_marshal {obj : Members} (hobj : Generic (.map obj) Doc.maxNestingDepth) :
    comparableText (marshalCanonical obj) true =
      marshalCanonical (obj.filter fun kv => kv.1 ≠ "status") := by
  have hread : unmarshal (.map .any) (marshalCanonical obj) = some (.map obj) :=
    unmarshal_map_marshalAny hobj
  have hnonempty : (marshalCanonical obj).isEmpty = false := by
    unfold marshalCanonical
    rw [marshalAny]
    rfl
  unfold comparableText
  rw [hread, hnonempty]
  rfl

mutual

theorem same_self : (v : Value) → ∀ {depth : Nat}, Generic v depth → v.same v = true
  | .nil, _, _ => rfl
  | .bool b, _, _ => beq_self_eq_true b
  | .float x, _, _ => beq_self_eq_true x
  | .str s, _, _ => beq_self_eq_true s
  | .list xs, _, hv => sameList_self xs hv.2
  | .map kvs, _, hv => sameEntries_self kvs hv.2.2

theorem sameList_self : (xs : List Value) → ∀ {depth : Nat}, GenericItems xs depth →
    Value.sameList xs xs = true
  | [], _, _ => rfl
  | x :: xs, _, h => by rw [Value.sameList, same_self x h.1, sameList_self xs h.2, Bool.and_self]

theorem sameEntries_self : (kvs : List (String × Value)) → ∀ {depth : Nat},
    GenericEntries kvs depth → Value.sameEntries kvs kvs = true
  | [], _, _ => rfl
  | (k, v) :: kvs, _, h => by
      rw [Value.sameEntries, same_self v h.1, sameEntries_self kvs h.2, beq_self_eq_true]
      rfl

end

theorem marshalCanonical_beq {b a : Members} (hb : Generic (.map b) Doc.maxNestingDepth)
    (ha : Generic (.map a) Doc.maxNestingDepth) :
    (marshalCanonical b == marshalCanonical a) = Value.sameEntries b a := by
  rw [Bool.eq_iff_iff, beq_iff_eq]
  constructor
  · intro heq
    obtain rfl := Value.map.inj (marshalAny_inj hb ha heq)
    exact sameEntries_self b hb.2.2
  · intro hsame
    rw [Value.eq_of_sameEntries b a hsame]

/-- The hash functions with the digest of a stored text. -/
def Hashing.onText (h : Hashing) (digestOf : List Char → String) : Hashing :=
  { h with object := fun obj => digestOf (marshalCanonical obj) }

theorem diffTextKey_eq (hb : before.Normalized h) (ha : after.Normalized h)
    (allowed : Option (Key → Bool)) :
    diffTextKey digestOf before.text after.text allowed =
      diffKey (h.onText digestOf) before after allowed := by
  funext acc k
  unfold diffTextKey diffKey changed violationOf comparable Hashing.onText
  cases hbefore : before.objects.lookup k with
  | none =>
      cases hafter : after.objects.lookup k with
      | none => simp [hbefore, hafter]
      | some a => simp [hbefore, hafter, comparableText_marshal (ha.generic hafter)]
  | some b =>
      have hgb := hb.generic hbefore
      cases hafter : after.objects.lookup k with
      | none => simp [hbefore, hafter, comparableText_marshal hgb]
      | some a =>
          have hga := ha.generic hafter
          have hsame := marshalCanonical_beq (generic_filter hgb fun kv => kv.1 ≠ "status")
            (generic_filter hga fun kv => kv.1 ≠ "status")
          simp only [lookup_text, hbefore, hafter, Option.map_some, Option.isSome_some,
            Option.getD_some, comparableText_marshal hgb, comparableText_marshal hga, hsame,
            Bool.and_self, Bool.true_and, Bool.not_not, Bool.not_true, Option.isNone_some,
            Bool.false_eq_true, if_false, if_true]

/-- **Comparing the stored texts is comparing the objects.** -/
theorem diffText_eq (hb : before.Normalized h) (ha : after.Normalized h)
    (allowed : Option (Key → Bool)) :
    diffText digestOf (diffKeys before after) before.text after.text allowed =
      diff (h.onText digestOf) before after allowed := by
  unfold diffText diff
  rw [diffTextKey_eq hb ha]

theorem diffText_eq_filter (hb : before.Normalized h) (ha : after.Normalized h)
    (allowed : Option (Key → Bool)) (keys : List Key) :
    diffText digestOf keys before.text after.text allowed =
      ((keys.filter fun k => changed before after k && !exempt allowed k).map
          (violationOf (h.onText digestOf) before after),
        (keys.filter fun k => changed before after k && exempt allowed k).length) := by
  unfold diffText
  rw [diffTextKey_eq hb ha, foldl_diffKey]
  simp

end refinement

/-! ### What is reported -/

/-- The value that a stored text has under a top-level name. -/
def field (data : List Char) (name : String) : Option Value :=
  (unmarshal (.map .any) data).bind fun v => v.asMap.lookup name

/-- How the object of a key changed, by what the two checkpoints store. -/
inductive Change (before after : Texts) (k : Key) : String → Prop
  | created (hbefore : k ∉ before) (hafter : k ∈ after) : Change before after k "created"
  | deleted (hbefore : k ∈ before) (hafter : k ∉ after) : Change before after k "deleted"
  | modified {b a : List Char} {name : String} (hbefore : before.lookup k = some b)
      (hafter : after.lookup k = some a) (hname : name ≠ "status")
      (hdiffer : field b name ≠ field a name) : Change before after k "modified"

/-- Two stored texts that differ in their status at most. -/
def SameButStatus (b a : List Char) : Prop := ∀ name, name ≠ "status" → field b name = field a name

/-- What a comparison is to report: each changed key once, sorted, as a violation with its kind or
as an allowed change, and nothing where only the status changed. -/
structure Exact (before after : Texts) (allowed : Option (Key → Bool))
    (report : List Violation × Nat) : Prop where
  violations : ∃ keys : List Key, keys.Nodup ∧ keys.Pairwise (·.string ≤ ·.string) ∧
    (∀ k, k ∈ keys ↔ exempt allowed k = false ∧ ∃ kind, Change before after k kind) ∧
    (∀ k ∈ keys, ∀ b a, before.lookup k = some b → after.lookup k = some a →
      ¬ SameButStatus b a) ∧
    List.Forall₂ (fun k v => v.object = k.string ∧ Change before after k v.kind) keys report.1
  allowedChanges : ∃ keys : List Key, keys.Nodup ∧
    (∀ k, k ∈ keys ↔ exempt allowed k = true ∧ ∃ kind, Change before after k kind) ∧
    report.2 = keys.length

/-- The kind of a change seen from the other side. -/
def swapKind (kind : String) : String :=
  if kind = "created" then "deleted" else if kind = "deleted" then "created" else kind

section exact

variable {h : Hashing} {before after : Set} {digestOf : List Char → String} {k : Key}

theorem field_marshalCanonical {obj : Members} (hobj : Generic (.map obj) Doc.maxNestingDepth)
    (name : String) : field (marshalCanonical obj) name = obj.lookup name := by
  unfold field marshalCanonical
  rw [unmarshal_map_marshalAny hobj]
  rfl

@[simp] theorem mem_text (s : Set) : k ∈ s.text ↔ k ∈ s.objects := by
  show k ∈ s.text.keys ↔ k ∈ s.objects.keys
  rw [keys_text]

theorem filter_status_eq_iff {b a : Members} (hb : b.Pairwise fun x y => x.1 < y.1)
    (ha : a.Pairwise fun x y => x.1 < y.1) :
    b.filter (fun kv => kv.1 ≠ "status") = a.filter (fun kv => kv.1 ≠ "status") ↔
      ∀ name, name ≠ "status" → b.lookup name = a.lookup name := by
  constructor
  · intro heq name hname
    rw [← Lib.JsonPatch.lookup_filter_ne hname b, heq, Lib.JsonPatch.lookup_filter_ne hname a]
  · intro hagree
    refine eq_of_lookup_eq (hb.filter _) (ha.filter _) fun name => ?_
    by_cases hname : name = "status"
    · rw [hname, Lib.JsonMerge.lookup_filter_self, Lib.JsonMerge.lookup_filter_self]
    · rw [Lib.JsonPatch.lookup_filter_ne hname b, Lib.JsonPatch.lookup_filter_ne hname a,
        hagree name hname]

/-- An object of both checkpoints changed just when its texts differ under a name other than
`status`. -/
theorem changed_iff_of_both {b a : Members} (hb : before.Normalized h) (ha : after.Normalized h)
    (hbefore : before.objects.lookup k = some b) (hafter : after.objects.lookup k = some a) :
    changed before after k = true ↔
      ∃ name, name ≠ "status" ∧
        field (marshalCanonical b) name ≠ field (marshalCanonical a) name := by
  have hgb := hb.generic hbefore
  have hga := ha.generic hafter
  have hsame : Value.sameEntries (b.filter fun kv => kv.1 ≠ "status")
      (a.filter fun kv => kv.1 ≠ "status") = true ↔
        ∀ name, name ≠ "status" → b.lookup name = a.lookup name := by
    rw [← filter_status_eq_iff hgb.2.1 hga.2.1]
    refine ⟨Value.eq_of_sameEntries _ _, fun heq => ?_⟩
    rw [heq]
    exact sameEntries_self _ (generic_filter hga _).2.2
  unfold changed comparable
  rw [hbefore, hafter, Option.map_some, Option.map_some]
  simp only [field_marshalCanonical hgb, field_marshalCanonical hga]
  rw [Bool.not_eq_true', ← Bool.not_eq_true, hsame]
  push Not
  rfl

theorem change_of_changed (hb : before.Normalized h) (ha : after.Normalized h)
    (hk : k ∈ before.objects ∨ k ∈ after.objects) (hchanged : changed before after k = true)
    (hash : Hashing) :
    Change before.text after.text k (violationOf hash before after k).kind := by
  unfold violationOf comparable
  cases hbefore : before.objects.lookup k with
  | none =>
      have hnot : k ∉ before.objects := AList.lookup_eq_none.mp hbefore
      exact .created (mt (mem_text before).mp hnot) ((mem_text after).mpr (hk.resolve_left hnot))
  | some b =>
      have hin : k ∈ before.objects := AList.lookup_isSome.mp (by rw [hbefore]; rfl)
      cases hafter : after.objects.lookup k with
      | none =>
          have hnot : k ∉ after.objects := AList.lookup_eq_none.mp hafter
          exact .deleted ((mem_text before).mpr hin) (mt (mem_text after).mp hnot)
      | some a =>
          obtain ⟨name, hname, hdiffer⟩ := (changed_iff_of_both hb ha hbefore hafter).mp hchanged
          refine .modified ?_ ?_ hname hdiffer
          · rw [lookup_text, hbefore, Option.map_some]
          · rw [lookup_text, hafter, Option.map_some]

theorem changed_of_change (hb : before.Normalized h) (ha : after.Normalized h) {kind : String}
    (hchange : Change before.text after.text k kind) : changed before after k = true := by
  cases hchange with
  | created hbefore hafter =>
      have hnone := AList.lookup_eq_none.mpr (mt (mem_text before).mpr hbefore)
      unfold changed comparable
      rw [hnone]
      rfl
  | deleted hbefore hafter =>
      have hnone := AList.lookup_eq_none.mpr (mt (mem_text after).mpr hafter)
      unfold changed comparable
      rw [hnone]
      cases before.objects.lookup k <;> rfl
  | modified hbefore hafter hname hdiffer =>
      rw [lookup_text] at hbefore hafter
      obtain ⟨b, hb', rfl⟩ := Option.map_eq_some_iff.mp hbefore
      obtain ⟨a, ha', rfl⟩ := Option.map_eq_some_iff.mp hafter
      exact (changed_iff_of_both hb ha hb' ha').mpr ⟨_, hname, hdiffer⟩

theorem Change.unique {before after : Texts} {kind kind' : String}
    (hchange : Change before after k kind) (hchange' : Change before after k kind') :
    kind = kind' := by
  have hmem : ∀ {t : Texts} {data : List Char}, t.lookup k = some data → k ∈ t :=
    fun hdata => AList.lookup_isSome.mp (by rw [hdata]; rfl)
  cases hchange with
  | created hbefore hafter =>
      cases hchange' with
      | created => rfl
      | deleted hbefore' => exact absurd hbefore' hbefore
      | modified hbefore' => exact absurd (hmem hbefore') hbefore
  | deleted hbefore hafter =>
      cases hchange' with
      | created hbefore' => exact absurd hbefore hbefore'
      | deleted => rfl
      | modified _ hafter' => exact absurd (hmem hafter') hafter
  | modified hbefore hafter =>
      cases hchange' with
      | created hbefore' => exact absurd (hmem hbefore) hbefore'
      | deleted _ hafter' => exact absurd (hmem hafter) hafter'
      | modified => rfl

theorem Change.swap {before after : Texts} {kind : String} (hchange : Change before after k kind) :
    Change after before k (swapKind kind) := by
  cases hchange with
  | created hbefore hafter => exact .deleted hafter hbefore
  | deleted hbefore hafter => exact .created hafter hbefore
  | modified hbefore hafter hname hdiffer => exact .modified hafter hbefore hname hdiffer.symm

theorem Change.not_sameButStatus {before after : Texts} {kind : String} {b a : List Char}
    (hchange : Change before after k kind) (hb : before.lookup k = some b)
    (ha : after.lookup k = some a) : ¬ SameButStatus b a := by
  intro hsame
  cases hchange with
  | created hbefore => exact hbefore (AList.lookup_isSome.mp (by rw [hb]; rfl))
  | deleted _ hafter => exact hafter (AList.lookup_isSome.mp (by rw [ha]; rfl))
  | @modified _ _ name hbefore hafter hname hdiffer =>
      obtain rfl := Option.some.inj (hb.symm.trans hbefore)
      obtain rfl := Option.some.inj (ha.symm.trans hafter)
      exact hdiffer (hsame name hname)

theorem Change.mem {before after : Texts} {kind : String} (hchange : Change before after k kind) :
    k ∈ before ∨ k ∈ after := by
  cases hchange with
  | created _ hafter => exact Or.inr hafter
  | deleted hbefore _ => exact Or.inl hbefore
  | modified hbefore => exact Or.inl (AList.lookup_isSome.mp (by rw [hbefore]; rfl))

theorem mem_filter_changed (hb : before.Normalized h) (ha : after.Normalized h) {keys : List Key}
    (hkeys : KeyOrder before.text after.text keys) (p : Key → Bool) :
    k ∈ keys.filter (fun k => changed before after k && p k) ↔
      p k = true ∧ ∃ kind, Change before.text after.text k kind := by
  rw [List.mem_filter, Bool.and_eq_true_iff, hkeys.mem_iff]
  constructor
  · rintro ⟨hmem, hchanged, hp⟩
    rw [mem_text, mem_text] at hmem
    exact ⟨hp, _, change_of_changed hb ha hmem hchanged h⟩
  · rintro ⟨hp, kind, hchange⟩
    exact ⟨hchange.mem, changed_of_change hb ha hchange, hp⟩

theorem exact_diffText (hb : before.Normalized h) (ha : after.Normalized h)
    (allowed : Option (Key → Bool)) {keys : List Key}
    (hkeys : KeyOrder before.text after.text keys) :
    Exact before.text after.text allowed
      (diffText digestOf keys before.text after.text allowed) := by
  rw [diffText_eq_filter hb ha]
  have hmem : ∀ (p : Key → Bool) (k : Key),
      k ∈ keys.filter (fun k => changed before after k && p k) ↔
        p k = true ∧ ∃ kind, Change before.text after.text k kind :=
    fun p k => mem_filter_changed hb ha hkeys p
  constructor
  · refine ⟨keys.filter fun k => changed before after k && !exempt allowed k,
      hkeys.nodup.filter _, hkeys.sorted.filter _, fun k => ?_, fun k hk b a => ?_, ?_⟩
    · rw [hmem fun k => !exempt allowed k, Bool.not_eq_true']
    · obtain ⟨-, kind, hchange⟩ := (hmem (fun k => !exempt allowed k) k).mp hk
      exact hchange.not_sameButStatus
    · rw [List.forall₂_map_right_iff, List.forall₂_same]
      intro k hk
      obtain ⟨hwalked, hreported⟩ := List.mem_filter.mp hk
      have hwalked := (hkeys.mem_iff k).mp hwalked
      rw [mem_text, mem_text] at hwalked
      exact ⟨rfl, change_of_changed hb ha hwalked (Bool.and_eq_true_iff.mp hreported).1 _⟩
  · exact ⟨_, hkeys.nodup.filter _, hmem (exempt allowed), rfl⟩

theorem changed_comm (hb : before.Normalized h) (ha : after.Normalized h)
    (hk : k ∈ before.objects ∨ k ∈ after.objects) :
    changed after before k = changed before after k := by
  rw [Bool.eq_iff_iff]
  constructor
  · intro hchanged
    exact changed_of_change hb ha (change_of_changed ha hb hk.symm hchanged h).swap
  · intro hchanged
    exact changed_of_change ha hb (change_of_changed hb ha hk hchanged h).swap

theorem violationOf_swap (hb : before.Normalized h) (ha : after.Normalized h)
    (hk : k ∈ before.objects ∨ k ∈ after.objects) (hchanged : changed before after k = true)
    (hash : Hashing) :
    (violationOf hash after before k).kind = swapKind (violationOf hash before after k).kind := by
  have hchange := change_of_changed hb ha hk hchanged hash
  have hback := change_of_changed ha hb hk.symm ((changed_comm hb ha hk).trans hchanged) hash
  exact hback.unique hchange.swap

theorem diffText_swap (hb : before.Normalized h) (ha : after.Normalized h)
    (allowed : Option (Key → Bool)) {keys keys' : List Key}
    (hkeys : KeyOrder before.text after.text keys)
    (hkeys' : KeyOrder after.text before.text keys') :
    ((diffText digestOf keys' after.text before.text allowed).1.map
        fun v => (v.object, v.kind)).Perm
      ((diffText digestOf keys before.text after.text allowed).1.map
        fun v => (v.object, swapKind v.kind)) ∧
      (diffText digestOf keys' after.text before.text allowed).2 =
        (diffText digestOf keys before.text after.text allowed).2 := by
  have hperm : keys'.Perm keys := by
    refine (List.perm_ext_iff_of_nodup hkeys'.nodup hkeys.nodup).mpr fun k => ?_
    rw [hkeys'.mem_iff, hkeys.mem_iff, Or.comm]
  have hwalked : ∀ k ∈ keys, k ∈ before.objects ∨ k ∈ after.objects := by
    intro k hk
    have hmem := (hkeys.mem_iff k).mp hk
    rwa [mem_text, mem_text] at hmem
  have hfilter : ∀ p : Key → Bool,
      (keys'.filter fun k => changed after before k && p k).Perm
        (keys.filter fun k => changed before after k && p k) := by
    intro p
    refine (hperm.filter _).trans (List.Perm.of_eq (List.filter_congr fun k hk => ?_))
    rw [changed_comm hb ha (hwalked k hk)]
  rw [diffText_eq_filter hb ha, diffText_eq_filter ha hb]
  refine ⟨?_, (hfilter (exempt allowed)).length_eq⟩
  rw [List.map_map, List.map_map]
  refine ((hfilter fun k => !exempt allowed k).map _).trans
    (List.Perm.of_eq (List.map_congr_left fun k hk => ?_))
  obtain ⟨hk, hreported⟩ := List.mem_filter.mp hk
  exact Prod.ext rfl (violationOf_swap hb ha (hwalked k hk) (Bool.and_eq_true_iff.mp hreported).1 _)

theorem comparable_congr {after' : Set} (ha : after.Normalized h) (ha' : after'.Normalized h)
    (hkeys : ∀ k, k ∈ after'.text ↔ k ∈ after.text)
    (hsame : ∀ k a a', after.text.lookup k = some a → after'.text.lookup k = some a' →
      SameButStatus a a') (k : Key) :
    comparable (after'.objects.lookup k) = comparable (after.objects.lookup k) := by
  have hkey := hkeys k
  rw [mem_text, mem_text] at hkey
  have hsame := hsame k
  rw [lookup_text, lookup_text] at hsame
  unfold comparable
  cases hafter : after.objects.lookup k with
  | none =>
      have hnone : k ∉ after'.objects := mt hkey.mp (AList.lookup_eq_none.mp hafter)
      rw [AList.lookup_eq_none.mpr hnone]
  | some a =>
      have hin : k ∈ after'.objects := hkey.mpr (AList.lookup_isSome.mp (by rw [hafter]; rfl))
      obtain ⟨a', hafter'⟩ := Option.isSome_iff_exists.mp (AList.lookup_isSome.mpr hin)
      have hga := ha.generic hafter
      have hga' := ha'.generic hafter'
      have hagree := hsame _ _ (by rw [hafter]; rfl) (by rw [hafter']; rfl)
      rw [hafter', Option.map_some, Option.map_some,
        (filter_status_eq_iff hga'.2.1 hga.2.1).mpr fun name hname => ?_]
      have hname := hagree name hname
      rw [field_marshalCanonical hga, field_marshalCanonical hga'] at hname
      exact hname.symm

theorem diffText_congr_status {after' : Set} (hb : before.Normalized h) (ha : after.Normalized h)
    (ha' : after'.Normalized h) (hkeys : ∀ k, k ∈ after'.text ↔ k ∈ after.text)
    (hsame : ∀ k a a', after.text.lookup k = some a → after'.text.lookup k = some a' →
      SameButStatus a a') (allowed : Option (Key → Bool)) (keys : List Key) :
    diffText digestOf keys before.text after'.text allowed =
      diffText digestOf keys before.text after.text allowed := by
  have hcomparable := comparable_congr ha ha' hkeys hsame
  have hchanged : changed before after' = changed before after := by
    funext k
    unfold changed
    rw [hcomparable k]
  have hviolation : ∀ hash, violationOf hash before after' = violationOf hash before after := by
    intro hash
    funext k
    unfold violationOf
    rw [hcomparable k]
  rw [diffText_eq_filter hb ha, diffText_eq_filter hb ha', hchanged, hviolation]

theorem keyOrder_diffKeys : KeyOrder before.text after.text (diffKeys before after) where
  nodup := (List.perm_insertionSort _ _).nodup_iff.mpr (nodup_dedupe _)
  mem_iff k := by rw [mem_diffKeys, mem_text, mem_text]
  sorted := by
    have htotal : Std.Total fun a b : Key => a.string ≤ b.string :=
      ⟨fun a b => le_total a.string b.string⟩
    have htrans : IsTrans Key fun a b => a.string ≤ b.string := ⟨fun _ _ _ => le_trans⟩
    exact List.pairwise_insertionSort _ _

/-- **The comparison of two checkpoints is exact.** It reports each changed key once, sorted by the
text of the key, as a violation with its kind or as an allowed change. Nothing it reports depends on
the status of an object, and comparing the other way round reports the same keys with `created` and
`deleted` exchanged. -/
theorem diffText_exact (hb : before.Normalized h) (ha : after.Normalized h)
    (digestOf : List Char → String) (allowed : Option (Key → Bool)) {keys keys' : List Key}
    (hkeys : KeyOrder before.text after.text keys)
    (hkeys' : KeyOrder after.text before.text keys') :
    Exact before.text after.text allowed
        (diffText digestOf keys before.text after.text allowed) ∧
      (∀ after' : Set, after'.Normalized h → (∀ k, k ∈ after'.text ↔ k ∈ after.text) →
        (∀ k a a', after.text.lookup k = some a → after'.text.lookup k = some a' →
          SameButStatus a a') →
        diffText digestOf keys before.text after'.text allowed =
          diffText digestOf keys before.text after.text allowed) ∧
      ((diffText digestOf keys' after.text before.text allowed).1.map
          fun v => (v.object, v.kind)).Perm
        ((diffText digestOf keys before.text after.text allowed).1.map
          fun v => (v.object, swapKind v.kind)) ∧
      (diffText digestOf keys' after.text before.text allowed).2 =
        (diffText digestOf keys before.text after.text allowed).2 :=
  ⟨exact_diffText hb ha allowed hkeys,
    fun _ ha' hmem hsame => diffText_congr_status hb ha ha' hmem hsame allowed keys,
    diffText_swap hb ha allowed hkeys hkeys'⟩

end exact

/-- A checkpoint with one deployment of the given image. -/
def deployment (h : Hashing) (image : String) : Set :=
  let obj := [("kind", .str "Deployment"), ("spec", .str image)]
  { name := "pre-agent"
    objects := AList.insert (normalizeObject h obj "" "bench").1
      (normalizeObject h obj "" "bench").2 ∅ }

theorem deployment_normalized (h : Hashing) (image : String) :
    (deployment h image).Normalized h := by
  have hempty : Set.Normalized h { name := "pre-agent", objects := ∅ } := by
    intro k data hk
    cases hk
  have hlt : "kind" < "spec" := by decide
  have hobj : Generic (.map [("kind", .str "Deployment"), ("spec", .str image)])
      Doc.maxNestingDepth :=
    ⟨by decide, List.pairwise_pair.mpr hlt, trivial, trivial, trivial⟩
  exact hempty.insert hobj "" "bench"

/-- The image of a deployment is changed. -/
theorem diffText_exact_deployment :
    let hash : Hashing := ⟨fun _ => "", fun _ => "", fun _ => ""⟩
    Exact (deployment hash "web:1").text (deployment hash "web:2").text none
      (diffText (fun _ => "") (diffKeys (deployment hash "web:1") (deployment hash "web:2"))
        (deployment hash "web:1").text (deployment hash "web:2").text none) ∧
    changed (deployment hash "web:1") (deployment hash "web:2") ⟨"Deployment", "bench", ""⟩ =
      true := by
  intro hash
  refine ⟨(diffText_exact (deployment_normalized hash "web:1") (deployment_normalized hash "web:2")
    (fun _ => "") none keyOrder_diffKeys keyOrder_diffKeys).1, ?_⟩
  decide +kernel

end EvidraBench.Snapshot
