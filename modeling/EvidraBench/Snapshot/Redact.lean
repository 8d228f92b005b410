import EvidraBench.Gostd.Encoding
import EvidraBench.Lib.Framing
import EvidraBench.Snapshot.Text

/-!
# Redacted secrets

`secretRedact` replaces the members `data` and `stringData` of a Secret by a digest of their
entries. `Snapshot.Diff` takes the digest as a parameter; this file has the text that is hashed.

Results: `payloadText_injOn`, `lookup_normalizeObject`, `secret_changes_visible`.

SHA-256 is a parameter, without collisions on the texts in question.

Source: `pkg/snapshot/snapshot.go`
-/

namespace EvidraBench.Snapshot

open EvidraBench.Gostd

/-! ### What `%v` writes -/

/-- The shortest decimal that is read as the number: digits and the power of ten they count. -/
def shortDecimal (x : Float64) : Nat × Int :=
  let (n, d) := x.fraction
  let tried := (List.range 17).flatMap fun i => neighbours n d (i + 1)
  let exact := if 0 ≤ x.exp then (x.mant * 2 ^ x.exp.toNat, 0)
    else (x.mant * 5 ^ (-x.exp).toNat, x.exp)
  (tried.find? fun p => reads x (signText x.neg ++ decimalText (usesExponent n d) p.1 p.2)).getD
    exact

/-- `fmt`'s `%v` of a `float64`: the format `g` of `strconv.AppendFloat`, with an exponent of two
digits at least below `1e-04` and from `1e+06` on. -/
def sprintFloat (x : Float64) : List Char :=
  if x.mant = 0 then signText x.neg ++ ['0']
  else
    let (c, k) := shortDecimal x
    let ds := ((Nat.toDigits 10 c).reverse.dropWhile (· == '0')).reverse
    let e : Int := (Nat.toDigits 10 c).length + k - 1
    signText x.neg ++
      if e < -4 ∨ 6 ≤ e then
        ds.take 1 ++ (if ds.length ≤ 1 then [] else '.' :: ds.drop 1) ++
          'e' :: (if e < 0 then '-' else '+') ::
            ((if e.natAbs < 10 then ['0'] else []) ++ Nat.toDigits 10 e.natAbs)
      else decimalText false c k

mutual

/-- `fmt`'s `%v` of a value of a decoded document. -/
def sprint : Value → List Char
  | .nil => "<nil>".toList
  | .bool b => (toString b).toList
  | .int n => (toString n).toList
  | .float x => sprintFloat x
  | .str s => s.toList
  | .list xs => '[' :: sprintItems xs ++ [']']
  | .map kvs => "map[".toList ++ sprintEntries kvs ++ [']']
  -- not in a decoded document
  | .time _ | .raw _ | .struct _ | .other _ => []

/-- The items of a slice, with a blank between two. -/
def sprintItems : List Value → List Char
  | [] => []
  | [v] => sprint v
  | v :: rest => sprint v ++ ' ' :: sprintItems rest

/-- The entries of a map, with a blank between two. -/
def sprintEntries : List (String × Value) → List Char
  | [] => []
  | [(k, v)] => k.toList ++ ':' :: sprint v
  | (k, v) :: rest => k.toList ++ ':' :: sprint v ++ ' ' :: sprintEntries rest

end

/-! ### What is hashed -/

/-- Source: `secretRedact`, the format `%s=%v\n` -/
def payloadLine (kv : String × Value) : List Char := kv.1.toList ++ '=' :: (sprint kv.2 ++ ['\n'])

/-- The entries of a map come in key order.
Source: `secretRedact` -/
def payloadText (val : Members) : List Char := val.flatMap payloadLine

/-- `sha256` is SHA-256.
Source: `secretRedact` -/
def payloadDigest (sha256 : Bytes → Bytes) (val : Members) : String :=
  hexEncode (sha256 (bytesOf (String.ofList (payloadText val))))

/-- The hash functions with the digest of a payload. -/
def Hashing.onPayload (h : Hashing) (sha256 : Bytes → Bytes) : Hashing :=
  { h with payload := payloadDigest sha256 }

/-- The text of a normalized object, as it is stored.
Source: `NormalizeObject` -/
def normalizedText (h : Hashing) (obj : Members) (fallbackKind fallbackNS : String) : List Char :=
  marshalCanonical (normalizeObject h obj fallbackKind fallbackNS).2

/-- Source: `NormalizeObject` -/
def objectKind (obj : Members) (fallbackKind : String) : String :=
  let kind := ((obj.lookup "kind").getD .nil).asString
  if kind = "" then fallbackKind else kind

/-! ### The text determines the data -/

/-- A character of a key of `data`. -/
def isKeyChar (c : Char) : Bool := c.isAlphanum || c = '-' || c = '_' || c = '.'

def isBase64Char (c : Char) : Bool := c.isAlphanum || c = '+' || c = '/' || c = '='

/-- Data as the API server has it: keys of letters, digits, `-`, `_` and `.`, and base 64 values. -/
def PlainData (val : Members) : Prop :=
  ∀ kv ∈ val, kv.1.toList.all isKeyChar = true ∧
    ∃ s, kv.2 = .str s ∧ s.toList.all isBase64Char = true

theorem equals_notMem_of_key {k : String} (h : k.toList.all isKeyChar = true) : '=' ∉ k.toList := by
  intro hmem
  have hchar := List.all_eq_true.mp h _ hmem
  revert hchar
  decide

theorem newline_notMem_of_base64 {s : String} (h : s.toList.all isBase64Char = true) :
    '\n' ∉ s.toList := by
  intro hmem
  have hchar := List.all_eq_true.mp h _ hmem
  revert hchar
  decide

theorem payloadText_cons (k : String) (s : String) (val : Members) :
    payloadText ((k, .str s) :: val) =
      k.toList ++ '=' :: (s.toList ++ '\n' :: payloadText val) := by
  simp [payloadText, payloadLine, sprint]

/-- **The hashed text determines the data.** -/
theorem payloadText_injOn {val₁ val₂ : Members} (h₁ : PlainData val₁) (h₂ : PlainData val₂)
    (heq : payloadText val₁ = payloadText val₂) : val₁ = val₂ := by
  induction val₁ generalizing val₂ with
  | nil =>
      cases val₂ with
      | nil => rfl
      | cons kv val₂ => simp [payloadText, payloadLine] at heq
  | cons kv₁ val₁ ih =>
      cases val₂ with
      | nil => simp [payloadText, payloadLine] at heq
      | cons kv₂ val₂ =>
          obtain ⟨k₁, v₁⟩ := kv₁
          obtain ⟨k₂, v₂⟩ := kv₂
          obtain ⟨⟨hk₁, s₁, hv₁, hs₁⟩, hval₁⟩ := List.forall_mem_cons.mp h₁
          obtain ⟨⟨hk₂, s₂, hv₂, hs₂⟩, hval₂⟩ := List.forall_mem_cons.mp h₂
          dsimp only at hk₁ hv₁ hk₂ hv₂
          subst hv₁ hv₂
          rw [payloadText_cons, payloadText_cons] at heq
          -- the first `=` ends the key, the first line end after it ends the value
          obtain ⟨hkeys, hvalues⟩ :=
            Lib.Framing.append_cons_inj (equals_notMem_of_key hk₁) (equals_notMem_of_key hk₂) heq
          obtain ⟨htexts, hrest⟩ := Lib.Framing.append_cons_inj (newline_notMem_of_base64 hs₁)
            (newline_notMem_of_base64 hs₂) hvalues
          rw [String.toList_inj.mp hkeys, String.toList_inj.mp htexts, ih hval₁ hval₂ hrest]

/-! ### Normalized secrets -/

/-- An object of kind `Secret`, as `encoding/json` decodes it. -/
structure IsSecret (obj : Members) (fallbackKind : String) : Prop where
  generic : Generic (.map obj) Doc.maxNestingDepth
  kind : equalFold (objectKind obj fallbackKind) "Secret" = true

def redacted (h : Hashing) : Value → Value
  | .map val => .map [("evidra:digest", .str (h.payload val))]
  | v => v

section secrets

variable {h : Hashing} {obj : Members} {fallbackKind fallbackNS : String}

theorem lookup_insert_digest {field : String} {val : Members}
    (hlookup : obj.lookup field = some (.map val)) (name : String) :
    (mapInsert field (.map [("evidra:digest", .str (h.payload val))]) obj).lookup name =
      if name = field then (obj.lookup name).map (redacted h) else obj.lookup name := by
  rw [lookup_mapInsert]
  split_ifs with hname
  · rw [hname, hlookup]
    rfl
  · rfl

theorem lookup_redacted_of_other {field : String}
    (hother : ∀ val, obj.lookup field = some (.map val) → False) (name : String) :
    obj.lookup name =
      if name = field then (obj.lookup name).map (redacted h) else obj.lookup name := by
  split_ifs with hname
  · subst hname
    cases hlookup : obj.lookup name with
    | none => rfl
    | some v =>
        cases v with
        | map val => exact absurd hlookup (hother val)
        | _ => rfl
  · rfl

theorem lookup_foldl_redacted {step : Members → String → Members}
    (hstep : ∀ obj field name, (step obj field).lookup name =
      if name = field then (obj.lookup name).map (redacted h) else obj.lookup name)
    {fields : List String} (hfields : fields.Nodup) (obj : Members) (name : String) :
    (fields.foldl step obj).lookup name =
      if name ∈ fields then (obj.lookup name).map (redacted h) else obj.lookup name := by
  induction fields generalizing obj with
  | nil => rw [if_neg List.not_mem_nil, List.foldl_nil]
  | cons field fields ih =>
      obtain ⟨hfield, hfields⟩ := List.nodup_cons.mp hfields
      rw [List.foldl_cons, ih hfields, hstep]
      by_cases hname : name = field
      · subst hname
        rw [if_neg hfield, if_pos rfl, if_pos List.mem_cons_self]
      · rw [if_neg hname]
        simp only [List.mem_cons, hname, false_or]

theorem lookup_secretRedact {kind : String} (hkind : equalFold kind "Secret" = true)
    (obj : Members) (name : String) :
    (secretRedact h kind obj).lookup name =
      if name ∈ ["data", "stringData"] then (obj.lookup name).map (redacted h)
      else obj.lookup name := by
  unfold secretRedact
  rw [hkind]
  refine lookup_foldl_redacted (fun obj field name => ?_) (by decide) obj name
  split
  · exact lookup_insert_digest ‹_› name
  · exact lookup_redacted_of_other ‹_› name

/-- **What a normalized Secret has under the two members.** -/
theorem lookup_normalizeObject (hsecret : IsSecret obj fallbackKind) {name : String}
    (hname : name ∈ ["data", "stringData"]) :
    (normalizeObject h obj fallbackKind fallbackNS).2.lookup name =
      (obj.lookup name).map (redacted h) := by
  have hnames : name = "data" ∨ name = "stringData" := by simpa using hname
  have hmeta : name ≠ "metadata" := by
    rintro rfl
    revert hnames
    decide
  have hstatus : name ≠ "status" := by
    rintro rfl
    revert hnames
    decide
  unfold normalizeObject
  dsimp only
  rw [lookup_mapInsert, if_neg hmeta]
  refine (lookup_secretRedact hsecret.kind _ name).trans ?_
  rw [if_pos hname]
  split
  · rw [lookup_mapInsert, if_neg hstatus]
  · rfl

theorem field_normalizedText (hsecret : IsSecret obj fallbackKind) {name : String}
    (hname : name ∈ ["data", "stringData"]) :
    field (normalizedText h obj fallbackKind fallbackNS) name =
      (obj.lookup name).map (redacted h) := by
  have hgeneric := generic_normalizeObject (h := h) (by decide) hsecret.generic fallbackKind
    fallbackNS
  rw [normalizedText, field_marshalCanonical hgeneric, lookup_normalizeObject hsecret hname]

/-- The values that an object has in the two members; `lookup` reads a member. -/
def dataValues (lookup : String → Option Value) : List Value :=
  ["data", "stringData"].flatMap fun name => ((lookup name).getD .nil).asMap.map Prod.snd

theorem mem_dataValues_normalizedText (hsecret : IsSecret obj fallbackKind) (v : Value) :
    v ∈ dataValues (field (normalizedText h obj fallbackKind fallbackNS)) ↔
      ∃ name ∈ ["data", "stringData"], ∃ val, obj.lookup name = some (.map val) ∧
        v = .str (h.payload val) := by
  unfold dataValues
  rw [List.mem_flatMap]
  refine exists_congr fun name => and_congr_right fun hname => ?_
  rw [field_normalizedText hsecret hname]
  cases obj.lookup name with
  | none => simp [Value.asMap]
  | some w => cases w <;> simp [redacted, Value.asMap]

/-- SHA-256 tells the payloads of the two objects apart. -/
def NoCollision (sha256 : Bytes → Bytes) (obj₁ obj₂ : Members) : Prop :=
  ∀ val₁ val₂, obj₁.lookup "data" = some (.map val₁) → obj₂.lookup "data" = some (.map val₂) →
    sha256 (bytesOf (String.ofList (payloadText val₁))) =
      sha256 (bytesOf (String.ofList (payloadText val₂))) → payloadText val₁ = payloadText val₂

theorem payloadDigest_inj {sha256 : Bytes → Bytes} {val₁ val₂ : Members}
    (hplain₁ : PlainData val₁) (hplain₂ : PlainData val₂)
    (hcollision : sha256 (bytesOf (String.ofList (payloadText val₁))) =
      sha256 (bytesOf (String.ofList (payloadText val₂))) → payloadText val₁ = payloadText val₂)
    (heq : payloadDigest sha256 val₁ = payloadDigest sha256 val₂) : val₁ = val₂ :=
  payloadText_injOn hplain₁ hplain₂ (hcollision (hexEncode_injective heq))

theorem redacted_eq_map {v : Value} {kvs : Members} (heq : redacted h v = .map kvs) :
    ∃ val, v = .map val ∧ kvs = [("evidra:digest", .str (h.payload val))] := by
  cases v with
  | map val => exact ⟨val, rfl, (Value.map.inj heq).symm⟩
  | _ => cases heq

theorem redacted_data_inj {sha256 : Bytes → Bytes} {obj₁ obj₂ : Members}
    (hplain₁ : ∀ val, obj₁.lookup "data" = some (.map val) → PlainData val)
    (hplain₂ : ∀ val, obj₂.lookup "data" = some (.map val) → PlainData val)
    (hcollision : NoCollision sha256 obj₁ obj₂)
    (heq : (obj₁.lookup "data").map (redacted (h.onPayload sha256)) =
      (obj₂.lookup "data").map (redacted (h.onPayload sha256))) :
    obj₁.lookup "data" = obj₂.lookup "data" := by
  cases hdata₁ : obj₁.lookup "data" with
  | none =>
      rw [hdata₁] at heq
      exact (Option.map_eq_none_iff.mp heq.symm).symm
  | some v₁ =>
      rw [hdata₁, Option.map_some] at heq
      obtain ⟨v₂, hdata₂, hv₂⟩ := Option.map_eq_some_iff.mp heq.symm
      rw [hdata₂]
      cases v₁ with
      | map val₁ =>
          obtain ⟨val₂, rfl, hdigests⟩ := redacted_eq_map hv₂
          have hdigest : payloadDigest sha256 val₁ = payloadDigest sha256 val₂ := by
            simpa [Hashing.onPayload] using hdigests
          rw [payloadDigest_inj (hplain₁ _ hdata₁) (hplain₂ _ hdata₂)
            (hcollision _ _ hdata₁ hdata₂) hdigest]
      | _ =>
          cases v₂ with
          | map val₂ => cases hv₂
          | _ => exact congrArg some hv₂.symm

/-- **Changes of a Secret stay visible, and its values are gone.** Two Secrets whose data differ are
stored as different texts, whatever their other members are. Whatever a Secret has in `data` and
`stringData`, what is stored there are the digests of the two, and a value of the Secret that is
found there is one of these digests itself. -/
theorem secret_changes_visible (sha256 : Bytes → Bytes) (h : Hashing)
    (fallbackKind fallbackNS : String) :
    (∀ obj₁ obj₂, IsSecret obj₁ fallbackKind → IsSecret obj₂ fallbackKind →
      (∀ val, obj₁.lookup "data" = some (.map val) → PlainData val) →
      (∀ val, obj₂.lookup "data" = some (.map val) → PlainData val) →
      NoCollision sha256 obj₁ obj₂ → obj₁.lookup "data" ≠ obj₂.lookup "data" →
      normalizedText (h.onPayload sha256) obj₁ fallbackKind fallbackNS ≠
        normalizedText (h.onPayload sha256) obj₂ fallbackKind fallbackNS) ∧
    ∀ obj, IsSecret obj fallbackKind → ∀ v ∈ dataValues fun name => obj.lookup name,
      (v ∈ dataValues (field (normalizedText (h.onPayload sha256) obj fallbackKind fallbackNS)) ↔
        ∃ name ∈ ["data", "stringData"], ∃ val, obj.lookup name = some (.map val) ∧
          v = .str (payloadDigest sha256 val)) := by
  constructor
  · intro obj₁ obj₂ hsecret₁ hsecret₂ hplain₁ hplain₂ hcollision hdiffer heq
    refine hdiffer (redacted_data_inj (h := h) hplain₁ hplain₂ hcollision ?_)
    have hdata : "data" ∈ ["data", "stringData"] := List.mem_cons_self
    rw [← field_normalizedText hsecret₁ hdata, heq, field_normalizedText hsecret₂ hdata]
  · intro obj hsecret v _
    exact mem_dataValues_normalizedText hsecret v

end secrets

/-- A Secret with one entry in each of the two members. -/
def sampleSecret (key note : String) : Members :=
  [("data", .map [("key", .str key)]), ("kind", .str "Secret"),
    ("stringData", .map [("note", .str note)])]

theorem isSecret_sampleSecret (key note : String) : IsSecret (sampleSecret key note) "" where
  generic := by
    have hsorted : (sampleSecret key note).Pairwise fun a b => a.1 < b.1 := by
      have hkeys : ((sampleSecret key note).map Prod.fst).Pairwise (· < ·) := by
        show ["data", "kind", "stringData"].Pairwise (· < ·)
        decide
      exact List.pairwise_map.mp hkeys
    have hdata : ∀ name text, Generic (.map [(name, .str text)]) (Doc.maxNestingDepth - 1) :=
      fun name text => ⟨by decide, List.pairwise_singleton _ _, trivial, trivial⟩
    exact ⟨by decide, hsorted, hdata _ _, trivial, hdata _ _, trivial⟩
  kind := by
    have hkind : objectKind (sampleSecret key note) "" = "Secret" := rfl
    rw [hkind]
    decide +kernel

/-- The SHA-256 sum of `key=YQ==` and a line end. -/
def sampleSum : Bytes :=
  [88, 48, 235, 68, 77, 185, 154, 98, 52, 55, 243, 164, 27, 14, 200, 147, 105, 3, 252, 195,
    194, 16, 28, 202, 186, 169, 25, 104, 117, 7, 137, 248]

/-- A hash function that agrees with SHA-256 there. -/
def sampleHash (data : Bytes) : Bytes :=
  if data = bytesOf "key=YQ==\n" then sampleSum else data

/-- A value that is found again: the digest of `data`, kept in `stringData`. -/
theorem digest_found_again :
    let digest := "5830eb444db99a623437f3a41b0ec8936903fcc3c2101ccabaa91968750789f8"
    let obj := sampleSecret "YQ==" digest
    IsSecret obj "" ∧ (.str digest) ∈ dataValues (fun name => obj.lookup name) ∧
      (.str digest) ∈ dataValues (field (normalizedText
        (Hashing.onPayload ⟨fun _ => "", fun _ => "", fun _ => ""⟩ sampleHash) obj ""
        "bench")) := by
  intro digest obj
  have hvalues : dataValues (fun name => obj.lookup name) = [.str "YQ==", .str digest] := rfl
  have hdigest : payloadDigest sampleHash [("key", .str "YQ==")] = digest := by decide +kernel
  refine ⟨isSecret_sampleSecret _ _, ?_, ?_⟩
  · rw [hvalues]
    exact List.mem_cons_of_mem _ List.mem_cons_self
  · refine (mem_dataValues_normalizedText (isSecret_sampleSecret _ _) _).mpr
      ⟨"data", List.mem_cons_self, [("key", .str "YQ==")], rfl, ?_⟩
    exact congrArg Value.str hdigest.symm

/-- The key of a Secret is rotated. -/
theorem secret_changes_visible_rotation :
    normalizedText (Hashing.onPayload ⟨fun _ => "", fun _ => "", fun _ => ""⟩ sampleHash)
        (sampleSecret "YQ==" "") "" "bench" ≠
      normalizedText (Hashing.onPayload ⟨fun _ => "", fun _ => "", fun _ => ""⟩ sampleHash)
        (sampleSecret "Yg==" "") "" "bench" := by
  have hplain : ∀ key, key.toList.all isBase64Char = true → ∀ val,
      (sampleSecret key "").lookup "data" = some (.map val) → PlainData val := by
    intro key hkey val hval
    obtain rfl := Value.map.inj (Option.some.inj hval)
    have hname : "key".toList.all isKeyChar = true := by decide
    exact List.forall_mem_singleton.mpr ⟨hname, key, rfl, hkey⟩
  refine (secret_changes_visible sampleHash _ "" "bench").1 _ _ (isSecret_sampleSecret _ _)
    (isSecret_sampleSecret _ _) (hplain _ (by decide)) (hplain _ (by decide)) ?_ ?_
  · intro val₁ val₂ hval₁ hval₂ hsums
    obtain rfl := Value.map.inj (Option.some.inj hval₁)
    obtain rfl := Value.map.inj (Option.some.inj hval₂)
    revert hsums
    decide +kernel
  · intro heq
    have hkeys := Value.map.inj (Option.some.inj heq)
    simp at hkeys

end EvidraBench.Snapshot
