import EvidraBench.Gostd.Encoding
import EvidraBench.Lib.Checks
import EvidraBench.Lib.Codec

/-!
# Evidence entries

`pkg/evidrawire/entry.go` and `entry_builder.go`: one record of an evidence bundle, the projection
of it that is hashed, and how it is built and signed. `encoding/json`, `crypto/sha256` and
`crypto/ed25519` are a parameter, `Platform`; what is relied on of `encoding/json` is
`Platform.JsonLaws`.

A payload is a `json.RawMessage`: `json.Marshal` writes it without the blanks it may have had, so
that an entry is read back with its payload in that compact form. The hash does not depend on the
difference (`computeEntryHash_compacted`).

Source: `pkg/evidrawire/entry_builder.go`
-/

namespace EvidraBench.Evidrawire

open EvidraBench.Gostd EvidraBench.Lib

/-! ### The records -/

/-- A Go string type; nine of its values are valid.
Source: `pkg/evidrawire/entry.go` `EntryType` -/
structure EntryType where
  text : String
deriving DecidableEq, Repr

/-- Source: `pkg/evidrawire/entry.go` `validEntryTypes` -/
def validEntryTypes : List EntryType :=
  [⟨"prescribe"⟩, ⟨"report"⟩, ⟨"finding"⟩, ⟨"signal"⟩, ⟨"receipt"⟩, ⟨"canonicalization_failure"⟩,
    ⟨"session_start"⟩, ⟨"session_end"⟩, ⟨"annotation"⟩]

/-- Source: `pkg/evidrawire/entry.go` `EntryType.Valid` -/
def EntryType.valid (t : EntryType) : Bool := validEntryTypes.contains t

/-- Source: `pkg/evidrawire/entry.go` `Actor` -/
structure Actor where
  type : String
  id : String
  provenance : String
  instanceID : String := ""
  version : String := ""
  skillVersion : String := ""
deriving DecidableEq, Repr

/-- A `json.RawMessage`; `none` is the nil slice. -/
abbrev RawMessage := Option Bytes

/-- A `time.Time` as JSON shows it: the instant in nanoseconds and the offset of its zone in
minutes. -/
structure Timestamp where
  instant : Int
  zone : Int
deriving DecidableEq, Repr

/-- A `map[string]string`; the nil map and the empty one are alike here, as they are in JSON with
`omitempty`. -/
abbrev Dimensions := Finmap fun _ : String => String

structure HashableEntry where
  entryID : String
  previousHash : String
  type : EntryType
  tenantID : String
  sessionID : String
  operationID : String
  attempt : Int
  traceID : String
  spanID : String
  parentSpanID : String
  actor : Actor
  timestamp : Timestamp
  intentDigest : String
  artifactDigest : String
  payload : RawMessage
  scopeDimensions : Dimensions
  specVersion : String
  canonVersion : String
  adapterVersion : String
  scoringVersion : String
deriving DecidableEq

/-- The hashed fields, the hash and the signature.
Source: `pkg/evidrawire/entry.go` `EvidenceEntry` -/
structure EvidenceEntry extends HashableEntry where
  hash : String
  signature : String
deriving DecidableEq

/-- Source: `pkg/evidrawire/signer_ephemeral.go` `EphemeralSigner` -/
structure EphemeralSigner where
  privateKey : Bytes
  publicKey : Bytes
deriving DecidableEq, Repr

/-- Source: `pkg/evidrawire/bundle.go` `BundleProducer` -/
structure BundleProducer where
  name : String
  version : String := ""
  url : String := ""
deriving DecidableEq, Repr

/-- Source: `pkg/evidrawire/bundle.go` `BundleManifest` -/
structure BundleManifest where
  spec : String
  producer : BundleProducer
  trustLevel : String
  publicKey : String
  createdAt : String
  notes : String
  semanticsVersion : String
deriving DecidableEq, Repr

/-- Source: `pkg/evidrawire/types.go` `StoreManifest` -/
structure StoreManifest where
  format : String
  createdAt : String
  updatedAt : String
  segmentsDir : String
  currentSegment : String
  sealedSegments : List String
  segmentMaxBytes : Nat
  recordsTotal : Nat
  lastHash : String
  notes : String := ""
deriving DecidableEq, Repr

/-! ### The libraries -/

/-- What the package uses of `encoding/json`, `crypto/sha256` and `crypto/ed25519`. -/
structure Platform where
  /-- A raw message as `json.Marshal` writes it: without blanks, and `null` for nil. -/
  compact : RawMessage → RawMessage
  entries : Codec EvidenceEntry
  hashables : Codec HashableEntry
  bundles : Codec BundleManifest
  stores : Codec StoreManifest
  sha256 : Bytes → Bytes
  /-- By the private key. -/
  sign : Bytes → Bytes → Bytes
  /-- By the public key: the message, then the signature. -/
  verify : Bytes → Bytes → Bytes → Bool

def HashableEntry.compacted (p : Platform) (h : HashableEntry) : HashableEntry :=
  { h with payload := p.compact h.payload }

def EvidenceEntry.compacted (p : Platform) (e : EvidenceEntry) : EvidenceEntry :=
  { e with payload := p.compact e.payload }

def newline : UInt8 := 10

def carriage : UInt8 := 13

/-- What the package relies on of `encoding/json`, strings being valid UTF-8: values are read back
as they were written, payloads in their compact form; the text of an object is one line; a
line end after it does not matter. -/
structure Platform.JsonLaws (p : Platform) : Prop where
  entries : p.entries.RoundTrips (EvidenceEntry.compacted p)
  hashables : p.hashables.RoundTrips (HashableEntry.compacted p)
  bundles : p.bundles.RoundTrips id
  stores : p.stores.RoundTrips id
  line : ∀ {e : EvidenceEntry} {data : Bytes}, p.entries.marshal e = .ok data →
    data ≠ [] ∧ newline ∉ data ∧ data.getLast? ≠ some carriage
  bundleEnd : ∀ data, p.bundles.unmarshal (data ++ [newline]) = p.bundles.unmarshal data
  storeEnd : ∀ data, p.stores.unmarshal (data ++ [newline]) = p.stores.unmarshal data

/-! ### Building an entry -/

def isHexDigit (c : Char) : Bool :=
  ('0' ≤ c && c ≤ '9') || ('a' ≤ c && c ≤ 'f') || ('A' ≤ c && c ≤ 'F')

def formatDigest (d : String) : Except String String := do
  let trimmed := trimSpace d
  if trimmed = "" then .ok ""
  else
    let invalid := "invalid digest " ++ quote d ++ ": expected sha256:<64 hex>"
    let (scheme, rest, found) := cut trimmed ':'
    require (!found || equalFold scheme "sha256") invalid
    let hexPart := if found then rest else trimmed
    require (hexPart.utf8ByteSize = 64) invalid
    require (hexPart.toList.all isHexDigit) invalid
    .ok ("sha256:" ++ hexPart.toLower)

structure EntryBuildParams where
  entryID : String := ""
  type : EntryType
  tenantID : String := ""
  sessionID : String := ""
  operationID : String := ""
  attempt : Int := 0
  traceID : String := ""
  spanID : String := ""
  parentSpanID : String := ""
  actor : Actor
  intentDigest : String := ""
  artifactDigest : String := ""
  payload : RawMessage
  previousHash : String := ""
  scopeDimensions : Dimensions := ∅
  specVersion : String := ""
  canonVersion : String := ""
  adapterVersion : String := ""
  scoringVersion : String := ""
  signer : Option EphemeralSigner := none

/-- The hash of the fields that are hashed.
Source: `computeEntryHash` -/
def computeHash (p : Platform) (h : HashableEntry) : Except String String := do
  let data ← (p.hashables.marshal h).mapError ("computeEntryHash: marshal: " ++ ·)
  .ok ("sha256:" ++ hexEncode (p.sha256 data))

def computeEntryHash (p : Platform) (e : EvidenceEntry) : Except String String :=
  computeHash p e.toHashableEntry

/-- The fields of the entry, with the digests in their normal form. -/
def EntryBuildParams.content (q : EntryBuildParams) (now : Int) (ulid : String)
    (intentDigest artifactDigest : String) : HashableEntry where
  entryID := if q.entryID = "" then ulid else q.entryID
  previousHash := q.previousHash
  type := q.type
  tenantID := q.tenantID
  sessionID := q.sessionID
  operationID := q.operationID
  attempt := q.attempt
  traceID := q.traceID
  spanID := q.spanID
  parentSpanID := q.parentSpanID
  actor := q.actor
  timestamp := ⟨now, 0⟩
  intentDigest := intentDigest
  artifactDigest := artifactDigest
  payload := q.payload
  scopeDimensions := q.scopeDimensions
  specVersion := q.specVersion
  canonVersion := q.canonVersion
  adapterVersion := q.adapterVersion
  scoringVersion := q.scoringVersion

def requireSigner : Option EphemeralSigner → Except String EphemeralSigner
  | none => .error "evidence.BuildEntry: Signer is required"
  | some signer => .ok signer

/-- `now` is the time of the call and `ulid` a fresh identifier.
Source: `BuildEntry` -/
def buildEntry (p : Platform) (q : EntryBuildParams) (now : Int) (ulid : String) :
    Except String EvidenceEntry := do
  let signer ← requireSigner q.signer
  require q.type.valid ("evidence.BuildEntry: invalid entry type " ++ quote q.type.text)
  let intentDigest ← (formatDigest q.intentDigest).mapError
    ("evidence.BuildEntry: invalid intent_digest: " ++ ·)
  let artifactDigest ← (formatDigest q.artifactDigest).mapError
    ("evidence.BuildEntry: invalid artifact_digest: " ++ ·)
  let content := q.content now ulid intentDigest artifactDigest
  let hash ← (computeHash p content).mapError ("evidence.BuildEntry: " ++ ·)
  .ok
    { toHashableEntry := content
      hash := hash
      signature := base64Encode (p.sign signer.privateKey (bytes hash)) }

/-! ### What is built -/

section Build

variable {p : Platform}

theorem computeHash_eq_ok {h : HashableEntry} {hash : String} :
    computeHash p h = .ok hash ↔
      ∃ data, p.hashables.marshal h = .ok data ∧ hash = "sha256:" ++ hexEncode (p.sha256 data) := by
  rw [computeHash, seq_eq_ok]
  constructor
  · rintro ⟨data, hdata, heq⟩
    exact ⟨data, mapError_eq_ok.mp hdata, (Except.ok.inj heq).symm⟩
  · rintro ⟨data, hdata, rfl⟩
    exact ⟨data, mapError_eq_ok.mpr hdata, rfl⟩

/-- **The hash survives the round trip of an entry.** It is computed over the projection of what was
read back, whose payload is in the compact form. -/
theorem computeEntryHash_compacted (hjson : p.JsonLaws) {e : EvidenceEntry} {hash : String}
    (h : computeEntryHash p e = .ok hash) : computeEntryHash p (e.compacted p) = .ok hash := by
  obtain ⟨data, hdata, rfl⟩ := computeHash_eq_ok.mp h
  exact computeHash_eq_ok.mpr ⟨data, hjson.hashables.stable hdata, rfl⟩

theorem hash_ne_empty {h : HashableEntry} {hash : String} (heq : computeHash p h = .ok hash) :
    hash ≠ "" := by
  obtain ⟨data, -, rfl⟩ := computeHash_eq_ok.mp heq
  intro hempty
  have hchars := congrArg String.toList hempty
  rw [String.toList_append] at hchars
  exact absurd (List.append_eq_nil_iff.mp hchars).1 (by decide)

theorem buildEntry_ok {q : EntryBuildParams} {now : Int} {ulid : String} {e : EvidenceEntry}
    {signer : EphemeralSigner} (hsigner : q.signer = some signer)
    (h : buildEntry p q now ulid = .ok e) :
    e.previousHash = q.previousHash ∧ computeEntryHash p e = .ok e.hash ∧
      e.signature = base64Encode (p.sign signer.privateKey (bytes e.hash)) := by
  rw [buildEntry, hsigner] at h
  obtain ⟨s, hs, h⟩ := seq_eq_ok.mp h
  obtain rfl := Except.ok.inj hs
  obtain ⟨-, h⟩ := check_bind_eq_ok.mp h
  obtain ⟨intent, -, h⟩ := seq_eq_ok.mp h
  obtain ⟨artifact, -, h⟩ := seq_eq_ok.mp h
  obtain ⟨hash, hhash, h⟩ := seq_eq_ok.mp h
  obtain rfl := Except.ok.inj h
  exact ⟨rfl, mapError_eq_ok.mp hhash, rfl⟩

end Build

end EvidraBench.Evidrawire
