import EvidraBench.Evidrawire.Entry
import EvidraBench.Gostd.Glob
import EvidraBench.Lib.HashChain

/-!
# Writing and verifying a bundle

`pkg/evidrawire/writer.go`, `bundle.go` and `verify.go`. A `BundleWriter` appends entries to one
segment file and keeps the hash of the last one and their number; `close` puts the segment, the
store manifest and the bundle manifest on the disk. `verifyBundle` finds the segment again with
`filepath.Glob` below the root, reads its lines and checks the chain, the hashes and the signatures.
It does not read the store manifest.

Results: `verifyEntries_eq_ok`, `readLines_frame`.

The writes of an open segment can fail; what a failed write leaves behind is part of the call.

Source: `pkg/evidrawire/verify.go`
-/

namespace EvidraBench.Evidrawire

open EvidraBench.Gostd EvidraBench.Lib

/-! ### The manifests -/

/-- Source: `pkg/evidrawire/bundle.go` `BundleSpecV1` -/
def bundleSpecV1 : String := "evidra-external-bundle/v1"

/-- Source: `pkg/evidrawire/bundle.go` `BundleManifestPath` -/
def bundleManifestPath (root : Path) : Path := root ++ ["bundle.json"]

/-- The file that is renamed to `bundle.json`. -/
def bundleManifestTmp (root : Path) : Path := root ++ ["bundle.json.tmp"]

/-- Source: `pkg/evidrawire/types.go` `manifestFileName` -/
def manifestPath (root : Path) : Path := root ++ ["manifest.json"]

/-- Source: `pkg/evidrawire/types.go` `segmentsDirName`, `writer.go` `defaultSegmentName` -/
def segmentPath (root : Path) : Path := root ++ ["segments"] ++ ["evidence-000001.jsonl"]

/-- Source: `readSegmentEntries` -/
def segmentPattern (root : Path) : Path := root ++ ["segments"] ++ ["evidence-*.jsonl"]

/-- Source: `pkg/evidrawire/types.go` `defaultSegmentMaxBytes` -/
def defaultSegmentMaxBytes : Nat := 5000000

/-- Source: `pkg/evidrawire/bundle.go` `parseBundlePublicKey` -/
def parseBundlePublicKey (b64 : String) : Except String Bytes :=
  match base64Decode b64 with
  | none => .error "illegal base64 data"
  | some raw =>
      if raw.length = 32 then .ok raw
      else .error ("expected 32-byte ed25519 key, got " ++ toString raw.length)

/-- `now` is the time of the call, as text.
Source: `pkg/evidrawire/bundle.go` `SaveBundleManifest` -/
def saveBundleManifest (p : Platform) (disk : Disk) (root : Path) (m : BundleManifest)
    (now : String) : Except String Disk := do
  require (m.spec ≠ "") "evidence.SaveBundleManifest: spec is required"
  let m := if m.createdAt = "" then { m with createdAt := now } else m
  let _ ← (parseBundlePublicKey m.publicKey).mapError
    ("evidence.SaveBundleManifest: public_key must be base64 Ed25519: " ++ ·)
  let data ← (p.bundles.marshal m).mapError ("evidence.SaveBundleManifest: marshal: " ++ ·)
  .ok ((disk.erase (bundleManifestTmp root)).insert (bundleManifestPath root) (data ++ [newline]))

/-- The manifest, or `none` if there is no file.
Source: `pkg/evidrawire/bundle.go` `LoadBundleManifest` -/
def loadBundleManifest (p : Platform) (disk : Disk) (root : Path) :
    Except String (Option BundleManifest) :=
  match disk.lookup (bundleManifestPath root) with
  | none => .ok none
  | some raw =>
      ((p.bundles.unmarshal raw).mapError ("evidence.LoadBundleManifest: parse: " ++ ·)).map some

/-! ### The writer -/

/-- Source: `pkg/evidrawire/writer.go` `BundleWriter` -/
structure BundleWriter where
  root : Path
  sessionID : String
  traceID : String
  adapter : String
  signer : EphemeralSigner
  semantics : String
  prev : String := ""
  count : Nat := 0
  /-- The content of the open segment file. -/
  segment : Bytes := []
  /-- The error of a write, which the `json.Encoder` returns from then on. -/
  failed : Option String := none
  /-- The time of creation, as text. -/
  created : String

/-- Source: `pkg/evidrawire/writer.go` `NewBundleWriter` -/
def newBundleWriter (disk : Disk) (root : Path) (sessionID traceID adapter : String)
    (signer : EphemeralSigner) (semantics created : String) : Except String BundleWriter := do
  require (sessionID ≠ "" ∧ traceID ≠ "")
    "evidrawire.NewBundleWriter: sessionID and traceID are required"
  require ((disk.lookup (bundleManifestPath root)).isNone)
    "evidrawire.NewBundleWriter: bundle.json already exists"
  .ok
    { root := root
      sessionID := sessionID
      traceID := traceID
      adapter := adapter
      signer := signer
      semantics := trimSpace semantics
      created := created }

/-- A call of `Append`, with what its environment answers. -/
structure Call where
  params : EntryBuildParams
  now : Int
  ulid : String
  /-- The error of writing the line, and how many octets of it were written; `none` if the write
  succeeds. -/
  fault : Option (Nat × String) := none

def defaulted (s default : String) : String := if s = "" then default else s

/-- The parameters with the writer's defaults; the chain and the signer are the writer's own.
Source: `pkg/evidrawire/writer.go` `BundleWriter.Append` -/
def BundleWriter.complete (w : BundleWriter) (q : EntryBuildParams) : EntryBuildParams :=
  { q with
    sessionID := defaulted q.sessionID w.sessionID
    traceID := defaulted q.traceID w.traceID
    specVersion := defaulted q.specVersion "v1.1.0"
    adapterVersion := defaulted q.adapterVersion w.adapter
    canonVersion := defaulted q.canonVersion "v1"
    previousHash := w.prev
    signer := some w.signer }

/-- `json.Encoder.Encode` on the segment file: the writer after it, and its error. -/
def BundleWriter.encode (p : Platform) (w : BundleWriter) (e : EvidenceEntry)
    (fault : Option (Nat × String)) : BundleWriter × Option String :=
  match w.failed with
  | some err => (w, some err)
  | none =>
      match p.entries.marshal e with
      | .error err => (w, some err)
      | .ok data =>
          match fault with
          | none => ({ w with segment := w.segment ++ (data ++ [newline]) }, none)
          | some (n, err) =>
              ({ w with segment := w.segment ++ (data ++ [newline]).take n, failed := some err },
                some err)

/-- Source: `pkg/evidrawire/writer.go` `BundleWriter.Append` -/
def BundleWriter.append (p : Platform) (w : BundleWriter) (c : Call) :
    BundleWriter × Except String EvidenceEntry :=
  match buildEntry p (w.complete c.params) c.now c.ulid with
  | .error err => (w, .error ("evidrawire.BundleWriter.Append: " ++ err))
  | .ok e =>
      match w.encode p e c.fault with
      | (w, some err) => (w, .error ("evidrawire.BundleWriter.Append: write: " ++ err))
      | (w, none) => ({ w with prev := e.hash, count := w.count + 1 }, .ok e)

/-- A sequence of calls: the writer after it, and what each call returned. -/
def BundleWriter.appendAll (p : Platform) (w : BundleWriter) :
    List Call → BundleWriter × List (Except String EvidenceEntry)
  | [] => (w, [])
  | c :: cs =>
      let (w, r) := w.append p c
      let (w, rs) := w.appendAll p cs
      (w, r :: rs)

def successes (rs : List (Except String EvidenceEntry)) : List EvidenceEntry :=
  rs.filterMap Except.toOption

/-- What `Close` is told by its caller and by the clock. -/
structure Closing where
  producer : BundleProducer
  notes : String
  now : String

def BundleWriter.store (w : BundleWriter) (c : Closing) : StoreManifest where
  format := "evidra-evidence-manifest-v0.1"
  createdAt := w.created
  updatedAt := c.now
  segmentsDir := "segments"
  currentSegment := "evidence-000001.jsonl"
  sealedSegments := []
  segmentMaxBytes := defaultSegmentMaxBytes
  recordsTotal := w.count
  lastHash := w.prev

def BundleWriter.bundle (w : BundleWriter) (c : Closing) : BundleManifest where
  spec := bundleSpecV1
  producer := c.producer
  trustLevel := "ephemeral"
  publicKey := base64Encode w.signer.publicKey
  createdAt := w.created
  notes := c.notes
  semanticsVersion := w.semantics

/-- The disk with the segment and the two manifests.
Source: `pkg/evidrawire/writer.go` `BundleWriter.Close` -/
def BundleWriter.close (p : Platform) (w : BundleWriter) (disk : Disk) (c : Closing) :
    Except String Disk := do
  require (w.segment.length ≤ defaultSegmentMaxBytes)
    ("evidrawire.BundleWriter.Close: segment exceeds " ++ toString defaultSegmentMaxBytes ++
      " bytes; rotation is not implemented")
  let data ← p.stores.marshal (w.store c)
  let disk := disk.insert (segmentPath w.root) w.segment
  let disk := disk.insert (manifestPath w.root) (data ++ [newline])
  saveBundleManifest p disk w.root (w.bundle c) c.now

/-! ### The verifier -/

/-- Without the carriage return a line may end in. -/
def dropCarriage (line : Bytes) : Bytes :=
  if line.getLast? = some carriage then line.dropLast else line

/-- The longest line that `readSegmentEntries` lets `bufio.Scanner` take, and one more. -/
def maxTokenSize : Nat := 16 * 1024 * 1024

/-- The loop over the lines of a segment.
Source: `readSegmentEntries` -/
def readLines (p : Platform) : List Bytes → Except String (List EvidenceEntry)
  | [] => .ok []
  | line :: rest =>
      if maxTokenSize ≤ line.length then .error "bufio.Scanner: token too long"
      else if dropCarriage line = [] then readLines p rest
      else do
        let e ← (p.entries.unmarshal (dropCarriage line)).mapError
          ("evidrawire: parse entry: " ++ ·)
        let es ← readLines p rest
        .ok (e :: es)

def readSegmentEntries (p : Platform) (disk : Disk) (root : Path) :
    Except String (List EvidenceEntry) :=
  match glob disk (segmentPattern root) with
  | [] => .error ("evidrawire: no segments found under " ++ join (root ++ ["segments"]) "/")
  | [file] => readLines p (((disk.lookup file).getD []).splitOn newline)
  | files =>
      .error ("evidrawire: " ++ toString files.length ++
        " segments found; the verifier expects a single-segment bundle")

/-- The link of a record: `prev` is `none` for the first. -/
def verifyLink (record : String) (e : EvidenceEntry) : Option String → Except String Unit
  | none =>
      require (e.previousHash = "") (record ++ ": first entry must have empty previous_hash")
  | some prev => require (e.previousHash = prev) (record ++ ": previous_hash mismatch")

def verifySignature (p : Platform) (pub : Bytes) (record : String) (e : EvidenceEntry) :
    Except String Unit :=
  match base64Decode e.signature with
  | none => .error (record ++ ": invalid base64 signature: illegal base64 data")
  | some sig =>
      require (p.verify pub (bytes e.hash) sig) (record ++ ": signature verification failed")

/-- The loop over the entries.
Source: `verifyEntries` -/
def verifyFrom (p : Platform) (pub : Bytes) :
    Nat → Option String → List EvidenceEntry → Except String Unit
  | _, _, [] => .ok ()
  | i, prev, e :: rest => do
      let record := "record " ++ toString i ++ " (" ++ e.entryID ++ ")"
      verifyLink record e prev
      let recomputed ← (computeEntryHash p e).mapError (record ++ ": hash: " ++ ·)
      require (e.hash = recomputed)
        (record ++ ": hash mismatch: stored " ++ e.hash ++ ", computed " ++ recomputed)
      verifySignature p pub record e
      verifyFrom p pub (i + 1) (some e.hash) rest

def verifyEntries (p : Platform) (entries : List EvidenceEntry) (pub : Bytes) :
    Except String Unit := do
  require (!entries.isEmpty) "bundle contains no entries"
  verifyFrom p pub 0 none entries

def requireManifest (root : Path) : Option BundleManifest → Except String BundleManifest
  | none =>
      .error ("evidrawire.VerifyBundle: bundle.json not found in " ++ join root "/" ++
        " (not an external bundle)")
  | some m => .ok m

def verifyBundle (p : Platform) (disk : Disk) (root : Path) : Except String BundleManifest := do
  let found ← loadBundleManifest p disk root
  let m ← requireManifest root found
  require (m.spec = bundleSpecV1)
    ("evidrawire.VerifyBundle: unsupported bundle spec " ++ quote m.spec ++ " (want " ++
      bundleSpecV1 ++ ")")
  let pub ← (parseBundlePublicKey m.publicKey).mapError
    ("evidence.BundleManifest: invalid public_key: " ++ ·)
  let entries ← readSegmentEntries p disk root
  (verifyEntries p entries pub).mapError ("evidrawire.VerifyBundle: " ++ ·)
  .ok m

/-! ### What the verifier checks -/

section Verify

variable {p : Platform} {pub : Bytes}

/-- An entry with the hash of its fields and a signature of that hash. -/
structure EvidenceEntry.Signed (p : Platform) (pub : Bytes) (e : EvidenceEntry) : Prop where
  hash_eq : computeEntryHash p e = .ok e.hash
  verified : ∃ sig, base64Decode e.signature = some sig ∧ p.verify pub (bytes e.hash) sig = true

/-- The entries name each other's hashes, from an empty one on. -/
abbrev Chained (start : String) (entries : List EvidenceEntry) : Prop :=
  Linked (fun e => e.previousHash) EvidenceEntry.hash start entries

theorem verifyLink_eq_ok {record : String} {e : EvidenceEntry} {prev : Option String} :
    verifyLink record e prev = .ok () ↔ e.previousHash = prev.getD "" := by
  rcases prev with _ | prev
  · simp [verifyLink]
  · simp [verifyLink]

theorem verifySignature_eq_ok {record : String} {e : EvidenceEntry} :
    verifySignature p pub record e = .ok () ↔
      ∃ sig, base64Decode e.signature = some sig ∧ p.verify pub (bytes e.hash) sig = true := by
  rw [verifySignature]
  rcases base64Decode e.signature with _ | sig
  · simp
  · simp

theorem verifyFrom_eq_ok {entries : List EvidenceEntry} : ∀ {i : Nat} {prev : Option String},
    verifyFrom p pub i prev entries = .ok () ↔
      Chained (prev.getD "") entries ∧ ∀ e ∈ entries, e.Signed p pub := by
  induction entries with
  | nil => simp [verifyFrom, Linked]
  | cons e rest ih =>
      intro i prev
      rw [verifyFrom, check_bind_eq_ok, verifyLink_eq_ok, seq_eq_ok]
      constructor
      · rintro ⟨hlink, recomputed, hhash, h⟩
        obtain ⟨heq, h⟩ := check_bind_eq_ok.mp h
        obtain ⟨hsig, h⟩ := check_bind_eq_ok.mp h
        obtain ⟨hchain, hrest⟩ := ih.mp h
        obtain rfl : e.hash = recomputed := of_decide_eq_true (require_eq_ok.mp heq)
        have he : e.Signed p pub := ⟨mapError_eq_ok.mp hhash, verifySignature_eq_ok.mp hsig⟩
        exact ⟨⟨hlink, hchain⟩, List.forall_mem_cons.mpr ⟨he, hrest⟩⟩
      · rintro ⟨⟨hlink, hchain⟩, hsigned⟩
        obtain ⟨he, hrest⟩ := List.forall_mem_cons.mp hsigned
        refine ⟨hlink, e.hash, mapError_eq_ok.mpr he.hash_eq, ?_⟩
        refine check_bind_eq_ok.mpr ⟨require_eq_ok.mpr (decide_eq_true rfl), ?_⟩
        refine check_bind_eq_ok.mpr ⟨verifySignature_eq_ok.mpr he.verified, ?_⟩
        exact ih.mpr ⟨hchain, hrest⟩

/-- **What the verifier checks of the entries.** -/
theorem verifyEntries_eq_ok {entries : List EvidenceEntry} :
    verifyEntries p entries pub = .ok () ↔
      entries ≠ [] ∧ Chained "" entries ∧ ∀ e ∈ entries, e.Signed p pub := by
  rw [verifyEntries, check_bind_eq_ok, verifyFrom_eq_ok, require_eq_ok]
  simp

theorem verifyBundle_eq_ok {disk : Disk} {root : Path} {m : BundleManifest} {key : Bytes}
    (hload : loadBundleManifest p disk root = .ok (some m)) (hspec : m.spec = bundleSpecV1)
    (hkey : parseBundlePublicKey m.publicKey = .ok key) {m' : BundleManifest} :
    verifyBundle p disk root = .ok m' ↔
      m' = m ∧ ∃ entries, readSegmentEntries p disk root = .ok entries ∧
        verifyEntries p entries key = .ok () := by
  rw [verifyBundle, hload, seq_eq_ok]
  constructor
  · rintro ⟨found, hfound, h⟩
    obtain rfl := Except.ok.inj hfound
    obtain ⟨m₁, hm, h⟩ := seq_eq_ok.mp h
    obtain rfl := Except.ok.inj hm
    obtain ⟨-, h⟩ := check_bind_eq_ok.mp h
    obtain ⟨pub, hpub, h⟩ := seq_eq_ok.mp h
    obtain rfl := Except.ok.inj (hkey.symm.trans (mapError_eq_ok.mp hpub))
    obtain ⟨entries, hread, h⟩ := seq_eq_ok.mp h
    obtain ⟨hverify, h⟩ := check_bind_eq_ok.mp h
    exact ⟨(Except.ok.inj h).symm, entries, hread, mapError_eq_ok.mp hverify⟩
  · rintro ⟨rfl, entries, hread, hverify⟩
    refine ⟨some m', rfl, seq_eq_ok.mpr ⟨m', rfl, check_bind_eq_ok.mpr ⟨?_, ?_⟩⟩⟩
    · exact require_eq_ok.mpr (decide_eq_true hspec)
    · refine seq_eq_ok.mpr ⟨key, mapError_eq_ok.mpr hkey, seq_eq_ok.mpr ⟨entries, hread, ?_⟩⟩
      exact check_bind_eq_ok.mpr ⟨mapError_eq_ok.mpr hverify, rfl⟩

def lineOf (p : Platform) (e : EvidenceEntry) : Bytes := (p.entries.marshal e).toOption.getD []

theorem readLines_frame (hjson : p.JsonLaws) {entries : List EvidenceEntry}
    (hlines : ∀ e ∈ entries, p.entries.marshal e = .ok (lineOf p e))
    (hshort : (frame newline (entries.map (lineOf p))).length < maxTokenSize) :
    readLines p ((frame newline (entries.map (lineOf p))).splitOn newline) =
      .ok (entries.map (EvidenceEntry.compacted p)) := by
  have hplain : ∀ line ∈ entries.map (lineOf p), newline ∉ line := by
    intro line hline
    obtain ⟨e, he, rfl⟩ := List.mem_map.mp hline
    exact (hjson.line (hlines e he)).2.1
  rw [splitOn_frame hplain]
  clear hplain
  induction entries with
  | nil => simp [readLines, dropCarriage, maxTokenSize]
  | cons e entries ih =>
      obtain ⟨he, hentries⟩ := List.forall_mem_cons.mp hlines
      obtain ⟨hne, -, hlast⟩ := hjson.line he
      have hlen : (frame newline ((e :: entries).map (lineOf p))).length =
          (lineOf p e).length + 1 + (frame newline (entries.map (lineOf p))).length := by
        rw [List.map_cons, frame, List.flatMap_cons, List.length_append, List.length_append]
        rfl
      have hdrop : dropCarriage (lineOf p e) = lineOf p e := if_neg hlast
      rw [List.map_cons, List.cons_append, readLines, if_neg (by omega), hdrop, if_neg hne,
        hjson.entries.read he, ih hentries (by omega)]
      rfl

end Verify

end EvidraBench.Evidrawire
