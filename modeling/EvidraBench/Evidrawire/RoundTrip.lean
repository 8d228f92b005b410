import EvidraBench.Evidrawire.Bundle

/-!
# What was written is read back

A sequence of `Append` calls, some of which may fail, then `Close`, then `VerifyBundle` on the same
root.

Results: `append_cases`, `round_trip`.

Source: `pkg/evidrawire/writer.go`
-/

namespace EvidraBench.Evidrawire

open EvidraBench.Gostd EvidraBench.Lib

section Append

variable {p : Platform}

/-- A call whose write succeeds, or fails before anything was written. -/
def Call.Clean (c : Call) : Prop := ∀ n err, c.fault = some (n, err) → n = 0

/-- An entry that the writer has written: chained to `prev`, hashed, signed, and encoded. -/
structure Written (p : Platform) (signer : EphemeralSigner) (e : EvidenceEntry) : Prop where
  hash_eq : computeEntryHash p e = .ok e.hash
  signature_eq : e.signature = base64Encode (p.sign signer.privateKey (bytes e.hash))
  line_eq : p.entries.marshal e = .ok (lineOf p e)

/-- What a call of `Append` can do.
Source: `BundleWriter.Append` -/
inductive Appended (p : Platform) (w : BundleWriter) (c : Call) :
    BundleWriter × Except String EvidenceEntry → Prop
  /-- The chain is as it was; the segment may have got part of a line. -/
  | failed {torn : Bytes} {failed : Option String} {err : String} (hclean : c.Clean → torn = []) :
      Appended p w c ({ w with segment := w.segment ++ torn, failed := failed }, .error err)
  | written {e : EvidenceEntry} (hwritten : Written p w.signer e)
      (hprev : e.previousHash = w.prev) :
      Appended p w c
        ({ w with
            segment := w.segment ++ (lineOf p e ++ [newline])
            prev := e.hash
            count := w.count + 1 }, .ok e)

theorem Appended.unchanged (w : BundleWriter) (c : Call) (err : String) :
    Appended p w c (w, .error err) := by
  have h : Appended p w c ({ w with segment := w.segment ++ [], failed := w.failed }, .error err) :=
    .failed fun _ => rfl
  rwa [List.append_nil] at h

theorem append_of_buildEntry_error {w : BundleWriter} {c : Call} {err : String}
    (h : buildEntry p (w.complete c.params) c.now c.ulid = .error err) :
    w.append p c = (w, .error ("evidrawire.BundleWriter.Append: " ++ err)) := by
  unfold BundleWriter.append
  rw [h]

/-- **One call.** It appends an entry, or leaves the chain as it was. -/
theorem append_cases (w : BundleWriter) (c : Call) : Appended p w c (w.append p c) := by
  rcases hbuild : buildEntry p (w.complete c.params) c.now c.ulid with err | e
  · rw [append_of_buildEntry_error hbuild]
    exact .unchanged w c _
  obtain ⟨hprev, hhash, hsignature⟩ := buildEntry_ok rfl hbuild
  unfold BundleWriter.append BundleWriter.encode
  simp only [hbuild]
  by_cases hfailed : w.failed = none
  · rcases hmarshal : p.entries.marshal e with err | data
    · simp only [hfailed]
      exact .unchanged w c _
    have hline : lineOf p e = data := by
      rw [lineOf, hmarshal]
      rfl
    rcases hfault : c.fault with _ | ⟨n, err⟩
    · simp only [hfailed]
      rw [← hline, ← hfailed]
      exact .written ⟨hhash, hsignature, hline ▸ hmarshal⟩ hprev
    · simp only [hfailed]
      refine .failed fun hclean => ?_
      rw [hclean n err hfault]
      rfl
  · obtain ⟨err, herr⟩ := Option.ne_none_iff_exists'.mp hfailed
    simp only [herr]
    exact .unchanged w c _

/-- The writer holds the chain of the entries that were appended. -/
structure Kept (p : Platform) (w : BundleWriter) (entries : List EvidenceEntry) : Prop where
  chained : Chained "" entries
  prev_eq : w.prev = tip EvidenceEntry.hash "" entries
  count_eq : w.count = entries.length
  written : ∀ e ∈ entries, Written p w.signer e

theorem Kept.append {w w' : BundleWriter} {c : Call} {entries : List EvidenceEntry}
    {r : Except String EvidenceEntry} (h : Kept p w entries) (hstep : Appended p w c (w', r)) :
    Kept p w' (entries ++ successes [r]) := by
  cases hstep with
  | failed _ =>
      rw [show successes [Except.error _] = [] from rfl, List.append_nil]
      exact ⟨h.chained, h.prev_eq, h.count_eq, h.written⟩
  | @written e hwritten hprev =>
      rw [show successes [Except.ok e] = [e] from rfl]
      constructor
      case chained => exact (linked_append e "").mpr ⟨h.chained, hprev.trans h.prev_eq⟩
      case prev_eq =>
        show e.hash = _
        rw [tip_append]
      case count_eq =>
        show w.count + 1 = _
        rw [List.length_append, h.count_eq]
        rfl
      case written =>
        intro e' he'
        rcases List.mem_append.mp he' with he' | he'
        · exact h.written e' he'
        · rw [List.mem_singleton.mp he']
          exact hwritten

def Filled (p : Platform) (w : BundleWriter) (entries : List EvidenceEntry) : Prop :=
  w.segment = frame newline (entries.map (lineOf p))

theorem Filled.append {w w' : BundleWriter} {c : Call} {entries : List EvidenceEntry}
    {r : Except String EvidenceEntry} (h : Filled p w entries) (hclean : c.Clean)
    (hstep : Appended p w c (w', r)) : Filled p w' (entries ++ successes [r]) := by
  cases hstep with
  | @failed torn _ _ htorn =>
      show w.segment ++ torn = _
      rw [htorn hclean, List.append_nil, h, show successes [Except.error _] = [] from rfl,
        List.append_nil]
  | @written e _ _ =>
      show w.segment ++ (lineOf p e ++ [newline]) = _
      rw [h, ← frame_append, show successes [Except.ok e] = [e] from rfl, List.map_append]
      rfl

theorem Appended.same {w w' : BundleWriter} {c : Call} {r : Except String EvidenceEntry}
    (hstep : Appended p w c (w', r)) :
    w'.root = w.root ∧ w'.signer = w.signer := by
  cases hstep with
  | failed _ => exact ⟨rfl, rfl⟩
  | written _ _ => exact ⟨rfl, rfl⟩

/-- **Any calls.** What holds of the writer and the entries so far, and is kept by every call of the
sequence, holds after it. -/
theorem appendAll_induction (I : BundleWriter → List EvidenceEntry → Prop) {calls : List Call}
    (hstep : ∀ w w' : BundleWriter, ∀ c ∈ calls, ∀ entries r, I w entries →
      Appended p w c (w', r) → I w' (entries ++ successes [r])) :
    ∀ {w : BundleWriter} {entries : List EvidenceEntry}, I w entries →
      I (w.appendAll p calls).1 (entries ++ successes (w.appendAll p calls).2) := by
  induction calls with
  | nil =>
      intro w entries h
      rw [show successes (w.appendAll p []).2 = [] from rfl, List.append_nil]
      exact h
  | cons c calls ih =>
      intro w entries h
      rcases hcall : w.append p c with ⟨w', r⟩
      have hall : w.appendAll p (c :: calls) =
          ((w'.appendAll p calls).1, [r] ++ (w'.appendAll p calls).2) := by
        rw [BundleWriter.appendAll, hcall]
        rfl
      have hhead := hstep w w' c List.mem_cons_self entries r h (hcall ▸ append_cases w c)
      have hrest := ih (fun w w' c hc => hstep w w' c (List.mem_cons_of_mem _ hc)) hhead
      rw [hall, successes, List.filterMap_append, ← List.append_assoc]
      exact hrest

end Append

/-! ### Closing -/

section Close

variable {p : Platform}

/-- What is on the disk after `Close`.
Source: `BundleWriter.Close` -/
structure Closed (p : Platform) (w : BundleWriter) (disk disk' : Disk) (c : Closing) : Prop where
  small : w.segment.length ≤ defaultSegmentMaxBytes
  segment : disk'.lookup (segmentPath w.root) = some w.segment
  store : ∃ data, disk'.lookup (manifestPath w.root) = some (data ++ [newline]) ∧
    p.stores.marshal (w.store c) = .ok data
  bundle : ∃ m data, disk'.lookup (bundleManifestPath w.root) = some (data ++ [newline]) ∧
    p.bundles.marshal m = .ok data ∧ m.spec = bundleSpecV1 ∧
      m.publicKey = base64Encode w.signer.publicKey
  files : ∀ path ∈ disk', path ∈ disk ∨ path = segmentPath w.root ∨ path = manifestPath w.root ∨
    path = bundleManifestPath w.root

theorem segmentPath_ne (root : Path) (name : String) : segmentPath root ≠ root ++ [name] := by
  intro h
  have hlen := congrArg List.length h
  simp [segmentPath] at hlen

theorem path_ne {root : Path} {name name' : String} (h : name ≠ name') :
    root ++ [name] ≠ root ++ [name'] := by
  intro heq
  exact h (List.singleton_injective (List.append_cancel_left heq))

theorem closed_of_close {w : BundleWriter} {disk disk' : Disk} {c : Closing}
    (h : w.close p disk c = .ok disk') : Closed p w disk disk' c := by
  rw [BundleWriter.close, check_bind_eq_ok] at h
  obtain ⟨hsmall, h⟩ := h
  obtain ⟨sdata, hstore, h⟩ := seq_eq_ok.mp h
  rw [saveBundleManifest, check_bind_eq_ok] at h
  obtain ⟨-, h⟩ := h
  obtain ⟨key, -, h⟩ := seq_eq_ok.mp h
  obtain ⟨bdata, hbundle, h⟩ := seq_eq_ok.mp h
  obtain rfl := Except.ok.inj h
  have hbm : bundleManifestPath w.root ≠ manifestPath w.root := path_ne (by decide)
  have htm : manifestPath w.root ≠ bundleManifestTmp w.root := path_ne (by decide)
  have hsb : segmentPath w.root ≠ bundleManifestPath w.root := segmentPath_ne _ _
  have hst : segmentPath w.root ≠ bundleManifestTmp w.root := segmentPath_ne _ _
  have hsm : segmentPath w.root ≠ manifestPath w.root := segmentPath_ne _ _
  constructor
  case small => exact of_decide_eq_true (require_eq_ok.mp hsmall)
  case segment =>
    rw [AList.lookup_insert_ne hsb, AList.lookup_erase_ne hst, AList.lookup_insert_ne hsm,
      AList.lookup_insert]
  case store =>
    refine ⟨sdata, ?_, hstore⟩
    rw [AList.lookup_insert_ne hbm.symm, AList.lookup_erase_ne htm, AList.lookup_insert]
  case bundle =>
    refine ⟨_, bdata, AList.lookup_insert _, mapError_eq_ok.mp hbundle, ?_, ?_⟩
    · split_ifs <;> rfl
    · split_ifs <;> rfl
  case files =>
    intro path hpath
    rw [AList.mem_insert, AList.mem_erase, AList.mem_insert, AList.mem_insert] at hpath
    rcases hpath with hpath | ⟨-, hpath | hpath | hpath⟩
    · exact .inr (.inr (.inr hpath))
    · exact .inr (.inr (.inl hpath))
    · exact .inr (.inl hpath)
    · exact .inl hpath

end Close

/-! ### The round trip -/

section RoundTrip

variable {p : Platform}

/-- The root is found again: each of its names, used as a pattern, matches itself, and the pattern
of the segments matches no other file on the disk. -/
structure Locatable (disk : Disk) (root : Path) : Prop where
  self : matchPath root root = true
  alone : ∀ path ∈ disk, matchPath (segmentPattern root) path = true → path = segmentPath root

theorem match_segmentPath {root : Path} :
    matchPath (segmentPattern root) (segmentPath root) = true ↔ matchPath root root = true := by
  rw [segmentPattern, segmentPath, matchPath_append, matchPath_append]
  have hdir : matchName "segments" "segments" = true := by decide +kernel
  have hfile : matchName "evidence-*.jsonl" "evidence-000001.jsonl" = true := by decide +kernel
  simp only [hdir, hfile, and_true]

theorem not_match_below {root : Path} {name : String} :
    matchPath (segmentPattern root) (root ++ [name]) ≠ true := by
  intro h
  have hlen := length_eq_of_matchPath h
  simp [segmentPattern] at hlen

/-- A root of plain names, below which there was nothing, is one the verifier finds the segment
under. -/
theorem locatable_of_plain {disk : Disk} {root : Path}
    (hplain : ∀ name ∈ root, ∀ c ∈ name.toList, isMagic c = false)
    (hfresh : ∀ path ∈ disk, ¬ root <+: path) : Locatable disk root where
  self := (matchPath_iff_of_plain hplain).mpr rfl
  alone := by
    intro path hpath hmatch
    rcases List.eq_nil_or_concat' path with rfl | ⟨dir, file, rfl⟩
    · have hlen := length_eq_of_matchPath hmatch
      simp [segmentPattern] at hlen
    rw [segmentPattern, matchPath_append] at hmatch
    rcases List.eq_nil_or_concat' dir with rfl | ⟨front, name, rfl⟩
    · have hlen := length_eq_of_matchPath hmatch.1
      simp at hlen
    -- what is left of the path matches the root, so it is the root
    obtain rfl := (matchPath_iff_of_plain hplain).mp (matchPath_append.mp hmatch.1).1
    rw [List.append_assoc] at hpath
    exact absurd (List.prefix_append _ _) (hfresh _ hpath)

theorem mem_glob_of_closed {w : BundleWriter} {disk disk' : Disk} {c : Closing}
    (h : Closed p w disk disk' c)
    (halone : ∀ path ∈ disk, matchPath (segmentPattern w.root) path = true →
      path = segmentPath w.root) {path : Path} (hpath : path ∈ disk')
    (hmatch : matchPath (segmentPattern w.root) path = true) : path = segmentPath w.root := by
  rcases h.files path hpath with hold | rfl | rfl | rfl
  · exact halone path hold hmatch
  · rfl
  · exact absurd hmatch not_match_below
  · exact absurd hmatch not_match_below

/-- A bundle from the creation of its writer to a successful `Close`. -/
structure Session (p : Platform) where
  before : Disk
  root : Path
  sessionID : String
  traceID : String
  adapter : String
  signer : EphemeralSigner
  semantics : String
  created : String
  opened : BundleWriter
  open_ok : newBundleWriter before root sessionID traceID adapter signer semantics created =
    .ok opened
  calls : List Call
  closing : Closing
  after : Disk
  close_ok : (opened.appendAll p calls).1.close p before closing = .ok after

namespace Session

def writer (s : Session p) : BundleWriter := (s.opened.appendAll p s.calls).1

def appended (s : Session p) : List EvidenceEntry := successes (s.opened.appendAll p s.calls).2

theorem opened_eq (s : Session p) : s.opened.root = s.root ∧ s.opened.signer = s.signer ∧
    s.opened.prev = "" ∧ s.opened.count = 0 ∧ s.opened.segment = [] := by
  have h := s.open_ok
  rw [newBundleWriter, check_bind_eq_ok, check_bind_eq_ok] at h
  obtain ⟨-, -, h⟩ := h
  rw [← Except.ok.inj h]
  exact ⟨rfl, rfl, rfl, rfl, rfl⟩

theorem writer_same (s : Session p) : s.writer.root = s.root ∧ s.writer.signer = s.signer := by
  obtain ⟨hroot, hsigner, -⟩ := s.opened_eq
  have hstart : s.opened.root = s.root ∧ s.opened.signer = s.signer := ⟨hroot, hsigner⟩
  refine @appendAll_induction p (fun w _ => w.root = s.root ∧ w.signer = s.signer) s.calls ?_
    s.opened [] hstart
  rintro w w' c - entries r ⟨hroot, hsigner⟩ hstep
  obtain ⟨hroot', hsigner'⟩ := hstep.same
  exact ⟨hroot'.trans hroot, hsigner'.trans hsigner⟩

theorem kept (s : Session p) : Kept p s.writer s.appended := by
  obtain ⟨-, -, hprev, hcount, -⟩ := s.opened_eq
  have hstart : Kept p s.opened [] := ⟨trivial, hprev, hcount, fun e he => by simp at he⟩
  exact appendAll_induction (Kept p) (fun _ _ _ _ _ _ h hstep => h.append hstep) hstart

theorem filled (s : Session p) (hclean : ∀ c ∈ s.calls, c.Clean) :
    Filled p s.writer s.appended := by
  obtain ⟨-, -, -, -, hsegment⟩ := s.opened_eq
  have hstart : Filled p s.opened [] := hsegment
  exact appendAll_induction (Filled p)
    (fun _ _ c hc _ _ h hstep => h.append (hclean c hc) hstep) hstart

theorem closed (s : Session p) : Closed p s.writer s.before s.after s.closing :=
  closed_of_close s.close_ok

end Session

/-- An Ed25519 key pair: the public key has its length and verifies what was signed with the
private one. -/
structure KeyPair (p : Platform) (signer : EphemeralSigner) : Prop where
  size : signer.publicKey.length = 32
  verifies : ∀ m, p.verify signer.publicKey m (p.sign signer.privateKey m) = true

/-- What reading a bundle back promises, for the entries that were appended. -/
structure RoundTrip (p : Platform) (disk : Disk) (root : Path) (appended : List EvidenceEntry) :
    Prop where
  accepted : ∃ m, verifyBundle p disk root = .ok m
  decoded : readSegmentEntries p disk root = .ok (appended.map (EvidenceEntry.compacted p))
  /-- Exactly the appended entries, if the payloads were in the form in which they are written. -/
  exact_ : (∀ e ∈ appended, p.compact e.payload = e.payload) →
    readSegmentEntries p disk root = .ok appended
  totals : ∃ data m, disk.lookup (manifestPath root) = some data ∧
    p.stores.unmarshal data = .ok m ∧ m.recordsTotal = appended.length ∧
      appended.getLast?.map EvidenceEntry.hash = some m.lastHash

theorem parseBundlePublicKey_encode {key : Bytes} (h : key.length = 32) :
    parseBundlePublicKey (base64Encode key) = .ok key := by
  rw [parseBundlePublicKey, base64Decode_encode]
  exact if_pos h

/-- With the manifest that a session leaves behind, the verifier checks the entries it reads
against the session's key. -/
theorem Session.accepted_iff (s : Session p) (hjson : p.JsonLaws) (hkeys : KeyPair p s.signer)
    {disk : Disk}
    (hsame : disk.lookup (bundleManifestPath s.root) = s.after.lookup (bundleManifestPath s.root)) :
    (∃ m, verifyBundle p disk s.root = .ok m) ↔
      ∃ entries, readSegmentEntries p disk s.root = .ok entries ∧
        verifyEntries p entries s.signer.publicKey = .ok () := by
  obtain ⟨hroot, hsigner⟩ := s.writer_same
  obtain ⟨m, data, hlookup, hmarshal, hspec, hkey⟩ := s.closed.bundle
  rw [hroot] at hlookup
  rw [hsigner] at hkey
  have hload : loadBundleManifest p disk s.root = .ok (some m) := by
    rw [loadBundleManifest, hsame, hlookup]
    dsimp only
    rw [hjson.bundleEnd, hjson.bundles.read hmarshal]
    rfl
  have hparse : parseBundlePublicKey m.publicKey = .ok s.signer.publicKey := by
    rw [hkey]
    exact parseBundlePublicKey_encode hkeys.size
  constructor
  · rintro ⟨m', hm'⟩
    exact ((verifyBundle_eq_ok hload hspec hparse).mp hm').2
  · intro h
    exact ⟨m, (verifyBundle_eq_ok hload hspec hparse).mpr ⟨rfl, h⟩⟩

theorem verifyEntries_of_kept (hjson : p.JsonLaws) {w : BundleWriter}
    {entries : List EvidenceEntry} (hkeys : KeyPair p w.signer) (hkept : Kept p w entries)
    (hne : entries ≠ []) :
    verifyEntries p (entries.map (EvidenceEntry.compacted p)) w.signer.publicKey = .ok () := by
  refine verifyEntries_eq_ok.mpr ⟨?_, linked_map.mpr hkept.chained, ?_⟩
  · simpa using hne
  · intro e' he'
    obtain ⟨e, he, rfl⟩ := List.mem_map.mp he'
    obtain ⟨hhash, hsignature, -⟩ := hkept.written e he
    refine ⟨computeEntryHash_compacted hjson hhash, _, ?_, hkeys.verifies (bytes e.hash)⟩
    show base64Decode e.signature = _
    rw [hsignature, base64Decode_encode]

theorem Session.glob_eq (s : Session p) (hlocatable : Locatable s.before s.root) {disk : Disk}
    (hfiles : ∀ path ∈ disk, path ∈ s.after) (hsegment : segmentPath s.root ∈ disk) :
    glob disk (segmentPattern s.root) = [segmentPath s.root] := by
  obtain ⟨hroot, -⟩ := s.writer_same
  refine glob_eq_singleton hsegment fun path hpath => ?_
  constructor
  · intro hmatch
    rw [← hroot] at hmatch ⊢
    exact mem_glob_of_closed s.closed (hroot ▸ hlocatable.alone) (hfiles path hpath) hmatch
  · rintro rfl
    exact match_segmentPath.mpr hlocatable.self

theorem Session.read (s : Session p) (hjson : p.JsonLaws) (hclean : ∀ c ∈ s.calls, c.Clean)
    (hlocatable : Locatable s.before s.root) :
    readSegmentEntries p s.after s.root = .ok (s.appended.map (EvidenceEntry.compacted p)) := by
  obtain ⟨hroot, -⟩ := s.writer_same
  have hsegment := s.closed.segment
  rw [hroot] at hsegment
  have hmem : segmentPath s.root ∈ s.after := AList.lookup_isSome.mp (by rw [hsegment]; rfl)
  have hfilled : s.writer.segment = frame newline (s.appended.map (lineOf p)) := s.filled hclean
  have hshort : (frame newline (s.appended.map (lineOf p))).length < maxTokenSize := by
    rw [← hfilled]
    exact lt_of_le_of_lt s.closed.small (by decide)
  rw [readSegmentEntries, s.glob_eq hlocatable (fun _ h => h) hmem]
  dsimp only
  rw [hsegment, Option.getD_some, hfilled]
  exact readLines_frame hjson (fun e he => (s.kept.written e he).line_eq) hshort

theorem Session.totals (s : Session p) (hjson : p.JsonLaws) (hne : s.appended ≠ []) :
    ∃ data m, s.after.lookup (manifestPath s.root) = some data ∧ p.stores.unmarshal data = .ok m ∧
      m.recordsTotal = s.appended.length ∧
      s.appended.getLast?.map EvidenceEntry.hash = some m.lastHash := by
  obtain ⟨hroot, -⟩ := s.writer_same
  obtain ⟨data, hlookup, hmarshal⟩ := s.closed.store
  rw [hroot] at hlookup
  refine ⟨_, s.writer.store s.closing, hlookup, ?_, s.kept.count_eq, ?_⟩
  · rw [hjson.storeEnd]
    exact hjson.stores.read hmarshal
  · rw [getLast?_map_eq_tip hne ""]
    exact congrArg some s.kept.prev_eq.symm

theorem Session.glob_eq_nil (s : Session p)
    (halone : ∀ path ∈ s.before, matchPath (segmentPattern s.root) path = true →
      path = segmentPath s.root) (hself : matchPath s.root s.root ≠ true) :
    glob s.after (segmentPattern s.root) = [] := by
  obtain ⟨hroot, -⟩ := s.writer_same
  refine List.filter_eq_nil_iff.mpr fun path hpath hmatch => hself ?_
  rw [← hroot] at hmatch halone
  have hpath' := mem_glob_of_closed s.closed halone hpath hmatch
  rw [hpath', match_segmentPath, hroot] at hmatch
  exact hmatch

/-- **Round trip of a bundle.** In every session with at least one appended entry, whatever else its
calls were: if no failed write left part of a line behind and the root is found again, the bundle is
accepted, read back as the appended entries, and has their number and last hash in its manifest. The
root must match itself: on a disk where no other file matches, the verifier rejects the bundle
otherwise. A failed `BuildEntry` leaves the writer as it was.
Source: `BundleWriter.Append`, `Close`; `verify.go` `VerifyBundle` -/
theorem round_trip (hjson : p.JsonLaws) (s : Session p) (hkeys : KeyPair p s.signer)
    (hne : s.appended ≠ []) :
    ((∀ c ∈ s.calls, c.Clean) → Locatable s.before s.root →
        RoundTrip p s.after s.root s.appended) ∧
      ((∀ path ∈ s.before, matchPath (segmentPattern s.root) path = true →
          path = segmentPath s.root) → RoundTrip p s.after s.root s.appended →
        matchPath s.root s.root = true) ∧
      ∀ w c err, buildEntry p (BundleWriter.complete w c.params) c.now c.ulid = .error err →
        (w.append p c).1 = w := by
  obtain ⟨-, hsigner⟩ := s.writer_same
  refine ⟨fun hclean hlocatable => ?_, fun halone h => ?_, fun w c err h => ?_⟩
  · have hread := s.read hjson hclean hlocatable
    have hverify := verifyEntries_of_kept hjson (hsigner ▸ hkeys) s.kept hne
    rw [hsigner] at hverify
    refine ⟨(s.accepted_iff hjson hkeys rfl).mpr ⟨_, hread, hverify⟩, hread, fun hcompact => ?_,
      s.totals hjson hne⟩
    · rw [hread, List.map_congr_left (g := id), List.map_id]
      intro e he
      rw [EvidenceEntry.compacted, hcompact e he]
      rfl
  · by_contra hself
    have hread := h.decoded
    rw [readSegmentEntries, s.glob_eq_nil halone hself] at hread
    cases hread
  · rw [append_of_buildEntry_error h]

end RoundTrip

/-! ### A bundle of two entries

The texts, the digests and the signatures are those that the real libraries give for these values
and one key pair. The tables know no other values. -/

def octets (len n : Nat) : Bytes :=
  (List.range len).map fun i => UInt8.ofNat (n >>> (8 * (len - 1 - i)))

def text (pieces : List String) : Bytes := pieces.flatMap bytes

def firstHash : String :=
  "sha256:6be4bed28ff0681b997e7acda734783fcff2d0119fa19230c04ba1f61c51aacf"

def lastHash : String :=
  "sha256:6214af4a6a29570024e1e8c616d9656287201ce13bf90694cfdffe06f23eef3d"

def tester : Actor := ⟨"agent", "tester", "evidra-bench", "", "", ""⟩

def reportContent : HashableEntry where
  entryID := "e0"
  previousHash := ""
  type := ⟨"report"⟩
  tenantID := ""
  sessionID := "s"
  operationID := ""
  attempt := 0
  traceID := "t"
  spanID := ""
  parentSpanID := ""
  actor := tester
  timestamp := ⟨1767225600000000000, 0⟩
  intentDigest := ""
  artifactDigest := ""
  payload := some (bytes "\x7b\"exit_code\":0\x7d")
  scopeDimensions := ∅
  specVersion := "v1.1.0"
  canonVersion := "v1"
  adapterVersion := "a"
  scoringVersion := ""

def sessionEndContent : HashableEntry where
  entryID := "e1"
  previousHash := firstHash
  type := ⟨"session_end"⟩
  tenantID := ""
  sessionID := "s"
  operationID := ""
  attempt := 0
  traceID := "t"
  spanID := ""
  parentSpanID := ""
  actor := tester
  timestamp := ⟨1767225600000000000, 0⟩
  intentDigest := ""
  artifactDigest := ""
  payload := some (bytes "\x7b\"status\":\"completed\"\x7d")
  scopeDimensions := ∅
  specVersion := "v1.1.0"
  canonVersion := "v1"
  adapterVersion := "a"
  scoringVersion := ""

def reportEntry : EvidenceEntry where
  toHashableEntry := reportContent
  hash := firstHash
  signature :=
    "0csXfgKF8xFJ2zW8NB5ND7MWCVQZ825MHltorZjC0jJOKOOY8Rsn+EVvWc52SLUJwjZVNDvvm7naoMNwzRYbAw=="

def sessionEndEntry : EvidenceEntry where
  toHashableEntry := sessionEndContent
  hash := lastHash
  signature :=
    "yVewHPkLmrMbEcdvdXP5xndJpogrCsdKuIF3l7y+xfZ9nW3lExZxwTI99hZI5NA7tdOHKRCAw4LHfh/Y3fKWBg=="

def sampleSigner : EphemeralSigner where
  privateKey := octets 32 0x9d61b19deffd5a60ba844af492ec2cc44449c5697b326919703bac031cae7f60
  publicKey := octets 32 0xd75a980182b10ab7d54bfed3c964073a0ee172f3daa62325af021a68f707511a

def reportText : Bytes := text
  ["\x7b\"entry_id\":\"e0\",\"previous_hash\":\"\",", "\"type\":\"report\",\"session_id\":\"s\",",
    "\"trace_id\":\"t\",\"actor\":\x7b\"type\":\"agent\",", "\"id\":\"tester\",",
    "\"provenance\":\"evidra-bench\"\x7d,", "\"timestamp\":\"2026-01-01T00:00:00Z\",",
    "\"payload\":\x7b\"exit_code\":0\x7d,", "\"spec_version\":\"v1.1.0\",",
    "\"canonical_version\":\"v1\",", "\"adapter_version\":\"a\"\x7d"]

def sessionEndText : Bytes := text
  ["\x7b\"entry_id\":\"e1\",", "\"previous_hash\":\"sha256:6be4bed28ff0",
    "681b997e7acda734783fcff2d0119fa19230", "c04ba1f61c51aacf\",\"type\":\"session_end\",",
    "\"session_id\":\"s\",\"trace_id\":\"t\",",
    "\"actor\":\x7b\"type\":\"agent\",\"id\":\"tester\",", "\"provenance\":\"evidra-bench\"\x7d,",
    "\"timestamp\":\"2026-01-01T00:00:00Z\",", "\"payload\":\x7b\"status\":\"completed\"\x7d,",
    "\"spec_version\":\"v1.1.0\",", "\"canonical_version\":\"v1\",",
    "\"adapter_version\":\"a\"\x7d"]

def reportLine : Bytes := text
  ["\x7b\"entry_id\":\"e0\",\"previous_hash\":\"\",", "\"hash\":\"sha256:6be4bed28ff0681b997e7",
    "acda734783fcff2d0119fa19230c04ba1f61", "c51aacf\",",
    "\"signature\":\"0csXfgKF8xFJ2zW8NB5ND7M", "WCVQZ825MHltorZjC0jJOKOOY8Rsn+EVvWc5",
    "2SLUJwjZVNDvvm7naoMNwzRYbAw==\",", "\"type\":\"report\",\"session_id\":\"s\",",
    "\"trace_id\":\"t\",\"actor\":\x7b\"type\":\"agent\",", "\"id\":\"tester\",",
    "\"provenance\":\"evidra-bench\"\x7d,", "\"timestamp\":\"2026-01-01T00:00:00Z\",",
    "\"payload\":\x7b\"exit_code\":0\x7d,", "\"spec_version\":\"v1.1.0\",",
    "\"canonical_version\":\"v1\",", "\"adapter_version\":\"a\"\x7d"]

def sessionEndLine : Bytes := text
  ["\x7b\"entry_id\":\"e1\",", "\"previous_hash\":\"sha256:6be4bed28ff0",
    "681b997e7acda734783fcff2d0119fa19230", "c04ba1f61c51aacf\",",
    "\"hash\":\"sha256:6214af4a6a29570024e1e", "8c616d9656287201ce13bf90694cfdffe06f",
    "23eef3d\",", "\"signature\":\"yVewHPkLmrMbEcdvdXP5xnd",
    "JpogrCsdKuIF3l7y+xfZ9nW3lExZxwTI99hZ", "I5NA7tdOHKRCAw4LHfh/Y3fKWBg==\",",
    "\"type\":\"session_end\",\"session_id\":\"s\",",
    "\"trace_id\":\"t\",\"actor\":\x7b\"type\":\"agent\",", "\"id\":\"tester\",",
    "\"provenance\":\"evidra-bench\"\x7d,", "\"timestamp\":\"2026-01-01T00:00:00Z\",",
    "\"payload\":\x7b\"status\":\"completed\"\x7d,", "\"spec_version\":\"v1.1.0\",",
    "\"canonical_version\":\"v1\",", "\"adapter_version\":\"a\"\x7d"]

def sampleWriter (root : Path) : BundleWriter where
  root := root
  sessionID := "s"
  traceID := "t"
  adapter := "a"
  signer := sampleSigner
  semantics := ""
  created := "2026-01-01T00:00:00Z"

def sampleClosing : Closing := ⟨⟨"evidra-bench", "", ""⟩, "", "2026-01-01T00:00:01Z"⟩

def sampleStore : Bytes := text
  ["\x7b\n  \"format\": \"evidra-evidence-manif", "est-v0.1\",\n",
    "  \"created_at\": \"2026-01-01T00:00:00Z\",\n",
    "  \"updated_at\": \"2026-01-01T00:00:01Z\",\n", "  \"segments_dir\": \"segments\",\n",
    "  \"current_segment\": \"evidence-00000", "1.jsonl\",\n  \"sealed_segments\": [],\n",
    "  \"segment_max_bytes\": 5000000,\n", "  \"records_total\": 2,\n",
    "  \"last_hash\": \"sha256:6214af4a6a295", "70024e1e8c616d9656287201ce13bf90694c",
    "fdffe06f23eef3d\",\n  \"notes\": \"\"\n\x7d"]

def sampleBundle : Bytes := text
  ["\x7b\n  \"spec\": \"evidra-external-bundle/", "v1\",\n",
    "  \"producer\": \x7b\n    \"name\": \"evidra-", "bench\"\n  \x7d,\n",
    "  \"trust_level\": \"ephemeral\",\n", "  \"public_key\": \"11qYAYKxCrfVS/7TyWQ",
    "HOg7hcvPapiMlrwIaaPcHURo=\",\n", "  \"created_at\": \"2026-01-01T00:00:00Z\"\n\x7d"]

def trimNewlines (data : Bytes) : Bytes := (data.reverse.dropWhile (· = newline)).reverse

def sampleSign (message : Bytes) : Bytes :=
  if message = bytes firstHash then
    octets 32 0xd1cb177e0285f31149db35bc341e4d0fb316095419f36e4c1e5b68ad98c2d232 ++
    octets 32 0x4e28e398f11b27f8456f59ce7648b509c23655343bef9bb9daa0c370cd161b03
  else
    octets 32 0xc957b01cf90b9ab31b11c76f7573f9c67749a6882b0ac74ab8817797bcbec5f6 ++
    octets 32 0x7d9d6de5131671c1323df61648e4d03bb5d387291080c382c77e1fd8ddf29606

def sample : Platform where
  compact := id
  entries := .ofTable trimNewlines [(reportEntry, reportLine), (sessionEndEntry, sessionEndLine)]
  hashables :=
    .ofTable trimNewlines [(reportContent, reportText), (sessionEndContent, sessionEndText)]
  bundles := .ofTable trimNewlines [((sampleWriter []).bundle sampleClosing, sampleBundle)]
  stores :=
    .ofTable trimNewlines
      [(BundleWriter.store { sampleWriter [] with prev := lastHash, count := 2 } sampleClosing,
        sampleStore)]
  sha256 := fun data =>
    if data = reportText then
      octets 32 0x6be4bed28ff0681b997e7acda734783fcff2d0119fa19230c04ba1f61c51aacf
    else
      octets 32 0x6214af4a6a29570024e1e8c616d9656287201ce13bf90694cfdffe06f23eef3d
  sign := fun _ => sampleSign
  verify := fun _ message sig => sig = sampleSign message

theorem trimNewlines_append (data : Bytes) :
    trimNewlines (data ++ [newline]) = trimNewlines data := by
  simp [trimNewlines, newline]

theorem sample_jsonLaws : sample.JsonLaws where
  entries := Codec.ofTable_roundTrips (by decide +kernel) (by decide +kernel)
  hashables := Codec.ofTable_roundTrips (by decide +kernel) (by decide +kernel)
  bundles := Codec.ofTable_roundTrips (by decide +kernel) (by decide +kernel)
  stores := Codec.ofTable_roundTrips (by decide +kernel) (by decide +kernel)
  line := by
    intro e data h
    have hlines : ∀ line ∈ [reportLine, sessionEndLine],
        line ≠ [] ∧ newline ∉ line ∧ line.getLast? ≠ some carriage := by decide +kernel
    apply hlines
    simp only [sample, Codec.ofTable] at h
    split at h
    case h_2 => cases h
    case h_1 r hfind =>
      obtain rfl := Except.ok.inj h
      exact List.mem_map_of_mem (f := Prod.snd) (List.mem_of_find?_eq_some hfind)
  bundleEnd := by
    intro data
    simp only [sample, Codec.ofTable, trimNewlines_append]
  storeEnd := by
    intro data
    simp only [sample, Codec.ofTable, trimNewlines_append]

theorem sample_keyPair : KeyPair sample sampleSigner :=
  ⟨by decide +kernel, fun _ => decide_eq_true rfl⟩

def callOf (id type : String) (payload : Bytes) : Call where
  params := { entryID := id, type := ⟨type⟩, actor := tester, payload := some payload }
  now := 1767225600000000000
  ulid := "01"

def sampleCalls : List Call :=
  [callOf "e0" "report" (bytes "\x7b\"exit_code\":0\x7d"), callOf "e?" "nonsense" (bytes "0"),
    callOf "e1" "session_end" (bytes "\x7b\"status\":\"completed\"\x7d")]

/-- What the calls and `Close` leave on an empty disk. -/
def sampleClose (root : Path) : Except String Disk :=
  ((sampleWriter root).appendAll sample sampleCalls).1.close sample ∅ sampleClosing

def sampleSession (root : Path) (after : Disk) (h : sampleClose root = .ok after) :
    Session sample where
  before := ∅
  root := root
  sessionID := "s"
  traceID := "t"
  adapter := "a"
  signer := sampleSigner
  semantics := ""
  created := "2026-01-01T00:00:00Z"
  opened := sampleWriter root
  open_ok := by
    rw [newBundleWriter, show trimSpace "" = "" by decide +kernel]
    rfl
  calls := sampleCalls
  closing := sampleClosing
  after := after
  close_ok := h

theorem sampleCalls_clean : ∀ c ∈ sampleCalls, c.Clean := by
  intro c hc n err hfault
  simp only [sampleCalls, List.mem_cons, List.not_mem_nil, or_false] at hc
  rcases hc with rfl | rfl | rfl
  · cases hfault
  · cases hfault
  · cases hfault

theorem exists_sampleSession {root : Path}
    (h : (sampleClose root).toOption.isSome = true ∧
      ((sampleWriter root).appendAll sample sampleCalls).1.count = 2) :
    ∃ s : Session sample, s.before = ∅ ∧ s.root = root ∧ s.calls = sampleCalls ∧
      s.signer = sampleSigner ∧ s.appended.length = 2 := by
  obtain ⟨hsome, hcount⟩ := h
  rcases hclose : sampleClose root with err | after
  · rw [hclose] at hsome
    cases hsome
  · have hwriter : (sampleSession root after hclose).writer =
        ((sampleWriter root).appendAll sample sampleCalls).1 := rfl
    refine ⟨sampleSession root after hclose, rfl, rfl, rfl, rfl, ?_⟩
    rw [← (sampleSession root after hclose).kept.count_eq, hwriter, hcount]

theorem sample_bundle : (sampleClose ["bundle"]).toOption.isSome = true ∧
    ((sampleWriter ["bundle"]).appendAll sample sampleCalls).1.count = 2 := by decide +kernel

theorem locatable_bundle : Locatable ∅ ["bundle"] := by
  apply locatable_of_plain
  · simp [isMagic]
  · intro path hpath
    exact absurd hpath (AList.notMem_empty path)

/-- The round trip of two entries under the root `bundle`, with a failing call in between. -/
theorem round_trip_two : ∃ s : Session sample, s.root = ["bundle"] ∧
    RoundTrip sample s.after s.root s.appended := by
  obtain ⟨s, hbefore, hroot, hcalls, hsigner, hlen⟩ := exists_sampleSession sample_bundle
  have hne : s.appended ≠ [] := List.ne_nil_of_length_pos (by omega)
  have htrip := round_trip sample_jsonLaws s (hsigner ▸ sample_keyPair) hne
  refine ⟨s, hroot, htrip.1 (hcalls ▸ sampleCalls_clean) ?_⟩
  rw [hbefore, hroot]
  exact locatable_bundle

/-- **The root is used as a pattern.** Two entries are written under the root `run[1]` on an empty
disk and the bundle is closed; the verifier looks for segments below a directory `run1`, finds none
and rejects the bundle.
Source: `pkg/evidrawire/verify.go` `readSegmentEntries` -/
theorem rejects_its_own_root : sample.JsonLaws ∧ ∃ s : Session sample, KeyPair sample s.signer ∧
    s.before = ∅ ∧ s.root = ["run[1]"] ∧ s.appended ≠ [] ∧ (∀ c ∈ s.calls, c.Clean) ∧
      ∀ m, verifyBundle sample s.after s.root ≠ .ok m := by
  obtain ⟨s, hbefore, hroot, hcalls, hsigner, hlen⟩ :=
    @exists_sampleSession ["run[1]"] (by decide +kernel)
  have hne : s.appended ≠ [] := List.ne_nil_of_length_pos (by omega)
  have hkeys : KeyPair sample s.signer := hsigner ▸ sample_keyPair
  refine ⟨sample_jsonLaws, s, hkeys, hbefore, hroot, hne, hcalls ▸ sampleCalls_clean, ?_⟩
  have hglob : glob s.after (segmentPattern s.root) = [] := by
    refine s.glob_eq_nil (fun path hpath => ?_) ?_
    · rw [hbefore] at hpath
      exact absurd hpath (AList.notMem_empty path)
    · rw [hroot]
      decide +kernel
  intro m hm
  obtain ⟨entries, hread, -⟩ := (s.accepted_iff sample_jsonLaws hkeys rfl).mp ⟨m, hm⟩
  rw [readSegmentEntries, hglob] at hread
  cases hread

end EvidraBench.Evidrawire
