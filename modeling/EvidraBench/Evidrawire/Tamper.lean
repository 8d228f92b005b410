import EvidraBench.Evidrawire.RoundTrip

/-!
# What a replaced segment can get past the verifier

Someone replaces the segment of a closed bundle; the two manifests stay. SHA-256 has no collision
among the entries at hand, and no signature in the replacement was made without the key.

Results: `prefix_of_accepted`, `truncated_accepted`, `tamper_evident_iff`.

Source: `pkg/evidrawire/verify.go`
-/

namespace EvidraBench.Evidrawire

open EvidraBench.Gostd EvidraBench.Lib

section Contents

variable {p : Platform}

def EvidenceEntry.content (p : Platform) (e : EvidenceEntry) : HashableEntry :=
  e.toHashableEntry.compacted p

/-- An entry, signature aside; the payload is taken as a JSON value, that is, in its compact form.
-/
def EvidenceEntry.unsigned (p : Platform) (e : EvidenceEntry) : EvidenceEntry :=
  { e.compacted p with signature := "" }

def digestOf (p : Platform) (h : HashableEntry) : String := (computeHash p h).toOption.getD ""

/-- Entries with the same hash were hashed from the same text: SHA-256 has no collision among
them. -/
def CollisionFree (p : Platform) (entries : List EvidenceEntry) : Prop :=
  ∀ a ∈ entries, ∀ b ∈ entries, ∀ data data', p.hashables.marshal a.toHashableEntry = .ok data →
    p.hashables.marshal b.toHashableEntry = .ok data' → p.sha256 data = p.sha256 data' →
    data = data'

theorem digestOf_content (hjson : p.JsonLaws) {e : EvidenceEntry}
    (h : computeEntryHash p e = .ok e.hash) : digestOf p (e.content p) = e.hash := by
  have hcompact : computeHash p (e.content p) = .ok e.hash := computeEntryHash_compacted hjson h
  rw [digestOf, hcompact]
  rfl

theorem unsigned_eq (hjson : p.JsonLaws) {e : EvidenceEntry}
    (h : computeEntryHash p e = .ok e.hash) :
    e.unsigned p = ⟨e.content p, digestOf p (e.content p), ""⟩ := by
  rw [digestOf_content hjson h]
  rfl

theorem content_eq_of_hash_eq (hjson : p.JsonLaws) {entries : List EvidenceEntry}
    (hfree : CollisionFree p entries) {a b : EvidenceEntry} (ha : a ∈ entries) (hb : b ∈ entries)
    (hhasha : computeEntryHash p a = .ok a.hash) (hhashb : computeEntryHash p b = .ok b.hash)
    (heq : a.hash = b.hash) : a.content p = b.content p := by
  obtain ⟨data, hdata, htext⟩ := computeHash_eq_ok.mp hhasha
  obtain ⟨data', hdata', htext'⟩ := computeHash_eq_ok.mp hhashb
  have hhex : hexEncode (p.sha256 data) = hexEncode (p.sha256 data') := by
    have h := htext.symm.trans (heq.trans htext')
    have hchars := congrArg String.toList h
    rw [String.toList_append, String.toList_append] at hchars
    exact String.toList_inj.mp (List.append_cancel_left hchars)
  obtain rfl := hfree a ha b hb data data' hdata hdata' (hexEncode_injective hhex)
  exact hjson.hashables.normal_eq hdata hdata'

theorem linked_contents (hjson : p.JsonLaws) {entries : List EvidenceEntry}
    (hchain : Chained "" entries) (hhash : ∀ e ∈ entries, computeEntryHash p e = .ok e.hash) :
    Linked HashableEntry.previousHash (digestOf p) "" (entries.map (EvidenceEntry.content p)) := by
  apply linked_map.mpr
  exact hchain.congr (fun _ _ => rfl) fun e he => digestOf_content hjson (hhash e he)

/-- **Two chains, one made of the other's hashes.** Entries that are chained and hashed, and whose
hashes are all among those of a chain without collisions, are a prefix of it, signatures aside. -/
theorem prefix_of_chained (hjson : p.JsonLaws) {written entries : List EvidenceEntry}
    (hfree : CollisionFree p (written ++ entries)) (hwritten : Chained "" written)
    (hwrittenHash : ∀ e ∈ written, computeEntryHash p e = .ok e.hash)
    (hentries : Chained "" entries)
    (hentriesHash : ∀ e ∈ entries, computeEntryHash p e = .ok e.hash)
    (hknown : ∀ e ∈ entries, ∃ e' ∈ written, e'.hash = e.hash) :
    entries.map (EvidenceEntry.unsigned p) <+: written.map (EvidenceEntry.unsigned p) := by
  have hprefix : entries.map (EvidenceEntry.content p) <+:
      written.map (EvidenceEntry.content p) := by
    apply prefix_of_linked (linked_contents hjson hwritten hwrittenHash)
      (linked_contents hjson hentries hentriesHash)
    · intro x hx
      obtain ⟨e, he, rfl⟩ := List.mem_map.mp hx
      rw [digestOf_content hjson (hwrittenHash e he)]
      exact hash_ne_empty (hwrittenHash e he)
    · intro x hx y hy heq
      obtain ⟨a, ha, rfl⟩ := List.mem_map.mp hx
      obtain ⟨b, hb, rfl⟩ := List.mem_map.mp hy
      rw [digestOf_content hjson (hwrittenHash a ha), digestOf_content hjson (hwrittenHash b hb)]
        at heq
      exact content_eq_of_hash_eq hjson hfree (List.mem_append_left _ ha)
        (List.mem_append_left _ hb) (hwrittenHash a ha) (hwrittenHash b hb) heq
    · intro y hy
      obtain ⟨e, he, rfl⟩ := List.mem_map.mp hy
      obtain ⟨e', he', heq⟩ := hknown e he
      rw [content_eq_of_hash_eq hjson hfree (List.mem_append_right _ he)
        (List.mem_append_left _ he') (hentriesHash e he) (hwrittenHash e' he') heq.symm]
      exact List.mem_map_of_mem he'
  have hunsigned : ∀ es : List EvidenceEntry, (∀ e ∈ es, computeEntryHash p e = .ok e.hash) →
      es.map (EvidenceEntry.unsigned p) =
        (es.map (EvidenceEntry.content p)).map fun h => ⟨h, digestOf p h, ""⟩ := by
    intro es hes
    rw [List.map_map]
    exact List.map_congr_left fun e he => unsigned_eq hjson (hes e he)
  rw [hunsigned entries hentriesHash, hunsigned written hwrittenHash]
  exact hprefix.map _

/-- **The last hash commits to a bundle.** Two sequences of entries that the verifier accepts, under
any keys, are the same, signatures aside, if their last entries have the same hash.
Source: `verifyEntries` -/
theorem last_hash_commits (hjson : p.JsonLaws) {es es' : List EvidenceEntry} {pub pub' : Bytes}
    (hfree : CollisionFree p (es ++ es')) (h : verifyEntries p es pub = .ok ())
    (h' : verifyEntries p es' pub' = .ok ())
    (hlast : es.getLast?.map EvidenceEntry.hash = es'.getLast?.map EvidenceEntry.hash) :
    es.map (EvidenceEntry.unsigned p) = es'.map (EvidenceEntry.unsigned p) := by
  obtain ⟨hne, hchain, hsigned⟩ := verifyEntries_eq_ok.mp h
  obtain ⟨hne', hchain', hsigned'⟩ := verifyEntries_eq_ok.mp h'
  apply map_eq_of_tip_eq hchain hchain'
  · rintro e (he | he)
    · exact hash_ne_empty (hsigned e he).hash_eq
    · exact hash_ne_empty (hsigned' e he).hash_eq
  · intro a ha b hb heq
    have hhash := (hsigned a ha).hash_eq
    have hhash' := (hsigned' b hb).hash_eq
    have hcontent := content_eq_of_hash_eq hjson hfree (List.mem_append_left _ ha)
      (List.mem_append_right _ hb) hhash hhash' heq
    have hprev : (a.content p).previousHash = (b.content p).previousHash := by rw [hcontent]
    refine ⟨hprev, ?_⟩
    rw [unsigned_eq hjson hhash, unsigned_eq hjson hhash', hcontent]
  · rw [getLast?_map_eq_tip hne "", getLast?_map_eq_tip hne' ""] at hlast
    exact Option.some.inj hlast

end Contents

section Tamper

variable {p : Platform}

def Session.tampered (s : Session p) (segment : Bytes) : Disk :=
  s.after.insert (segmentPath s.root) segment

/-- No signature was made without the key: one that verifies is of a hash that was signed and
written. -/
def Session.Unforged (s : Session p) (entries : List EvidenceEntry) : Prop :=
  ∀ e ∈ entries, ∀ sig, base64Decode e.signature = some sig →
    p.verify s.signer.publicKey (bytes e.hash) sig = true → ∃ e' ∈ s.appended, e'.hash = e.hash

/-- A replacement that the verifier accepts, with the entries it is read as. -/
structure Session.Passes (s : Session p) (segment : Bytes) (entries : List EvidenceEntry) :
    Prop where
  accepted : ∃ m, verifyBundle p (s.tampered segment) s.root = .ok m
  decoded : readSegmentEntries p (s.tampered segment) s.root = .ok entries
  collisionFree : CollisionFree p (s.appended ++ entries)
  unforged : s.Unforged entries

theorem Session.lookup_tampered (s : Session p) (segment : Bytes) :
    (s.tampered segment).lookup (bundleManifestPath s.root) =
      s.after.lookup (bundleManifestPath s.root) :=
  AList.lookup_insert_ne (segmentPath_ne _ _).symm

theorem Session.Passes.verified {s : Session p} {segment : Bytes} {entries : List EvidenceEntry}
    (h : s.Passes segment entries) (hjson : p.JsonLaws) (hkeys : KeyPair p s.signer) :
    entries ≠ [] ∧ Chained "" entries ∧ ∀ e ∈ entries, e.Signed p s.signer.publicKey := by
  obtain ⟨entries', hread, hverify⟩ :=
    (s.accepted_iff hjson hkeys (s.lookup_tampered segment)).mp h.accepted
  obtain rfl := Except.ok.inj (h.decoded.symm.trans hread)
  exact verifyEntries_eq_ok.mp hverify

/-- **What is accepted is a prefix of what was written.** -/
theorem prefix_of_accepted {s : Session p} {segment : Bytes} {entries : List EvidenceEntry}
    (hjson : p.JsonLaws) (hkeys : KeyPair p s.signer) (h : s.Passes segment entries) :
    entries ≠ [] ∧
      entries.map (EvidenceEntry.unsigned p) <+: s.appended.map (EvidenceEntry.unsigned p) := by
  obtain ⟨hne, hchain, hsigned⟩ := h.verified hjson hkeys
  refine ⟨hne, prefix_of_chained hjson h.collisionFree s.kept.chained
    (fun e he => (s.kept.written e he).hash_eq) hchain (fun e he => (hsigned e he).hash_eq) ?_⟩
  intro e he
  obtain ⟨sig, hsig, hverified⟩ := (hsigned e he).verified
  exact h.unforged e he sig hsig hverified

theorem Session.frame_le (s : Session p) :
    (frame newline (s.appended.map (lineOf p))).length ≤ s.writer.segment.length := by
  refine @appendAll_induction p
    (fun w es => (frame newline (es.map (lineOf p))).length ≤ w.segment.length) s.calls ?_
    s.opened [] (Nat.zero_le _)
  intro w w' c _ es r h hstep
  cases hstep with
  | @failed torn _ err _ =>
      show (frame newline ((es ++ successes [Except.error err]).map (lineOf p))).length ≤
        (w.segment ++ torn).length
      rw [show successes [Except.error err] = [] from rfl, List.append_nil, List.length_append]
      omega
  | @written e _ _ =>
      show (frame newline ((es ++ [e]).map (lineOf p))).length ≤
        (w.segment ++ (lineOf p e ++ [newline])).length
      rw [List.map_append, List.map_singleton, frame_append]
      simp only [List.length_append]
      omega

theorem CollisionFree.of_compacted (hjson : p.JsonLaws) {written front : List EvidenceEntry}
    (hfree : CollisionFree p written) (hfront : ∀ e ∈ front, e ∈ written)
    (hhash : ∀ e ∈ written, computeEntryHash p e = .ok e.hash) :
    CollisionFree p (written ++ front.map (EvidenceEntry.compacted p)) := by
  have horigin : ∀ x ∈ written ++ front.map (EvidenceEntry.compacted p), ∃ a ∈ written,
      ∀ data, p.hashables.marshal x.toHashableEntry = .ok data →
        p.hashables.marshal a.toHashableEntry = .ok data := by
    intro x hx
    rcases List.mem_append.mp hx with hx | hx
    · exact ⟨x, hx, fun _ h => h⟩
    · obtain ⟨e, he, rfl⟩ := List.mem_map.mp hx
      refine ⟨e, hfront e he, fun data hdata => ?_⟩
      obtain ⟨data', hdata', -⟩ := computeHash_eq_ok.mp (hhash e (hfront e he))
      rw [hdata', ← Except.ok.inj ((hjson.hashables.stable hdata').symm.trans hdata)]
  intro a ha b hb data data' hdata hdata' hsha
  obtain ⟨a', ha', hfrom⟩ := horigin a ha
  obtain ⟨b', hb', hfrom'⟩ := horigin b hb
  exact hfree a' ha' b' hb' data data' (hfrom data hdata) (hfrom' data' hdata') hsha

/-- **Every non-empty prefix is accepted.** The entries after it were cut off with their lines. -/
theorem truncated_accepted {s : Session p} {front : List EvidenceEntry} (hjson : p.JsonLaws)
    (hkeys : KeyPair p s.signer) (hfree : CollisionFree p s.appended)
    (hlocatable : Locatable s.before s.root) (hne : front ≠ []) (hfront : front <+: s.appended) :
    s.Passes (frame newline (front.map (lineOf p))) (front.map (EvidenceEntry.compacted p)) := by
  obtain ⟨hroot, hsigner⟩ := s.writer_same
  have hmem : ∀ e ∈ front, e ∈ s.appended := fun e he => hfront.subset he
  have hsegment : segmentPath s.root ∈ s.after := by
    have h := s.closed.segment
    rw [hroot] at h
    exact AList.lookup_isSome.mp (by rw [h]; rfl)
  have hread : readSegmentEntries p (s.tampered (frame newline (front.map (lineOf p)))) s.root =
      .ok (front.map (EvidenceEntry.compacted p)) := by
    have hglob : glob (s.tampered (frame newline (front.map (lineOf p)))) (segmentPattern s.root) =
        [segmentPath s.root] := by
      refine s.glob_eq hlocatable (fun path hpath => ?_) ((AList.mem_insert _).mpr (.inl rfl))
      rcases (AList.mem_insert _).mp hpath with rfl | hpath
      · exact hsegment
      · exact hpath
    rw [readSegmentEntries, hglob]
    dsimp only
    rw [Session.tampered, AList.lookup_insert, Option.getD_some]
    refine readLines_frame hjson (fun e he => (s.kept.written e (hmem e he)).line_eq) ?_
    have hle : (frame newline (front.map (lineOf p))).length ≤
        (frame newline (s.appended.map (lineOf p))).length := by
      obtain ⟨rest, hrest⟩ := hfront
      rw [← hrest, List.map_append, frame, frame, List.flatMap_append, List.length_append]
      omega
    calc (frame newline (front.map (lineOf p))).length
        ≤ s.writer.segment.length := hle.trans s.frame_le
      _ ≤ defaultSegmentMaxBytes := s.closed.small
      _ < maxTokenSize := by decide
  -- the prefix of the chain is what a writer had that stopped there
  have hkept : Kept p
      { s.writer with prev := tip EvidenceEntry.hash "" front, count := front.length } front :=
    ⟨s.kept.chained.of_prefix hfront, rfl, rfl, fun e he => s.kept.written e (hmem e he)⟩
  have hverify := verifyEntries_of_kept hjson (hsigner ▸ hkeys) hkept hne
  constructor
  case accepted =>
    refine (s.accepted_iff hjson hkeys (s.lookup_tampered _)).mpr ⟨_, hread, ?_⟩
    rw [← hsigner]
    exact hverify
  case decoded => exact hread
  case collisionFree =>
    exact hfree.of_compacted hjson hmem fun e he => (s.kept.written e he).hash_eq
  case unforged =>
    intro e he _ _ _
    obtain ⟨e', he', rfl⟩ := List.mem_map.mp he
    exact ⟨e', hmem e' he', rfl⟩

/-- **When tampering shows.** A replacement that is accepted has the written entries, signatures
aside, exactly when it has no fewer of them; and all that are accepted do exactly when the bundle
has one entry, because otherwise the last one can be cut off.
Source: `VerifyBundle` -/
theorem tamper_evident_iff (hjson : p.JsonLaws) (s : Session p) (hkeys : KeyPair p s.signer)
    (hne : s.appended ≠ []) (hfree : CollisionFree p s.appended)
    (hlocatable : Locatable s.before s.root) :
    (∀ segment entries, s.Passes segment entries →
      (entries.map (EvidenceEntry.unsigned p) = s.appended.map (EvidenceEntry.unsigned p) ↔
        s.appended.length ≤ entries.length)) ∧
    ((∀ segment entries, s.Passes segment entries →
        entries.map (EvidenceEntry.unsigned p) = s.appended.map (EvidenceEntry.unsigned p)) ↔
      s.appended.length = 1) := by
  have hexact : ∀ segment entries, s.Passes segment entries →
      (entries.map (EvidenceEntry.unsigned p) = s.appended.map (EvidenceEntry.unsigned p) ↔
        s.appended.length ≤ entries.length) := by
    intro segment entries h
    obtain ⟨-, hprefix⟩ := prefix_of_accepted hjson hkeys h
    constructor
    · intro heq
      have hlen := congrArg List.length heq
      rw [List.length_map, List.length_map] at hlen
      omega
    · intro hlen
      apply hprefix.eq_of_length_le
      rwa [List.length_map, List.length_map]
  refine ⟨hexact, ?_, ?_⟩
  · intro hall
    by_contra hlen
    have hpos := List.length_pos_of_ne_nil hne
    have hdrop : s.appended.dropLast ≠ [] := by
      apply List.ne_nil_of_length_pos
      rw [List.length_dropLast]
      omega
    have hpass := truncated_accepted hjson hkeys hfree hlocatable hdrop (List.dropLast_prefix _)
    have hle := (hexact _ _ hpass).mp (hall _ _ hpass)
    rw [List.length_map, List.length_dropLast] at hle
    omega
  · intro hlen segment entries h
    obtain ⟨hentries, -⟩ := prefix_of_accepted hjson hkeys h
    apply (hexact segment entries h).mpr
    have hpos := List.length_pos_of_ne_nil hentries
    omega

end Tamper

theorem sample_collisionFree (entries : List EvidenceEntry) : CollisionFree sample entries := by
  have htexts : ∀ a ∈ [reportText, sessionEndText], ∀ b ∈ [reportText, sessionEndText],
      sample.sha256 a = sample.sha256 b → a = b := by decide +kernel
  have hmem : ∀ {h : HashableEntry} {data : Bytes}, sample.hashables.marshal h = .ok data →
      data ∈ [reportText, sessionEndText] := by
    intro h data hdata
    simp only [sample, Codec.ofTable] at hdata
    split at hdata
    case h_2 => cases hdata
    case h_1 r hfind =>
      obtain rfl := Except.ok.inj hdata
      exact List.mem_map_of_mem (f := Prod.snd) (List.mem_of_find?_eq_some hfind)
  intro a _ b _ data data' hdata hdata' hsha
  exact htexts data (hmem hdata) data' (hmem hdata') hsha

/-- A bundle of two entries, for which tampering need not show. -/
theorem tamper_evident_two : ∃ s : Session sample, s.appended.length = 2 ∧
    ¬∀ segment entries, s.Passes segment entries →
      entries.map (EvidenceEntry.unsigned sample) =
        s.appended.map (EvidenceEntry.unsigned sample) := by
  obtain ⟨s, hbefore, hroot, -, hsigner, hlen⟩ := exists_sampleSession sample_bundle
  have hne : s.appended ≠ [] := List.ne_nil_of_length_pos (by omega)
  have hlocatable : Locatable s.before s.root := by
    rw [hbefore, hroot]
    exact locatable_bundle
  have hiff := (tamper_evident_iff sample_jsonLaws s (hsigner ▸ sample_keyPair) hne
    (sample_collisionFree _) hlocatable).2
  refine ⟨s, hlen, fun hall => ?_⟩
  have hone := hiff.mp hall
  omega

theorem last_hash_commits_two : ∃ s : Session sample, s.appended.length = 2 ∧
    ∀ es pub, verifyEntries sample es pub = .ok () →
      es.getLast?.map EvidenceEntry.hash = s.appended.getLast?.map EvidenceEntry.hash →
      es.length = 2 := by
  obtain ⟨s, -, -, -, hsigner, hlen⟩ := exists_sampleSession sample_bundle
  have hverify := verifyEntries_of_kept sample_jsonLaws
    (s.writer_same.2 ▸ hsigner ▸ sample_keyPair) s.kept (List.ne_nil_of_length_pos (by omega))
  refine ⟨s, hlen, fun es pub h hlast => ?_⟩
  have heq := congrArg List.length (last_hash_commits sample_jsonLaws (sample_collisionFree _) h
    hverify (by simpa [EvidenceEntry.compacted, Function.comp_def] using hlast))
  simpa [hlen] using heq

/-- **The last entry can be deleted.** Two entries are written and the bundle is closed; the segment
is replaced by the line of the first. The verifier accepts the bundle, and reads one entry.
Source: `VerifyBundle` -/
theorem last_entry_deleted : sample.JsonLaws ∧ ∃ s : Session sample, KeyPair sample s.signer ∧
    s.appended.length = 2 ∧ ∃ segment entries, s.Passes segment entries ∧ entries.length = 1 := by
  obtain ⟨s, hbefore, hroot, -, hsigner, hlen⟩ := exists_sampleSession sample_bundle
  have hlocatable : Locatable s.before s.root := by
    rw [hbefore, hroot]
    exact locatable_bundle
  have hone : (s.appended.take 1).length = 1 := by
    rw [List.length_take]
    omega
  have hkeys : KeyPair sample s.signer := hsigner ▸ sample_keyPair
  have hpass := truncated_accepted sample_jsonLaws hkeys (sample_collisionFree _) hlocatable
    (List.ne_nil_of_length_pos (by omega)) (List.take_prefix 1 s.appended)
  refine ⟨sample_jsonLaws, s, hkeys, hlen, _, _, hpass, ?_⟩
  rw [List.length_map, hone]

end EvidraBench.Evidrawire
