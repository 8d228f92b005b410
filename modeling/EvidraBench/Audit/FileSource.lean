import EvidraBench.Audit.Collect

/-!
# The chain reader and log rotation

`pkg/audit/collector.go` `FileSource`. The reader returns the base file followed by its rotated
siblings in name order, and `Collect` accepts a re-read of a node only when it extends the previous
one. An append to the base file goes in front of the siblings, so the two fit together only as long
as every append meets empty siblings and every rotation puts its file in front of them.

Results: `merged_apply`, `rotation_tolerated`, `rotation_then_append_incomplete`.
-/

namespace EvidraBench.Audit

open EvidraBench.Gostd EvidraBench.Lib

/-! ### The reader -/

inductive FileState where
  | missing
  | unreadable (text : String)
  | content (data : Bytes)
deriving DecidableEq, Repr

/-- The bytes a file adds to a chain; a file that cannot be read is skipped. -/
def FileState.bytes : FileState → Bytes
  | .content data => data
  | _ => []

/-- The files of a source: the base file and the siblings `<path>.<suffix>` the glob finds, by
suffix. The path itself has no glob metacharacter, so the glob finds exactly these. -/
structure Files where
  base : FileState
  siblings : List (String × FileState)
deriving DecidableEq, Repr

/-- The base file, then the siblings by name. Siblings share the path, so their names compare as
their suffixes do.
Source: `FileSource.Read` -/
def Files.read (files : Files) : Except ReadError Bytes :=
  let chain := (files.siblings.insertionSort (·.1 ≤ ·.1)).flatMap fun s => s.2.bytes
  match files.base with
  | .unreadable text => .error ⟨false, text⟩
  | base => .ok (base.bytes ++ chain)

/-! ### Append-only logs -/

/-- An append-only log: the base file being written and the siblings it was rotated to. -/
structure Log where
  base : Bytes
  siblings : List (String × Bytes)
  /-- No two siblings share a name. -/
  names_nodup : (siblings.map Prod.fst).Nodup

inductive LogEvent where
  /-- Lines are appended to the base file. -/
  | append (lines : Bytes)
  /-- The base file is renamed to a new sibling and a fresh base is started. -/
  | rotate (suffix : String)
deriving DecidableEq, Repr

namespace Log

/-- One event of a log. A rotation takes a new name; with a taken one nothing happens. -/
def apply (log : Log) : LogEvent → Log
  | .append lines => { log with base := log.base ++ lines }
  | .rotate suffix =>
      if h : suffix ∈ log.siblings.map Prod.fst then log
      else ⟨[], (suffix, log.base) :: log.siblings, List.nodup_cons.mpr ⟨h, log.names_nodup⟩⟩

def files (log : Log) : Files :=
  ⟨.content log.base, log.siblings.map fun s => (s.1, .content s.2)⟩

def chain (log : Log) : Bytes :=
  (log.siblings.insertionSort (·.1 ≤ ·.1)).flatMap Prod.snd

def merged (log : Log) : Bytes := log.base ++ log.chain

theorem read_files (log : Log) : log.files.read = .ok log.merged := by
  have hsort := List.map_insertionSort (fun s t : String × Bytes => s.1 ≤ t.1)
    (fun s t : String × FileState => s.1 ≤ t.1) (fun s => (s.1, .content s.2)) log.siblings
    (fun _ _ _ _ => Iff.rfl)
  simp only [Files.read, files, ← hsort, List.flatMap_map]
  rfl

/-- The events that extend the merged stream whatever the log holds: an append with nothing behind
the base file, and a rotation to the front of the chain. -/
def Harmless (log : Log) : LogEvent → Prop
  | .append lines => lines = [] ∨ ∀ s ∈ log.siblings, s.2 = []
  | .rotate suffix => log.base = [] ∨ ∀ s ∈ log.siblings, s.2 = [] ∨ suffix ≤ s.1

/-- A run of harmless events, each judged in the log it meets. -/
def HarmlessRun : Log → List LogEvent → Prop
  | _, [] => True
  | log, e :: es => log.Harmless e ∧ HarmlessRun (log.apply e) es

theorem merged_apply {log : Log} {e : LogEvent} (h : log.Harmless e) :
    log.merged <+: (log.apply e).merged := by
  rcases e with lines | suffix
  · rcases h with rfl | h
    · simp [apply, merged, chain]
    · have hchain : log.chain = [] := by
        refine List.flatMap_eq_nil_iff.mpr fun s hs => h s ?_
        exact (List.mem_insertionSort _).mp hs
      simp only [merged, hchain, List.append_nil]
      have hchain' : (log.apply (.append lines)).chain = [] := hchain
      rw [hchain', List.append_nil]
      exact List.prefix_append _ _
  · by_cases hmem : suffix ∈ log.siblings.map Prod.fst
    · rw [apply, dif_pos hmem]
    · -- the rotated file moves from the base to the front of the chain
      have hfront : (log.siblings.insertionSort (·.1 ≤ ·.1) |>.orderedInsert (·.1 ≤ ·.1)
          (suffix, log.base)).flatMap Prod.snd = log.merged := by
        refine flatMap_orderedInsert (h.imp_right fun h s hs => h s ?_)
        exact (List.mem_insertionSort _).mp hs
      rw [apply, dif_neg hmem, ← hfront]
      exact List.prefix_rfl

theorem harmlessRun_append {es es' : List LogEvent} : ∀ {log : Log},
    log.HarmlessRun (es ++ es') ↔ log.HarmlessRun es ∧ (es.foldl apply log).HarmlessRun es' := by
  induction es with
  | nil => exact fun {log} => by simp [HarmlessRun]
  | cons e es ih => exact fun {log} => by simp [HarmlessRun, ih, and_assoc]

theorem merged_foldl {es : List LogEvent} : ∀ {log : Log}, log.HarmlessRun es →
    log.merged <+: (es.foldl apply log).merged := by
  induction es with
  | nil => exact fun _ => List.prefix_rfl
  | cons e es ih => exact fun h => (merged_apply h.1).trans (ih h.2)

end Log

/-! ### Collecting from logs -/

/-- What happens up to a poll: the events of each node's log since the last poll, and whether the
deadline has passed after the poll. -/
structure Round where
  events : String → List LogEvent
  expired : Bool

/-- A poll of sources that read the logs of their nodes. -/
def pollOf (req : CollectRequest) (logs : String → Log) (expired : Bool) : Poll where
  read i :=
    match req.sources[i]? with
    | some node => (logs node).files.read
    | none => .ok []
  expired := expired

def Round.after (r : Round) (logs : String → Log) : String → Log :=
  fun node => (r.events node).foldl Log.apply (logs node)

/-- The polls of a run: events happen, then the sources are read. -/
def logPolls (req : CollectRequest) : (String → Log) → List Round → List Poll
  | _, [] => []
  | logs, r :: rest =>
      pollOf req (r.after logs) r.expired :: logPolls req (r.after logs) rest

section logPolls

variable {req : CollectRequest} {logs : String → Log} {node : String}

theorem pollReads_pollOf (expired : Bool) :
    pollReads req (pollOf req logs expired) =
      req.sources.map fun node => ⟨node, .ok (logs node).merged⟩ := by
  refine List.ext_getElem? fun i => ?_
  rcases hnode : req.sources[i]? with _ | node <;>
    simp [pollReads, pollOf, hnode, Log.read_files]

theorem eq_merged_of_mem_readsOf {expired : Bool} {data : Bytes}
    (h : data ∈ readsOf node (pollReads req (pollOf req logs expired))) :
    data = (logs node).merged := by
  rw [pollReads_pollOf] at h
  obtain ⟨x, hx, hdata⟩ := List.mem_filterMap.mp h
  obtain ⟨hx, hnode⟩ := List.mem_filter.mp hx
  obtain ⟨source, -, rfl⟩ := List.mem_map.mp hx
  obtain rfl : source = node := by simpa using hnode
  exact (Option.some.inj hdata).symm

theorem ok_of_mem_readings {rounds : List Round} : ∀ {logs : String → Log},
    ∀ x ∈ readings req (logPolls req logs rounds), ∃ data, x.outcome = .ok data := by
  induction rounds with
  | nil => simp [logPolls, readings]
  | cons r rounds ih =>
      intro logs x hx
      rw [logPolls, readings, List.flatMap_cons, List.mem_append, pollReads_pollOf] at hx
      rcases hx with hx | hx
      · obtain ⟨source, -, rfl⟩ := List.mem_map.mp hx
        exact ⟨_, rfl⟩
      · exact ih x hx

theorem readsOf_readings (polls : List Poll) :
    readsOf node (readings req polls) = polls.flatMap fun p => readsOf node (pollReads req p) := by
  simp [readsOf, readings, List.filter_flatMap, List.filterMap_flatMap]

theorem readsOf_eq_nil (hnode : node ∉ req.sources) (polls : List Poll) :
    readsOf node (readings req polls) = [] := by
  rw [readsOf_readings, List.flatMap_eq_nil_iff]
  intro p _
  rw [readsOf, List.filter_eq_nil_iff.mpr, List.filterMap_nil]
  intro x hx
  obtain ⟨source, hsource, rfl⟩ := List.mem_map.mp hx
  have hmem : source.1 ∈ req.sources := List.fst_mem_of_mem_zipIdx hsource
  simpa using fun heq : source.1 = node => hnode (heq ▸ hmem)

/-- In a run of harmless events every read extends the log the run started from, and every read
extends the reads before it. -/
theorem reads_grow {rounds : List Round} : ∀ {logs : String → Log},
    (logs node).HarmlessRun (rounds.flatMap (·.events node)) →
      (∀ data ∈ readsOf node (readings req (logPolls req logs rounds)),
        (logs node).merged <+: data) ∧
      (readsOf node (readings req (logPolls req logs rounds))).Pairwise (· <+: ·) := by
  induction rounds with
  | nil => simp [logPolls, readings, readsOf]
  | cons r rounds ih =>
      intro logs h
      obtain ⟨hround, hrest⟩ := Log.harmlessRun_append.mp h
      obtain ⟨hle, hpairs⟩ := @ih (r.after logs) hrest
      rw [logPolls, readsOf_readings, List.flatMap_cons, ← readsOf_readings]
      have hfirst : ∀ data ∈ readsOf node (pollReads req (pollOf req (r.after logs) r.expired)),
          data = (r.after logs node).merged := fun _ => eq_merged_of_mem_readsOf
      have hround : (logs node).merged <+: (r.after logs node).merged := Log.merged_foldl hround
      constructor
      · intro data hdata
        rcases List.mem_append.mp hdata with hdata | hdata
        · exact hfirst data hdata ▸ hround
        · exact hround.trans (hle data hdata)
      · refine List.pairwise_append.mpr ⟨?_, hpairs, fun x hx y hy => hfirst x hx ▸ hle y hy⟩
        exact List.pairwise_of_forall_mem_list fun x hx y hy => by rw [hfirst x hx, hfirst y hy]

end logPolls

theorem readings_initial {req : CollectRequest} {done polls : List Poll} (h : done <+: polls) :
    readings req done <+: readings req polls := by
  obtain ⟨rest, rfl⟩ := h
  rw [readings, readings, List.flatMap_append]
  exact List.prefix_append _ _

section rotation

variable {req : CollectRequest} {logs : String → Log} {rounds : List Round}
  (hrun : ∀ node ∈ req.sources, (logs node).HarmlessRun (rounds.flatMap (·.events node)))

include hrun in
theorem isChain_reads {done : List Poll} (h : done <+: logPolls req logs rounds) (node : String) :
    (readsOf node (readings req done)).IsChain (· <+: ·) := by
  by_cases hnode : node ∈ req.sources
  · have hpairs := (@reads_grow req node rounds logs (hrun node hnode)).2
    obtain ⟨rest, hrest⟩ := readings_initial h
    rw [← hrest, readsOf, List.filter_append, List.filterMap_append] at hpairs
    exact (List.pairwise_append.mp hpairs).1.isChain
  · rw [readsOf_eq_nil hnode]
    exact List.isChain_nil

include hrun in
/-- **Harmless events never mark a node as rotated**, and a collection over them with both
markers, finished operations and decodable lines ends with complete coverage.
Source: `Collect`, `FileSource.Read` -/
theorem rotation_tolerated (hreq : req.sources ≠ []) (hhealth : ∀ h ∈ req.health, h.ok) :
    (∀ done, done <+: logPolls req logs rounds →
      (done.foldl (pollStep req) {}).rotated = []) ∧
    (Settled req (readings req (pollsMade req (logPolls req logs rounds))) →
      ∃ res, collect req (logPolls req logs rounds) = some res ∧ res.coverage = .complete) := by
  have hok : ∀ done, done <+: logPolls req logs rounds →
      ∀ x ∈ readings req done, ∃ data, x.outcome = .ok data :=
    fun done h x hx => ok_of_mem_readings x ((readings_initial h).subset hx)
  have hmade : pollsMade req (logPolls req logs rounds) <+: logPolls req logs rounds :=
    polled_initial _ _
  refine ⟨fun done h => ?_, fun hsettled => ?_⟩
  · exact (tracks_polls req done).rotated_eq_nil (hok done h) (isChain_reads hrun h)
  · exact collect_eq_complete hreq hhealth (hok _ hmade) (isChain_reads hrun hmade) hsettled

end rotation

def startedLog : Log :=
  ⟨bytesOf (markerLine "a" "get" "ResponseComplete" "/m-start" "2026-01-01T00:00:01Z"), [],
    List.nodup_nil⟩

def endMarker : Bytes :=
  bytesOf (markerLine "b" "get" "ResponseComplete" "/m-end" "2026-01-01T00:00:02Z")

/-- A poll of the start marker, then the end marker is appended and the base is rotated. -/
def appendThenRotate : List Round :=
  [⟨fun _ => [], false⟩, ⟨fun _ => [.append endMarker, .rotate "1"], false⟩]

def rotateThenAppend : List Round :=
  [⟨fun _ => [], false⟩, ⟨fun _ => [.rotate "1", .append endMarker], false⟩]

/-- An append before the rotation is harmless, and the collection is complete. -/
theorem rotation_tolerated_append_first :
    ∃ res, collect sampleRequest (logPolls sampleRequest (fun _ => startedLog) appendThenRotate) =
      some res ∧ res.coverage = .complete := by
  refine (@rotation_tolerated sampleRequest (fun _ => startedLog) appendThenRotate ?_
    (by decide) (by decide)).2 ?_
  · intro node _
    exact ⟨Or.inr (by decide), Or.inr (by decide), trivial⟩
  · exact ⟨by decide +kernel, by decide +kernel, by decide +kernel, by decide +kernel⟩

/-- **A routine rotation marks the node.** The start marker is read, the log is rotated and the end
marker goes to the fresh base: nothing is lost, but the merged stream now begins with the end
marker. -/
theorem rotation_then_append_incomplete :
    let polls := logPolls sampleRequest (fun _ => startedLog) rotateThenAppend
    Settled sampleRequest (readings sampleRequest (pollsMade sampleRequest polls)) ∧
      (polls.foldl (pollStep sampleRequest) {}).rotated = ["node"] ∧
      (collect sampleRequest polls).map Result.coverage = some .incomplete := by
  refine ⟨⟨?_, ?_, ?_, ?_⟩, ?_, ?_⟩ <;> decide +kernel

end EvidraBench.Audit
