import EvidraBench.Audit.Window
import EvidraBench.Lib.Loops

/-!
# The drain loop

`pkg/audit/collector.go` `Collect`. Poll after poll every source is read whole; the events go to one
store, the previous read of a node is compared with the new one, and the loop ends when both window
markers are found or the deadline has passed. Then the coverage is judged.

Results: `conclude_complete_iff`, `collect_complete`, `collect_accepts_stageless_markers`.
-/

namespace EvidraBench.Audit

open EvidraBench.Gostd EvidraBench.Lib

/-! ### Requests, polls and results -/

inductive Coverage where
  | complete
  | incomplete
  | absent
deriving DecidableEq, Repr

def reasonNotProvisioned : String := "audit not provisioned on this cluster"

def reasonStartMarker : String := "start marker not observed in audit"

def reasonEndMarker : String := "end marker not observed in audit"

def reasonNonTerminalOps : String := "operations without terminal stage at drain end"

def reasonReaderFailure : String := "audit log reader failed on one or more nodes"

def reasonUnparseableJSON : String := "audit log lines failed JSON decode"

def reasonLogRotated : String := "log_rotated"

/-- An error of a reader: whether it is `ErrLogRotated`, and its text. -/
structure ReadError where
  isRotated : Bool
  text : String
deriving DecidableEq, Repr

/-- What probing one node found.
Source: `pkg/audit/health.go` `Health` -/
structure Health where
  node : String
  manifestHasFlags : Bool
  policyFilePresent : Bool
  logDirWritable : Bool
  detail : String
deriving DecidableEq, Repr

/-- Source: `pkg/audit/health.go` `Health.OK` -/
def Health.ok (h : Health) : Bool := h.manifestHasFlags && h.policyFilePresent && h.logDirWritable

/-- A collection request. A source is known by its node name; `health` is what the probes of
`HealthCheckNodes` report.
Source: `CollectRequest` -/
structure CollectRequest where
  sources : List String
  startNonce : String
  endNonce : String
  markerUsername : String
  health : List Health := []
deriving DecidableEq, Repr

/-- One round of the drain loop as the outside world answers it: what reading the source of each
index gives, and whether the deadline has passed or the context is done afterwards. -/
structure Poll where
  read : Nat → Except ReadError Bytes
  expired : Bool

structure Reading where
  node : String
  outcome : Except ReadError Bytes

/-- The result of a collection. The marker events are `none` where the source leaves them zero.
Source: `Result` -/
structure Result where
  coverage : Coverage
  reasons : List String
  store : Option Store := none
  window : WindowResult := {}
  startEvent : Option Event := none
  endEvent : Option Event := none
  parse : ParseStats := {}
  nodeFailures : List String := []

/-! ### The loop -/

structure Drain where
  store : Store := Store.newStore
  /-- The last full read of each node. -/
  seen : String → Bytes := fun _ => []
  /-- Nodes whose file identity changed. -/
  rotated : List String := []
  nodeFailures : List String := []
  parse : ParseStats := {}
  /-- Failed reads of the current poll. -/
  failures : Nat := 0
  start : Option Event := none
  finish : Option Event := none

/-- Whether a re-read proves that the file was replaced: it is shorter than the previous read or
diverges from it. -/
def replaced (prev data : Bytes) : Bool :=
  !prev.isEmpty && (data.length < prev.length || data.take prev.length != prev)

def markRotated (node : String) (rotated : List String) : List String :=
  if rotated.contains node then rotated else rotated ++ [node]

/-- Read one source.
Source: `Collect`, the loop over the sources -/
def readStep (d : Drain) (x : Reading) : Drain :=
  match x.outcome with
  | .error e =>
      { d with
        failures := d.failures + 1
        rotated := if e.isRotated then markRotated x.node d.rotated else d.rotated
        nodeFailures := d.nodeFailures ++ [x.node ++ ": " ++ e.text] }
  | .ok data =>
      let st := parse data
      { d with
        rotated := if replaced (d.seen x.node) data then markRotated x.node d.rotated else d.rotated
        seen := Function.update d.seen x.node data
        parse := { d.parse with lines := d.parse.lines + st.lines, bad := d.parse.bad + st.bad }
        store := (d.store.add st.events).1 }

/-- Look for the markers not found so far.
Source: `Collect` -/
def findMarkers (req : CollectRequest) (d : Drain) : Drain :=
  { d with
    start := d.start.or (findMarker d.store.all req.markerUsername req.startNonce)
    finish := d.finish.or (findMarker d.store.all req.markerUsername req.endNonce) }

def pollReads (req : CollectRequest) (p : Poll) : List Reading :=
  req.sources.zipIdx.map fun source => ⟨source.1, p.read source.2⟩

/-- One round of the loop.
Source: `Collect` -/
def pollStep (req : CollectRequest) (d : Drain) (p : Poll) : Drain :=
  findMarkers req ((pollReads req p).foldl readStep { d with failures := 0 })

/-- The exit test of the loop.
Source: `Collect` -/
def drained (d : Drain) (p : Poll) : Bool := (d.start.isSome && d.finish.isSome) || p.expired

/-- The switch after the loop.
Source: `Collect` -/
def conclude (req : CollectRequest) (d : Drain) : Result :=
  let res : Result :=
    { coverage := .incomplete, reasons := [], store := some d.store, parse := d.parse,
      nodeFailures := d.nodeFailures }
  if d.failures = req.sources.length ∧ d.rotated = [] then
    match d.nodeFailures with
    | [] => { res with coverage := .absent, reasons := [reasonReaderFailure] }
    | first :: _ =>
        { res with
          coverage := .absent
          reasons := [reasonReaderFailure, "first: " ++ first]
          nodeFailures :=
            if req.sources.length < d.nodeFailures.length then [] else d.nodeFailures }
  else if d.failures = req.sources.length ∧ d.start = none then
    { res with reasons := [reasonLogRotated] }
  else match d.start, d.finish with
    | none, _ => { res with reasons := [reasonStartMarker] }
    | some _, none => { res with reasons := [reasonEndMarker] }
    | some start, some finish =>
        let window := d.store.window start finish
        let res := { res with startEvent := start, endEvent := finish, window := window }
        if d.rotated ≠ [] then
          { res with
            reasons := [reasonLogRotated ++ ": " ++ join (sortStrings d.rotated) ","] }
        else if window.incomplete ≠ [] then
          { res with
            reasons := [reasonNonTerminalOps ++ ": " ++ toString window.incomplete.length] }
        else if 0 < d.parse.bad then
          { res with
            reasons := [reasonUnparseableJSON ++ ": " ++ toString d.parse.bad ++ " of " ++
              toString d.parse.lines ++ " lines"] }
        else if d.nodeFailures ≠ [] then { res with reasons := [reasonReaderFailure] }
        else { res with coverage := .complete }

/-- Drain all sources until both markers are observed or the deadline passes; `none` while the
loop is still running after the given polls.
Source: `Collect` -/
def collect (req : CollectRequest) (polls : List Poll) : Option Result :=
  if req.sources = [] then some { coverage := .absent, reasons := [reasonNotProvisioned] }
  else
    match req.health.find? (!·.ok) with
    | some h =>
        some { coverage := .absent, reasons := ["audit health: " ++ h.node ++ ": " ++ h.detail] }
    | none => (poll (pollStep req) drained {} polls).map (conclude req)

def pollsMade (req : CollectRequest) (polls : List Poll) : List Poll :=
  polled (pollStep req) drained {} polls

/-- The readings of a sequence of polls, in the order they are made. -/
def readings (req : CollectRequest) (polls : List Poll) : List Reading :=
  polls.flatMap (pollReads req)

/-- What the successful readings of a node returned, one after the other. -/
def readsOf (node : String) (t : List Reading) : List Bytes :=
  (t.filter (·.node = node)).filterMap fun x => x.outcome.toOption

/-! ### What the loop's variables say about the readings -/

/-- What a reading decodes to; a failed one to nothing. -/
def Reading.stats (x : Reading) : ParseStats :=
  match x.outcome with
  | .ok data => parse data
  | .error _ => {}

def stored (t : List Reading) : Store := Store.newStore.recordAll (t.flatMap (·.stats.events))

theorem replaced_eq_false_iff {prev data : Bytes} : replaced prev data = false ↔ prev <+: data := by
  rw [List.prefix_iff_eq_take]
  rcases prev with _ | ⟨b, prev⟩
  · simp [replaced]
  · unfold replaced
    constructor
    · intro h
      have h : ¬(data.length < (b :: prev).length) ∧ data.take (b :: prev).length = b :: prev := by
        simpa using h
      exact h.2.symm
    · intro h
      have hlen := congrArg List.length h
      rw [List.length_take, List.length_cons] at hlen
      have hlt : prev.length < data.length := by omega
      rw [List.length_cons] at h
      simpa only [List.length_cons, ← h] using by simpa using hlt

theorem markRotated_ne_nil (node : String) (rotated : List String) :
    markRotated node rotated ≠ [] := by
  unfold markRotated
  split_ifs with h
  · exact fun hnil => by simp [hnil] at h
  · simp

theorem ite_markRotated_eq_nil {c : Prop} [Decidable c] {node : String} {rotated : List String} :
    (if c then markRotated node rotated else rotated) = [] ↔ ¬c ∧ rotated = [] := by
  split_ifs with h
  · simp [h, markRotated_ne_nil]
  · simp [h]

theorem readsOf_append_error {node : String} {t : List Reading} {x : Reading} {e : ReadError}
    (h : x.outcome = .error e) : readsOf node (t ++ [x]) = readsOf node t := by
  by_cases hn : x.node = node <;> simp [readsOf, hn, h, Except.toOption]

theorem readsOf_append_ok {node : String} {t : List Reading} {x : Reading} {data : Bytes}
    (h : x.outcome = .ok data) :
    readsOf node (t ++ [x]) =
      if x.node = node then readsOf node t ++ [data] else readsOf node t := by
  by_cases hn : x.node = node <;> simp [readsOf, hn, h, Except.toOption]

/-- An event a marker search may return: it is stored, its request URI names the nonce, it is
attributed to the marker username when there is one, and it carries no non-terminal stage. -/
structure IsMarker (username nonce : String) (events : List Event) (e : Event) : Prop where
  stored : e ∈ events
  names : contains e.requestURI nonce
  attributed : username = "" ∨ ∃ u, e.user = some u ∧ u.username = username
  staged : e.stage = "" ∨ terminalStage e.stage

theorem isMarker_of_findMarker {s : Store} {username nonce : String} {e : Event}
    (h : findMarker s.all username nonce = some e) : IsMarker username nonce s.entries e := by
  have hmem := List.mem_of_find?_eq_some h
  have hp := List.find?_some h
  simp only [Bool.and_eq_true, Bool.or_eq_true, beq_iff_eq] at hp
  obtain ⟨⟨hnames, huser⟩, hstage⟩ := hp
  refine ⟨(Journal.mem_timeline _).mp hmem, hnames, ?_, hstage⟩
  rcases huser with huser | huser
  · exact Or.inl huser
  · rcases hu : e.user with _ | u
    · simp [hu] at huser
    · rw [hu] at huser
      exact Or.inr ⟨u, rfl, by simpa using huser⟩

theorem isMarker_of_or {s : Store} {username nonce : String} {kept : Option Event} {e : Event}
    (hkept : ∀ e, kept = some e → IsMarker username nonce s.entries e)
    (h : kept.or (findMarker s.all username nonce) = some e) :
    IsMarker username nonce s.entries e := by
  rcases Option.or_eq_some_iff.mp h with h | ⟨-, h⟩
  · exact hkept e h
  · exact isMarker_of_findMarker h

theorem IsMarker.mono {username nonce : String} {events events' : List Event} {e : Event}
    (h : IsMarker username nonce events e) (hsub : events ⊆ events') :
    IsMarker username nonce events' e := ⟨hsub h.stored, h.names, h.attributed, h.staged⟩

/-- What the variables of the drain loop say about the readings made so far. -/
structure Tracks (req : CollectRequest) (t : List Reading) (d : Drain) : Prop where
  store : d.store = stored t
  seen : ∀ node, d.seen node = (readsOf node t).getLast?.getD []
  failures : d.failures ≤ d.nodeFailures.length
  read : d.nodeFailures = [] ↔ ∀ x ∈ t, ∃ data, x.outcome = .ok data
  decoded : d.parse.bad = 0 ↔ ∀ x ∈ t, x.stats.bad = 0
  grown : d.rotated = [] ↔
    (∀ x ∈ t, ∀ e, x.outcome = .error e → e.isRotated = false) ∧
      ∀ node, (readsOf node t).IsChain (· <+: ·)
  start : ∀ e, d.start = some e → IsMarker req.markerUsername req.startNonce d.store.entries e
  finish : ∀ e, d.finish = some e → IsMarker req.markerUsername req.endNonce d.store.entries e

namespace Tracks

variable {req : CollectRequest} {t : List Reading} {d : Drain}

theorem initial (req : CollectRequest) : Tracks req [] {} where
  store := rfl
  seen _ := rfl
  failures := le_rfl
  read := by simp
  decoded := by simp
  grown := by simp [readsOf]
  start _ h := by simp at h
  finish _ h := by simp at h

theorem readStep_error (h : Tracks req t d) {x : Reading} {e : ReadError}
    (hx : x.outcome = .error e) : Tracks req (t ++ [x]) (readStep d x) := by
  simp only [readStep, hx]
  refine ⟨?_, ?_, ?_, ?_, ?_, ?_, h.start, h.finish⟩
  · simpa [stored, Reading.stats, hx] using h.store
  · exact fun node => by rw [readsOf_append_error hx]; exact h.seen node
  · simpa using h.failures
  · simp [hx]
  · simpa [Reading.stats, hx, or_imp, forall_and] using h.decoded
  · simp only [ite_markRotated_eq_nil, h.grown, readsOf_append_error hx]
    simp [hx, or_imp, forall_and, and_assoc, and_left_comm]

/-- The chain of a node's reads goes on exactly when the last of them is an initial part of the
new one. -/
theorem isChain_readsOf_append (h : Tracks req t d) {x : Reading} {data : Bytes}
    (hx : x.outcome = .ok data) :
    (∀ node, (readsOf node (t ++ [x])).IsChain (· <+: ·)) ↔
      d.seen x.node <+: data ∧ ∀ node, (readsOf node t).IsChain (· <+: ·) := by
  have extend : (readsOf x.node t ++ [data]).IsChain (· <+: ·) ↔
      (readsOf x.node t).IsChain (· <+: ·) ∧ d.seen x.node <+: data := by
    rw [h.seen, List.isChain_append]
    rcases (readsOf x.node t).getLast? with _ | last <;> simp
  constructor
  · intro hall
    have hnode := hall x.node
    rw [readsOf_append_ok hx, if_pos rfl] at hnode
    refine ⟨(extend.mp hnode).2, fun node => ?_⟩
    by_cases hn : x.node = node
    · exact hn ▸ (extend.mp hnode).1
    · have := hall node
      rwa [readsOf_append_ok hx, if_neg hn] at this
  · rintro ⟨hpre, hall⟩ node
    rw [readsOf_append_ok hx]
    split_ifs with hn
    · exact hn ▸ extend.mpr ⟨hall x.node, hpre⟩
    · exact hall node

theorem readStep_ok (h : Tracks req t d) {x : Reading} {data : Bytes}
    (hx : x.outcome = .ok data) : Tracks req (t ++ [x]) (readStep d x) := by
  have hsub : d.store.entries ⊆ (d.store.add (Audit.parse data).events).1.entries :=
    Journal.subset_recordAll _ _
  simp only [readStep, hx]
  refine ⟨?_, ?_, h.failures, ?_, ?_, ?_, fun e he => (h.start e he).mono hsub,
    fun e he => (h.finish e he).mono hsub⟩
  · rw [stored, List.flatMap_append, Journal.recordAll_append, ← stored, ← h.store]
    simp [Store.add, Reading.stats, hx]
  · intro node
    change Function.update d.seen x.node data node = _
    rw [readsOf_append_ok hx]
    by_cases hn : x.node = node
    · subst hn
      simp
    · rw [Function.update_of_ne (Ne.symm hn), if_neg hn]
      exact h.seen node
  · simpa [hx, or_imp, forall_and] using h.read
  · simp [Reading.stats, hx, or_imp, forall_and, h.decoded]
  · rw [ite_markRotated_eq_nil, Bool.not_eq_true, replaced_eq_false_iff, h.grown,
      isChain_readsOf_append h hx]
    simp [hx, or_imp, forall_and, and_left_comm]

theorem readStep (h : Tracks req t d) (x : Reading) : Tracks req (t ++ [x]) (readStep d x) := by
  rcases hx : x.outcome with e | data
  · exact h.readStep_error hx
  · exact h.readStep_ok hx

theorem rotated_eq_nil (h : Tracks req t d) (hread : ∀ x ∈ t, ∃ data, x.outcome = .ok data)
    (hgrown : ∀ node, (readsOf node t).IsChain (· <+: ·)) : d.rotated = [] := by
  refine h.grown.mpr ⟨fun x hx e he => ?_, hgrown⟩
  obtain ⟨data, hdata⟩ := hread x hx
  rw [hdata] at he
  cases he

theorem findMarkers (h : Tracks req t d) : Tracks req t (findMarkers req d) :=
  ⟨h.store, h.seen, h.failures, h.read, h.decoded, h.grown,
    fun _ he => isMarker_of_or h.start he, fun _ he => isMarker_of_or h.finish he⟩

theorem pollStep (h : Tracks req t d) (p : Poll) :
    Tracks req (t ++ pollReads req p) (pollStep req d p) := by
  have reset : Tracks req t { d with failures := 0 } :=
    ⟨h.store, h.seen, Nat.zero_le _, h.read, h.decoded, h.grown, h.start, h.finish⟩
  refine findMarkers ?_
  refine foldl_history (P := fun done d => Tracks req (t ++ done) d) ?_ ?_ (pollReads req p)
  · simpa using reset
  · intro done d x hd
    rw [← List.append_assoc]
    exact hd.readStep x

end Tracks

theorem tracks_polls (req : CollectRequest) (polls : List Poll) :
    Tracks req (readings req polls) (polls.foldl (pollStep req) {}) := by
  refine foldl_history (P := fun done d => Tracks req (readings req done) d)
    (Tracks.initial req) ?_ polls
  intro done d p h
  rw [readings, List.flatMap_append, List.flatMap_singleton]
  exact h.pollStep p

/-! ### The switch after the loop -/

theorem conclude_complete_iff {req : CollectRequest} {d : Drain} :
    (conclude req d).coverage = .complete ↔
      d.rotated = [] ∧ d.failures ≠ req.sources.length ∧
        (∃ start finish, d.start = some start ∧ d.finish = some finish ∧
          (d.store.window start finish).incomplete = []) ∧
        d.parse.bad = 0 ∧ d.nodeFailures = [] := by
  unfold conclude
  by_cases hr : d.rotated = []
  · by_cases hf : d.failures = req.sources.length
    · rw [if_pos ⟨hf, hr⟩]
      rcases d.nodeFailures with _ | ⟨first, rest⟩ <;> simp [hf]
    · rw [if_neg (fun h => hf h.1), if_neg (fun h => hf h.1)]
      rcases d.start with _ | start
      · simp
      · rcases d.finish with _ | finish
        · simp
        · by_cases hw : (d.store.window start finish).incomplete = []
          · by_cases hb : d.parse.bad = 0
            · by_cases hn : d.nodeFailures = [] <;> simp [hr, hf, hw, hb, hn]
            · simp [hr, hw, hb, Nat.pos_of_ne_zero hb]
          · simp [hr, hw]
  · rw [if_neg (fun h => hr h.2)]
    by_cases hf : d.failures = req.sources.length ∧ d.start = none
    · simp [hr, hf]
    · rw [if_neg hf]
      rcases d.start with _ | start
      · simp [hr]
      · rcases d.finish with _ | finish <;> simp [hr]

theorem conclude_of_markers {req : CollectRequest} {d : Drain} {start finish : Event}
    (hf : d.failures ≠ req.sources.length) (hs : d.start = some start)
    (he : d.finish = some finish) :
    (conclude req d).store = some d.store ∧ (conclude req d).startEvent = some start ∧
      (conclude req d).endEvent = some finish ∧
      (conclude req d).window = d.store.window start finish := by
  unfold conclude
  rw [if_neg (fun h => hf h.1), if_neg (fun h => hf h.1), hs, he]
  dsimp only
  split_ifs <;> exact ⟨rfl, rfl, rfl, rfl⟩

theorem conclude_of_collect {req : CollectRequest} {polls : List Poll} {res : Result}
    (h : collect req polls = some res) (hc : res.coverage = .complete) :
    res = conclude req ((pollsMade req polls).foldl (pollStep req) {}) := by
  unfold collect at h
  split_ifs at h
  · rw [← Option.some.inj h] at hc
    cases hc
  · generalize req.health.find? (!·.ok) = unhealthy at h
    rcases unhealthy with _ | health
    · rcases hd : poll (pollStep req) drained {} polls with _ | d
      · simp [hd] at h
      · rw [pollsMade, ← poll_eq_some hd]
        simpa [hd] using h.symm
    · rw [← Option.some.inj h] at hc
      cases hc

theorem mem_readings {req : CollectRequest} {polls : List Poll} {p : Poll} {i : Nat}
    (hp : p ∈ polls) (hi : i < req.sources.length) :
    ⟨req.sources.get ⟨i, hi⟩, p.read i⟩ ∈ readings req polls := by
  refine List.mem_flatMap.mpr ⟨p, hp, List.mem_map.mpr ⟨(req.sources.get ⟨i, hi⟩, i), ?_, rfl⟩⟩
  simp [List.mem_zipIdx_iff_getElem?]

/-! ### The fail-closed contract -/

/-- **Complete coverage excludes every degradation at every poll.** Both markers are stored events,
every read of every source in every poll made succeeded and decoded to the last line, each read of a
node extends the one before, and no operation of the window is unfinished.
Source: `Collect` -/
theorem collect_complete (req : CollectRequest) (polls : List Poll) (res : Result)
    (h : collect req polls = some res) (hc : res.coverage = .complete) :
    ∃ store start finish,
      res.store = some store ∧ res.startEvent = some start ∧ res.endEvent = some finish ∧
      store = stored (readings req (pollsMade req polls)) ∧
      IsMarker req.markerUsername req.startNonce store.entries start ∧
      IsMarker req.markerUsername req.endNonce store.entries finish ∧
      (∀ p ∈ pollsMade req polls, ∀ i < req.sources.length,
        ∃ data, p.read i = .ok data ∧ (parse data).bad = 0) ∧
      (∀ node, (readsOf node (readings req (pollsMade req polls))).IsChain (· <+: ·)) ∧
      res.window = store.window start finish ∧ res.window.incomplete = [] := by
  have hd := tracks_polls req (pollsMade req polls)
  obtain rfl := conclude_of_collect h hc
  generalize (pollsMade req polls).foldl (pollStep req) {} = d at hd hc
  obtain ⟨hr, hf, ⟨start, finish, hs, he, hw⟩, hb, hn⟩ := conclude_complete_iff.mp hc
  obtain ⟨hstore, hstart, hfinish, hwindow⟩ := conclude_of_markers hf hs he
  refine ⟨d.store, start, finish, hstore, hstart, hfinish, hd.store, hd.start start hs,
    hd.finish finish he, ?_, (hd.grown.mp hr).2, hwindow, by rw [hwindow, hw]⟩
  intro p hp i hi
  obtain ⟨data, (hdata : p.read i = .ok data)⟩ := hd.read.mp hn _ (mem_readings hp hi)
  have hbad := hd.decoded.mp hb _ (mem_readings hp hi)
  exact ⟨data, hdata, by simpa [Reading.stats, hdata] using hbad⟩

/-! ### When the coverage is complete -/

/-- What both markers, finished operations and decodable lines mean for the readings of a
collection. -/
structure Settled (req : CollectRequest) (t : List Reading) : Prop where
  start : (findMarker (stored t).all req.markerUsername req.startNonce).isSome
  finish : (findMarker (stored t).all req.markerUsername req.endNonce).isSome
  terminal : ∀ id ∈ (stored t).ops, (stored t).hasTerminal id
  decoded : ∀ x ∈ t, x.stats.bad = 0

theorem Settled.markers {req : CollectRequest} {polls : List Poll} {p : Poll}
    (h : Settled req (readings req (polls ++ [p]))) :
    ((polls ++ [p]).foldl (pollStep req) {}).start.isSome ∧
      ((polls ++ [p]).foldl (pollStep req) {}).finish.isSome := by
  have hstore := (tracks_polls req (polls ++ [p])).store
  have hstart := h.start
  have hfinish := h.finish
  rw [← hstore] at hstart hfinish
  rw [List.foldl_append, List.foldl_cons, List.foldl_nil] at hstart hfinish ⊢
  rw [pollStep, findMarkers] at hstart hfinish ⊢
  exact ⟨by simp [hstart], by simp [hfinish]⟩

theorem window_incomplete_eq_nil {s : Store} (h : ∀ id ∈ s.ops, s.hasTerminal id)
    (start finish : Event) : (s.window start finish).incomplete = [] := by
  rw [window_incomplete, List.filter_eq_nil_iff]
  intro id hid hun
  obtain ⟨stage, hstage, hterm⟩ := List.any_eq_true.mp (h id hid)
  obtain ⟨e, he, rfl⟩ := List.mem_map.mp hstage
  obtain ⟨he, hid⟩ := List.mem_filter.mp he
  have hmem : e ∈ s.group id := Store.mem_group.mpr ⟨he, by simpa using hid⟩
  have hnone : firstTerminal (s.group id) = none := by
    simp only [unfinished, Bool.and_eq_true, Option.isNone_iff_eq_none] at hun
    exact hun.1.1
  exact absurd hterm (by simpa using List.find?_eq_none.mp hnone e hmem)

/-- A settled collection whose reads succeed and only extend each other ends with complete
coverage. -/
theorem collect_eq_complete {req : CollectRequest} {polls : List Poll} (hreq : req.sources ≠ [])
    (hhealth : ∀ h ∈ req.health, h.ok)
    (hread : ∀ x ∈ readings req (pollsMade req polls), ∃ data, x.outcome = .ok data)
    (hgrown : ∀ node, (readsOf node (readings req (pollsMade req polls))).IsChain (· <+: ·))
    (hsettled : Settled req (readings req (pollsMade req polls))) :
    ∃ res, collect req polls = some res ∧ res.coverage = .complete := by
  have hne : pollsMade req polls ≠ [] := by
    intro hnil
    have := hsettled.start
    rw [hnil] at this
    cases this
  obtain ⟨before, p, hmade⟩ := (List.eq_nil_or_concat' _).resolve_left hne
  have hd := tracks_polls req (pollsMade req polls)
  obtain ⟨hs, hf⟩ := (hmade ▸ hsettled).markers
  have hreturns : (poll (pollStep req) drained {} polls).isSome :=
    poll_isSome hmade (by simp only [drained, hs, hf, Bool.and_self, Bool.true_or])
  obtain ⟨d, hpoll⟩ := Option.isSome_iff_exists.mp hreturns
  have hhealthy : req.health.find? (!·.ok) = none := by
    simpa [List.find?_eq_none] using hhealth
  refine ⟨conclude req d, by simp [collect, hreq, hhealthy, hpoll], ?_⟩
  rw [← hmade, pollsMade, ← poll_eq_some hpoll] at hs hf
  rw [pollsMade, ← poll_eq_some hpoll] at hd
  obtain ⟨start, hs⟩ := Option.isSome_iff_exists.mp hs
  obtain ⟨finish, hf⟩ := Option.isSome_iff_exists.mp hf
  have hfailures : d.nodeFailures = [] := hd.read.mpr hread
  have hlast : d.failures ≠ req.sources.length := by
    have hle := hd.failures
    have hpos := List.length_pos_of_ne_nil hreq
    rw [hfailures, List.length_nil] at hle
    omega
  refine conclude_complete_iff.mpr
    ⟨hd.rotated_eq_nil hread hgrown, hlast, ⟨start, finish, hs, hf, ?_⟩,
    hd.decoded.mpr hsettled.decoded, hfailures⟩
  exact window_incomplete_eq_nil (hd.store ▸ hsettled.terminal) start finish

/-- A request for one node, with `kubernetes-admin` as the marker identity. -/
def sampleRequest : CollectRequest :=
  { sources := ["node"], startNonce := "m-start", endNonce := "m-end",
    markerUsername := "kubernetes-admin" }

/-- A poll in which every source returns the same text. -/
def samplePoll (text : String) : Poll := ⟨fun _ => .ok (bytesOf text), false⟩

def markerLine (id verb stage uri time : String) : String :=
  "\x7b\"auditID\":\"" ++ id ++ "\",\"verb\":\"" ++ verb ++ "\",\"stage\":\"" ++ stage ++
    "\",\"requestURI\":\"" ++ uri ++ "\",\"user\":\x7b\"username\":\"kubernetes-admin\"\x7d," ++
    "\"stageTimestamp\":\"" ++ time ++ "\"\x7d\n"

/-- One poll of a log with both markers, each a terminal-stage event. -/
def markedLog : List Poll :=
  [samplePoll (markerLine "a" "get" "ResponseComplete" "/m-start" "2026-01-01T00:00:01Z" ++
    markerLine "b" "get" "ResponseComplete" "/m-end" "2026-01-01T00:00:02Z")]

/-- The contract applies to a log with both markers. -/
theorem collect_complete_markedLog :
    ∃ res, collect sampleRequest markedLog = some res ∧ res.coverage = .complete ∧
      res.window.incomplete = [] := by
  have hmap : (collect sampleRequest markedLog).map Result.coverage = some .complete := by
    decide +kernel
  obtain ⟨res, hres, hc⟩ := Option.map_eq_some_iff.mp hmap
  obtain ⟨_, _, _, -, -, -, -, -, -, -, -, -, hw⟩ :=
    collect_complete sampleRequest markedLog res hres hc
  exact ⟨res, hres, hc, hw⟩

/-- A watch that carries no stage serves as a marker, and the coverage is complete. -/
theorem collect_accepts_stageless_markers :
    (collect sampleRequest [samplePoll
        (markerLine "a" "watch" "" "/m-start" "2026-01-01T00:00:01Z" ++
          markerLine "b" "watch" "" "/m-end" "2026-01-01T00:00:02Z")]).map
      (fun res => (res.coverage, res.startEvent.map fun e => terminalStage e.stage)) =
      some (.complete, some false) := by
  decide +kernel

end EvidraBench.Audit
