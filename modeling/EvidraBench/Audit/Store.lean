import EvidraBench.Audit.Event
import EvidraBench.Lib.Journal

/-!
# The event store and its window

`pkg/audit/events.go`, second half. The store keys events by `(auditID, stage)`; `Window` walks the
operations (groups of one audit id) and decides for each of them what it contributes.

Results: `window_eq`.
-/

namespace EvidraBench.Audit

open EvidraBench.Gostd EvidraBench.Lib

/-! ### The store -/

/-- Events keyed by `(auditID, stage)`.
Source: `Store` -/
abbrev Store := Journal Event String Event.key

namespace Store

def newStore : Store := Journal.empty

/-- Ingest events; the first event of a key is kept. The second component counts the new keys.
Source: `Store.Add` -/
def add (s : Store) (events : List Event) : Store × Nat :=
  let s' := s.recordAll events
  (s', s'.entries.length - s.entries.length)

/-- The stages seen of an operation.
Source: `Store.opStages` -/
def opStages (s : Store) (auditID : String) : List String :=
  (s.entries.filter (·.auditID = auditID)).map Event.stage

def hasTerminal (s : Store) (auditID : String) : Bool := (s.opStages auditID).any terminalStage

/-- The stored events by effective timestamp, then key.
Source: `Store.All` -/
def all (s : Store) : List Event := s.timeline Event.effectiveTimestamp

/-- The audit ids in order of first appearance.
Source: `Store.Ops` -/
def ops (s : Store) : List String := s.groups Event.effectiveTimestamp Event.auditID

/-- The events of one operation, as `Window` collects them in `byOp`.
Source: `Store.Window` -/
def group (s : Store) (auditID : String) : List Event :=
  s.groupOf Event.effectiveTimestamp Event.auditID auditID

@[simp] theorem mem_group {s : Store} {id : String} {e : Event} :
    e ∈ s.group id ↔ e ∈ s.entries ∧ e.auditID = id := Journal.mem_groupOf

@[simp] theorem mem_ops {s : Store} {id : String} :
    id ∈ s.ops ↔ ∃ e ∈ s.entries, e.auditID = id := Journal.mem_groups

theorem eq_of_mem_group_of_stage_eq {s : Store} {id : String} {e f : Event} (he : e ∈ s.group id)
    (hf : f ∈ s.group id) (h : e.stage = f.stage) : e = f := by
  rw [mem_group] at he hf
  exact s.eq_of_key_eq he.1 hf.1 (by rw [Event.key, Event.key, he.2, hf.2, h])

end Store

/-! ### Streams and channels -/

/-- A watch or a log-tailing stream, from any stage's verb or request URI.
Source: `streamingOp` -/
def streamingOp (group : List Event) : Bool :=
  group.any fun e => equalFold e.verb "watch" || contains e.requestURI "follow=true"

/-- The pod-level channels that hand authority to a process inside a workload.
Source: `connectSubresources` -/
def connectSubresources : List String := ["exec", "attach", "portforward", "proxy"]

/-- Whether an operation targets a connect subresource: by object reference first, by request URI
as a fallback.
Source: `connectSubresource` -/
def connectSubresource (group : List Event) : Bool :=
  group.any fun e =>
    (match e.objectRef with
      | some o => connectSubresources.contains o.subresource
      | none => false) ||
    connectSubresources.any fun sub => contains e.requestURI ("/" ++ sub)

/-- The establishment observation of a connect operation, its `ResponseStarted` event.
Source: `connectStarted` -/
def connectStarted (group : List Event) : Option Event :=
  group.find? fun e => e.stage == stageResponseStarted && connectSubresource group

/-! ### The window -/

structure WindowResult where
  ops : List Event := []
  /-- Audit ids of operations without a terminal stage. -/
  incomplete : List String := []
  /-- Established connect channels. -/
  delegatedOps : List Event := []
deriving DecidableEq, Repr

/-- The first terminal-stage event of a group, and the earliest event up to it that carries a
request body.
Source: `Store.Window`, the loop over the group -/
def canonicalScan : Option Event → List Event → Option Event × Option Event
  | body, [] => (none, body)
  | body, e :: rest =>
      let body := if body.isNone && e.requestObject ≠ "" then some e else body
      if terminalStage e.stage then (some e, body) else canonicalScan body rest

/-- A terminal event without a request body borrows the earliest one of its operation.
Source: `Store.Window` -/
def lendBody (canonical : Event) : Option Event → Event
  | some b =>
      if canonical.requestObject = "" then { canonical with requestObject := b.requestObject }
      else canonical
  | none => canonical

/-- Whether an event lies in `[lo, hi]`. -/
def inWindow (lo hi : Time) (e : Event) : Bool :=
  lo ≤ e.effectiveTimestamp && e.effectiveTimestamp ≤ hi

/-- An operation judged by its first event: it began, its outcome is unknown.
Source: `Store.Window`, the two `first := group[0]` branches -/
def windowUnfinished (lo hi : Time) (opID : String) (group : List Event) (res : WindowResult) :
    WindowResult :=
  match group with
  | [] => res
  | first :: _ =>
      if inWindow lo hi first then
        { res with incomplete := res.incomplete ++ [opID], ops := res.ops ++ [first] }
      else res

/-- One turn of the loop over the operations.
Source: `Store.Window` -/
def windowOp (lo hi : Time) (res : WindowResult) (opID : String) (group : List Event) :
    WindowResult :=
  match canonicalScan none group with
  | (none, _) =>
      match connectStarted group with
      | some cs =>
          if inWindow lo hi cs then
            { res with ops := res.ops ++ [cs], delegatedOps := res.delegatedOps ++ [cs] }
          else res
      | none =>
          if connectSubresource group then windowUnfinished lo hi opID group res
          else if streamingOp group then res
          else windowUnfinished lo hi opID group res
  | (some c, body) =>
      let canonical := lendBody c body
      if canonical.effectiveTimestamp < lo || hi < canonical.effectiveTimestamp then res
      else
        let res := { res with ops := res.ops ++ [canonical] }
        if connectSubresource group then
          { res with delegatedOps := res.delegatedOps ++ [canonical] }
        else res

namespace Store

/-- The operations of the marker window.
Source: `Store.Window` -/
def window (s : Store) (start finish : Event) : WindowResult :=
  let lo := start.effectiveTimestamp
  let hi := finish.effectiveTimestamp
  s.ops.foldl (fun res opID => windowOp lo hi res opID (s.group opID)) {}

end Store

/-- A window-marker event: its request URI names the nonce, it is attributed to `username` when
one is given, and its stage is terminal when it has one.
Source: `FindMarker` -/
def findMarker (events : List Event) (username nonce : String) : Option Event :=
  events.find? fun e =>
    contains e.requestURI nonce &&
    (username == "" || (match e.user with
      | some u => u.username == username
      | none => false)) &&
    (e.stage == "" || terminalStage e.stage)

/-! ### What a turn contributes -/

def WindowResult.append (a b : WindowResult) : WindowResult :=
  ⟨a.ops ++ b.ops, a.incomplete ++ b.incomplete, a.delegatedOps ++ b.delegatedOps⟩

def contribution (lo hi : Time) (opID : String) (group : List Event) : WindowResult :=
  windowOp lo hi {} opID group

@[simp] theorem WindowResult.append_empty (a : WindowResult) : a.append {} = a := by
  simp [WindowResult.append]

theorem windowUnfinished_eq_append (lo hi : Time) (opID : String) (group : List Event)
    (res : WindowResult) :
    windowUnfinished lo hi opID group res =
      res.append (windowUnfinished lo hi opID group {}) := by
  rcases group with _ | ⟨first, rest⟩
  · simp [windowUnfinished]
  · unfold windowUnfinished
    dsimp only
    split_ifs <;> simp [WindowResult.append]

theorem windowOp_eq_append (lo hi : Time) (res : WindowResult) (opID : String)
    (group : List Event) :
    windowOp lo hi res opID group = res.append (contribution lo hi opID group) := by
  unfold contribution windowOp
  rcases canonicalScan none group with ⟨_ | c, body⟩
  · rcases connectStarted group with _ | cs
    · dsimp only
      split_ifs
      · exact windowUnfinished_eq_append lo hi opID group res
      · simp
      · exact windowUnfinished_eq_append lo hi opID group res
    · dsimp only
      split_ifs <;> simp [WindowResult.append]
  · dsimp only
    split_ifs <;> simp [WindowResult.append]

def WindowResult.concat (rs : List WindowResult) : WindowResult :=
  ⟨rs.flatMap (·.ops), rs.flatMap (·.incomplete), rs.flatMap (·.delegatedOps)⟩

theorem window_eq (s : Store) (start finish : Event) :
    s.window start finish =
      WindowResult.concat (s.ops.map fun id =>
        contribution start.effectiveTimestamp finish.effectiveTimestamp id (s.group id)) := by
  have fold : ∀ (ids : List String) (res : WindowResult),
      ids.foldl (fun res opID => windowOp start.effectiveTimestamp finish.effectiveTimestamp res
          opID (s.group opID)) res =
        res.append (WindowResult.concat (ids.map fun id =>
          contribution start.effectiveTimestamp finish.effectiveTimestamp id (s.group id))) := by
    intro ids
    induction ids with
    | nil => intro res; simp [WindowResult.append, WindowResult.concat]
    | cons id ids ih =>
        intro res
        rw [List.foldl_cons, ih, windowOp_eq_append]
        simp [WindowResult.append, WindowResult.concat]
  unfold Store.window
  rw [fold]
  simp [WindowResult.append]

end EvidraBench.Audit
