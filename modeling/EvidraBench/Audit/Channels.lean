import EvidraBench.Audit.Window
import EvidraBench.Evaluation.Authority

/-!
# Which operations a window takes for channels

`DelegatedOps` is meant to hold established channels into a workload: one entry makes the case
INCOMPLETE, so an entry that is none costs a case its verdict.

Results: `connectSubresource_eq`, `window_channels_iff`.

Source: `pkg/audit/events.go`
-/

namespace EvidraBench.Audit

open EvidraBench.Gostd EvidraBench.Lib EvidraBench.Evaluation

/-! ### Request paths -/

/-- The path of a request URI, without its query. -/
def requestPath (uri : String) : List Char := uri.toList.takeWhile (· ≠ '?')

/-- The segments of a request path that follow the API group and version. -/
def resourceSegments : List String → List String
  | "" :: "api" :: _ :: rest => rest
  | "" :: "apis" :: _ :: _ :: rest => rest
  | _ => []

/-- The segments of a resource path that follow the namespace. -/
def afterNamespace : List String → List String
  | "namespaces" :: _ :: rest => rest
  | segments => segments

/-- The segment that follows the object name: after the resource and the name. -/
def pathSubresource (uri : String) : Option String :=
  let segments := (splitChars '/' (requestPath uri)).map String.ofList
  ((afterNamespace (resourceSegments segments)).drop 2).head?

example : pathSubresource "/api/v1/namespaces/bench/pods/web/exec?command=sh" = some "exec" := by
  decide +kernel

example : pathSubresource "/apis/apps/v1/namespaces/exec/deployments/exec" = none := by
  decide +kernel

theorem resourceSegments_subset (segments : List String) :
    resourceSegments segments ⊆ segments.tail := by
  unfold resourceSegments
  split
  · intro x hx
    exact List.mem_cons_of_mem _ (List.mem_cons_of_mem _ hx)
  · intro x hx
    exact List.mem_cons_of_mem _ (List.mem_cons_of_mem _ (List.mem_cons_of_mem _ hx))
  · exact List.nil_subset _

theorem afterNamespace_subset (segments : List String) : afterNamespace segments ⊆ segments := by
  unfold afterNamespace
  split
  · intro x hx
    exact List.mem_cons_of_mem _ (List.mem_cons_of_mem _ hx)
  · exact List.Subset.refl _

theorem contains_of_pathSubresource {uri sub : String} (h : pathSubresource uri = some sub) :
    contains uri ("/" ++ sub) := by
  unfold pathSubresource at h
  have htail : sub ∈ ((splitChars '/' (requestPath uri)).map String.ofList).tail :=
    resourceSegments_subset _ (afterNamespace_subset _
      (List.mem_of_mem_drop (List.mem_of_mem_head? h)))
  rw [← List.map_tail] at htail
  obtain ⟨part, hpart, rfl⟩ := List.mem_map.mp htail
  have hpath : '/' :: part <:+: uri.toList :=
    (splitChars_tail hpart).trans (List.takeWhile_prefix _).isInfix
  unfold contains
  rw [containsChars_iff]
  simpa using hpath

/-! ### Channels and what looks like one -/

/-- The object reference names a connect subresource. -/
def refersToChannel (e : Event) : Bool :=
  match e.objectRef with
  | some o => connectSubresources.contains o.subresource
  | none => false

/-- An event of a channel: a connect subresource in the object reference, or right after the
object name in the request path. -/
def isChannel (e : Event) : Bool :=
  refersToChannel e || (pathSubresource e.requestURI).any connectSubresources.contains

/-- An event whose URI has a connect subresource behind some slash. -/
def namesChannel (e : Event) : Bool :=
  connectSubresources.any fun sub => contains e.requestURI ("/" ++ sub)

/-- An operation that only looks like a channel: none of its events is one, but the URI of some
event has the name behind a slash. -/
def merelyNamed (group : List Event) : Bool := !group.any isChannel && group.any namesChannel

def errorResponse (e : Event) : Bool :=
  match e.responseStatus with
  | some r => 400 ≤ r.code
  | none => false

/-- The answer to an operation: its first terminal-stage event, else its `ResponseStarted` event. -/
def answer (group : List Event) : Option Event := (firstTerminal group).or (firstStarted group)

def refusedChannel (group : List Event) : Bool :=
  group.any isChannel && (answer group).any errorResponse

theorem isChannel_or_names (e : Event) :
    (isChannel e || namesChannel e) = (refersToChannel e || namesChannel e) := by
  unfold isChannel
  rcases hpath : pathSubresource e.requestURI with _ | sub
  · rw [Option.any_none, Bool.or_false]
  · rw [Option.any_some]
    by_cases hsub : connectSubresources.contains sub
    · have hnames : namesChannel e := List.any_eq_true.mpr
        ⟨sub, List.contains_iff_mem.mp hsub, contains_of_pathSubresource hpath⟩
      rw [hnames, Bool.or_true, Bool.or_true]
    · rw [Bool.eq_false_iff.mpr hsub, Bool.or_false]

theorem connectSubresource_eq (group : List Event) :
    connectSubresource group = (group.any isChannel || merelyNamed group) := by
  have hany : connectSubresource group = (group.any isChannel || group.any namesChannel) := by
    rw [← any_or]
    simp only [isChannel_or_names]
    rfl
  rw [hany]
  unfold merelyNamed
  cases group.any isChannel <;> simp

theorem delegated_eq (lo hi : Time) (group : List Event) :
    delegated lo hi group =
      ((group.any isChannel || merelyNamed group) && placed lo hi (answer group)) := by
  rw [← connectSubresource_eq]
  rfl

theorem errorResponse_lendBody (c : Event) (body : Option Event) :
    errorResponse (lendBody c body) = errorResponse c := by
  rcases body with _ | b
  · rfl
  · unfold lendBody
    split_ifs <;> rfl

theorem errorResponse_reported {lo hi : Time} {group : List Event} {d : Event}
    (h : delegated lo hi group) (hd : reported group = some d) :
    errorResponse d = (answer group).any errorResponse := by
  unfold delegated at h
  obtain ⟨hconn, hplaced⟩ := Bool.and_eq_true_iff.mp h
  unfold answer
  rcases hterm : firstTerminal group with _ | c
  · rw [reported_of_not_terminal hterm] at hd
    unfold decisive at hd
    simp only [hterm, hconn, if_true] at hd
    rcases hst : firstStarted group with _ | cs
    · simp [hterm, hst] at hplaced
    · obtain rfl : cs = d := by simpa [hst] using hd
      simp
  · unfold reported at hd
    simp only [hterm, Option.some.injEq] at hd
    rw [← hd, errorResponse_lendBody]
    simp

/-! ### What the window reports -/

theorem mem_window_delegated {s : Store} {start finish d : Event} :
    d ∈ (s.window start finish).delegatedOps ↔
      ∃ id ∈ s.ops,
        delegated start.effectiveTimestamp finish.effectiveTimestamp (s.group id) ∧
          reported (s.group id) = some d := by
  have hmem : d ∈ (s.window start finish).delegatedOps ↔
      ∃ id ∈ s.ops, d ∈ (contribution start.effectiveTimestamp finish.effectiveTimestamp id
        (s.group id)).delegatedOps := by
    simp [window_eq, WindowResult.concat]
  rw [hmem]
  refine exists_congr fun id => and_congr_right fun _ => ?_
  rw [contribution_delegated]
  split_ifs with hp <;> simp [hp]

/-- A stream is reported incomplete exactly when it is taken for a channel, was not answered and
began in the window. -/
theorem unfinished_stream {lo hi : Time} {group : List Event} (h : streamingOp group) :
    unfinished lo hi group =
      ((group.any isChannel || merelyNamed group) && (answer group).isNone &&
        placed lo hi group.head?) := by
  rw [← connectSubresource_eq]
  unfold unfinished answer
  by_cases hconn : connectSubresource group <;> simp [hconn, h, Option.isNone_or]

theorem exists_channel_iff {s : Store} {id : String} :
    (∃ f ∈ s.entries, f.auditID = id ∧ isChannel f) ↔ (s.group id).any isChannel := by
  simp [and_assoc]

theorem delegated_genuine_iff (lo hi : Time) (group : List Event) :
    (delegated lo hi group → group.any isChannel ∧ ¬ (answer group).any errorResponse) ↔
      (placed lo hi (answer group) → ¬ merelyNamed group ∧ ¬ refusedChannel group) := by
  rw [delegated_eq]
  unfold refusedChannel merelyNamed
  generalize (answer group).any errorResponse = refused
  generalize placed lo hi (answer group) = answered
  cases group.any isChannel <;> cases group.any namesChannel <;> cases answered <;>
    cases refused <;> decide

theorem unfinished_genuine_iff (lo hi : Time) (group : List Event) :
    (unfinished lo hi group → streamingOp group → group.any isChannel) ↔
      (streamingOp group → answer group = none → placed lo hi group.head? →
        ¬ merelyNamed group) := by
  by_cases hstream : streamingOp group
  · rw [unfinished_stream hstream, ← Option.isNone_iff_eq_none]
    unfold merelyNamed
    generalize placed lo hi group.head? = began
    cases group.any isChannel <;> cases group.any namesChannel <;>
      cases (answer group).isNone <;> cases began <;> simp [hstream]
  · simp [hstream]

section window

variable {s : Store} {start finish : Event}

theorem delegated_genuine :
    (∀ d ∈ (s.window start finish).delegatedOps,
        (∃ f ∈ s.entries, f.auditID = d.auditID ∧ isChannel f) ∧ ¬ errorResponse d) ↔
      ∀ id ∈ s.ops, delegated start.effectiveTimestamp finish.effectiveTimestamp (s.group id) →
        (s.group id).any isChannel ∧ ¬ (answer (s.group id)).any errorResponse := by
  constructor
  · intro h id hid hdel
    obtain ⟨d, hrep⟩ := exists_reported (placed_of_delegated hdel)
    obtain ⟨hchannel, hresponse⟩ := h d (mem_window_delegated.mpr ⟨id, hid, hdel, hrep⟩)
    rw [Store.auditID_of_reported hrep] at hchannel
    rw [errorResponse_reported hdel hrep] at hresponse
    exact ⟨exists_channel_iff.mp hchannel, hresponse⟩
  · intro h d hd
    obtain ⟨id, hid, hdel, hrep⟩ := mem_window_delegated.mp hd
    obtain ⟨hchannel, hresponse⟩ := h id hid hdel
    rw [Store.auditID_of_reported hrep, errorResponse_reported hdel hrep]
    exact ⟨exists_channel_iff.mpr hchannel, hresponse⟩

theorem incomplete_genuine :
    (∀ id ∈ (s.window start finish).incomplete, streamingOp (s.group id) →
        ∃ f ∈ s.entries, f.auditID = id ∧ isChannel f) ↔
      ∀ id ∈ s.ops, unfinished start.effectiveTimestamp finish.effectiveTimestamp (s.group id) →
        streamingOp (s.group id) → (s.group id).any isChannel := by
  simp only [window_incomplete, List.mem_filter, exists_channel_iff, and_imp]

end window

/-- **The window reports channels only, and none that was refused,** exactly when no operation that
was answered in it is merely named like a channel or a refused channel, and no unanswered stream
that began in it is merely named like one. Such a stream is the other way in which a name makes a
case INCOMPLETE: it would be tolerated if it were not taken for a channel.
Source: `Store.Window`, `connectSubresource`, `connectStarted` -/
theorem window_channels_iff (s : Store) (start finish : Event) :
    ((∀ d ∈ (s.window start finish).delegatedOps,
        (∃ f ∈ s.entries, f.auditID = d.auditID ∧ isChannel f) ∧ ¬ errorResponse d) ∧
      ∀ id ∈ (s.window start finish).incomplete, streamingOp (s.group id) →
        ∃ f ∈ s.entries, f.auditID = id ∧ isChannel f) ↔
    ∀ id ∈ s.ops,
      (placed start.effectiveTimestamp finish.effectiveTimestamp (answer (s.group id)) →
        ¬ merelyNamed (s.group id) ∧ ¬ refusedChannel (s.group id)) ∧
      (streamingOp (s.group id) → answer (s.group id) = none →
        placed start.effectiveTimestamp finish.effectiveTimestamp (s.group id).head? →
        ¬ merelyNamed (s.group id)) := by
  rw [delegated_genuine, incomplete_genuine, ← forall₂_and]
  refine forall₂_congr fun id _ => ?_
  rw [delegated_genuine_iff, unfinished_genuine_iff]

/-- A get of a config map called `proxy-config`. -/
def namedLikeProxy : Store :=
  (Store.newStore.add [sampleEvent "m" stageResponseComplete "get"
    "/api/v1/namespaces/bench/configmaps/proxy-config" 3]).1

/-- An `exec` that the API server refuses. -/
def refusedExec : Store :=
  (Store.newStore.add
    [{ sampleEvent "x" stageResponseComplete "create" "/api/v1/namespaces/a/pods/web/exec" 3 with
        responseStatus := some { code := 403, reason := "Forbidden" } }]).1

/-- The input of a case that passes, but for the channels of a window. -/
def passingBut (window : WindowResult) : EngineInput :=
  { agentIdentity := "agent", auditCoverage := .complete, snapshotCoverage := .complete,
    checksPassed := true, delegatedOps := window.delegatedOps.length }

/-- The get of the config map and the refused `exec` are reported as channels, and each of them
makes a case INCOMPLETE that passes without them. -/
theorem window_takes_for_channel :
    ((namedLikeProxy.window opening closing).delegatedOps.map Event.auditID = ["m"] ∧
      (∀ f ∈ namedLikeProxy.entries, ¬ isChannel f) ∧
      (authoritativeVerdict (passingBut (namedLikeProxy.window opening closing))).verdict =
        .incomplete) ∧
    ((refusedExec.window opening closing).delegatedOps.map (fun d => (d.auditID, errorResponse d)) =
        [("x", true)] ∧
      (authoritativeVerdict (passingBut (refusedExec.window opening closing))).verdict =
        .incomplete) ∧
    (authoritativeVerdict (passingBut {})).verdict = .pass := by
  decide +kernel

end EvidraBench.Audit
