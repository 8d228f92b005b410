import EvidraBench.Audit.Store
import EvidraBench.Evaluation.Verdict
import EvidraBench.Lib.Loops

/-!
# Which operations a window holds

What `Store.Window` reports, operation by operation.

Results: `window_drops_late_terminal`, `window_keeps_decided`, `window_delegated_iff`,
`window_misses_late_close`.
-/

namespace EvidraBench.Audit

open EvidraBench.Gostd EvidraBench.Lib EvidraBench.Evaluation

/-! ### The decisive event -/

/-- The first terminal-stage event of an operation. -/
def firstTerminal (group : List Event) : Option Event := group.find? fun e => terminalStage e.stage

/-- The `ResponseStarted` event of an operation. -/
def firstStarted (group : List Event) : Option Event :=
  group.find? fun e => e.stage == stageResponseStarted

/-- The event whose effective timestamp decides whether an operation is in a window. -/
def decisive (group : List Event) : Option Event :=
  match firstTerminal group with
  | some c => some c
  | none =>
      if connectSubresource group then (firstStarted group).or group.head?
      else if streamingOp group then none
      else group.head?

/-- An optional event lies in `[lo, hi]`. -/
def placed (lo hi : Time) : Option Event → Bool
  | some e => inWindow lo hi e
  | none => false

@[simp] theorem placed_some (lo hi : Time) (e : Event) :
    placed lo hi (some e) = inWindow lo hi e := rfl

@[simp] theorem placed_none (lo hi : Time) : placed lo hi none = false := rfl

/-- An operation without a terminal stage and without an established channel, judged by its first
event. -/
def unfinished (lo hi : Time) (group : List Event) : Bool :=
  (firstTerminal group).isNone &&
    (if connectSubresource group then (firstStarted group).isNone else !streamingOp group) &&
    placed lo hi group.head?

/-- A channel whose terminal event, or else whose establishment, lies in `[lo, hi]`. -/
def delegated (lo hi : Time) (group : List Event) : Bool :=
  connectSubresource group && placed lo hi ((firstTerminal group).or (firstStarted group))

theorem canonicalScan_fst (group : List Event) :
    ∀ body, (canonicalScan body group).1 = firstTerminal group := by
  induction group with
  | nil => intro body; rfl
  | cons e rest ih =>
      intro body
      unfold canonicalScan firstTerminal
      by_cases h : terminalStage e.stage
      · simp [h]
      · simp only [h, Bool.false_eq_true, if_false, List.find?_cons]
        exact ih _

/-- On a connect operation the establishment is the `ResponseStarted` event, elsewhere there is
none. -/
theorem connectStarted_eq (group : List Event) :
    connectStarted group = if connectSubresource group then firstStarted group else none := by
  unfold connectStarted firstStarted
  split_ifs with h <;> simp [h]

theorem lendBody_frame (c : Event) (body : Option Event) :
    (lendBody c body).effectiveTimestamp = c.effectiveTimestamp ∧
      (lendBody c body).auditID = c.auditID ∧ (lendBody c body).user = c.user := by
  rcases body with _ | b
  · exact ⟨rfl, rfl, rfl⟩
  · unfold lendBody
    split_ifs <;> exact ⟨rfl, rfl, rfl⟩

/-- The event a window reports for an operation: the decisive one, which borrows the body the scan
met when it concludes the operation. -/
def reported (group : List Event) : Option Event :=
  match firstTerminal group with
  | some c => some (lendBody c (canonicalScan none group).2)
  | none => decisive group

theorem reported_of_not_terminal {group : List Event} (h : firstTerminal group = none) :
    reported group = decisive group := by
  unfold reported
  rw [h]

theorem decisive_eq_none_of_reported {group : List Event} (h : reported group = none) :
    decisive group = none := by
  unfold reported at h
  rcases hterm : firstTerminal group with _ | c
  · simpa [hterm] using h
  · simp [hterm] at h

theorem mem_of_decisive {group : List Event} {e : Event} (h : decisive group = some e) :
    e ∈ group := by
  unfold decisive at h
  rcases hterm : firstTerminal group with _ | c
  · simp only [hterm] at h
    split_ifs at h
    · rcases Option.or_eq_some_iff.mp h with hst | ⟨-, hhead⟩
      · exact List.mem_of_find?_eq_some hst
      · exact List.mem_of_mem_head? hhead
    · exact List.mem_of_mem_head? h
  · simp only [hterm] at h
    obtain rfl := Option.some.inj h
    exact List.mem_of_find?_eq_some hterm

theorem reported_frame {group : List Event} {e : Event} (h : reported group = some e) :
    ∃ f ∈ group, e.auditID = f.auditID ∧ e.user = f.user := by
  unfold reported at h
  rcases hterm : firstTerminal group with _ | c
  · simp only [hterm] at h
    exact ⟨e, mem_of_decisive h, rfl, rfl⟩
  · simp only [hterm] at h
    obtain rfl := Option.some.inj h
    obtain ⟨-, hid, huser⟩ := lendBody_frame c (canonicalScan none group).2
    exact ⟨c, List.mem_of_find?_eq_some hterm, hid, huser⟩

theorem exists_reported {lo hi : Time} {group : List Event} (h : placed lo hi (decisive group)) :
    ∃ e, reported group = some e := by
  rcases hrep : reported group with _ | e
  · rw [decisive_eq_none_of_reported hrep] at h
    simp at h
  · exact ⟨e, rfl⟩

/-! ### Contributions -/

section contribution

variable {group : List Event}

theorem outside_iff (lo hi : Time) (e : Event) :
    (e.effectiveTimestamp < lo || hi < e.effectiveTimestamp) = !inWindow lo hi e := by
  unfold inWindow
  by_cases h₁ : e.effectiveTimestamp < lo
  · simp [h₁, not_le.mpr h₁]
  · by_cases h₂ : hi < e.effectiveTimestamp
    · simp [h₁, h₂, not_le.mpr h₂]
    · simp [h₁, h₂, not_lt.mp h₁, not_lt.mp h₂]

/-- What an operation with a terminal stage contributes: its canonical event, in the window and,
for a channel, among the delegated operations. -/
theorem contribution_of_terminal (lo hi : Time) (id : String) {c : Event}
    (hc : firstTerminal group = some c) :
    contribution lo hi id group =
      if inWindow lo hi c then
        ⟨(reported group).toList, [],
          if connectSubresource group then (reported group).toList else []⟩
      else {} := by
  rcases hscan : canonicalScan none group with ⟨found, body⟩
  have hfound : found = some c := by
    rw [← hc, ← canonicalScan_fst group none, hscan]
  subst hfound
  have hin : inWindow lo hi (lendBody c body) = inWindow lo hi c := by
    unfold inWindow
    rw [(lendBody_frame c body).1]
  unfold contribution windowOp reported
  simp only [hscan, hc, outside_iff, hin]
  by_cases h : inWindow lo hi c <;> by_cases hconn : connectSubresource group <;> simp [h, hconn]

theorem contribution_of_not_terminal (lo hi : Time) (id : String)
    (hc : firstTerminal group = none) :
    contribution lo hi id group =
      if connectSubresource group then
        match firstStarted group with
        | some cs => if inWindow lo hi cs then ⟨[cs], [], [cs]⟩ else {}
        | none => windowUnfinished lo hi id group {}
      else if streamingOp group then {}
      else windowUnfinished lo hi id group {} := by
  rcases hscan : canonicalScan none group with ⟨found, body⟩
  have hfound : found = none := by
    rw [← hc, ← canonicalScan_fst group none, hscan]
  subst hfound
  unfold contribution windowOp
  simp only [hscan, connectStarted_eq]
  by_cases hconn : connectSubresource group
  · rcases firstStarted group with _ | cs
    · simp [hconn]
    · simp [hconn]
  · simp [hconn]

theorem windowUnfinished_empty (lo hi : Time) (id : String) (group : List Event) :
    windowUnfinished lo hi id group {} =
      if placed lo hi group.head? then ⟨group.head?.toList, [id], []⟩ else {} := by
  rcases group with _ | ⟨first, rest⟩
  · rfl
  · unfold windowUnfinished
    by_cases h : inWindow lo hi first <;> simp [h]

variable {lo hi : Time} {id : String} (hid : ∀ e ∈ group, e.auditID = id)
include hid

theorem auditIDs_of_reported (h : placed lo hi (decisive group)) :
    (reported group).toList.map Event.auditID = [id] := by
  obtain ⟨e, hrep⟩ := exists_reported h
  obtain ⟨f, hf, hef, -⟩ := reported_frame hrep
  simp [hrep, hef, hid f hf]

omit hid in
theorem contribution_ops :
    (contribution lo hi id group).ops =
      if placed lo hi (decisive group) then (reported group).toList else [] := by
  rcases hterm : firstTerminal group with _ | c
  · rw [contribution_of_not_terminal lo hi id hterm, windowUnfinished_empty,
      reported_of_not_terminal hterm]
    unfold decisive
    simp only [hterm]
    by_cases hconn : connectSubresource group
    · rcases hst : firstStarted group with _ | cs
      · by_cases hp : placed lo hi group.head? <;> simp [hconn, hp]
      · by_cases hp : inWindow lo hi cs <;> simp [hconn, hp]
    · by_cases hstream : streamingOp group
      · simp [hconn, hstream]
      · by_cases hp : placed lo hi group.head? <;> simp [hconn, hstream, hp]
  · rw [contribution_of_terminal lo hi id hterm]
    unfold decisive
    simp only [hterm, placed_some]
    by_cases hp : inWindow lo hi c <;> simp [hp]

theorem contribution_ops_ids :
    (contribution lo hi id group).ops.map Event.auditID =
      if placed lo hi (decisive group) then [id] else [] := by
  rw [contribution_ops]
  split_ifs with hp
  · exact auditIDs_of_reported hid hp
  · rfl

omit hid in
theorem contribution_incomplete :
    (contribution lo hi id group).incomplete = if unfinished lo hi group then [id] else [] := by
  rcases hterm : firstTerminal group with _ | c
  · rw [contribution_of_not_terminal lo hi id hterm, windowUnfinished_empty]
    unfold unfinished
    by_cases hconn : connectSubresource group
    · rcases hst : firstStarted group with _ | cs
      · by_cases hp : placed lo hi group.head? <;> simp [hterm, hconn, hp]
      · by_cases hp : inWindow lo hi cs <;> simp [hconn, hp]
    · by_cases hstream : streamingOp group
      · simp [hconn, hstream]
      · by_cases hp : placed lo hi group.head? <;> simp [hterm, hconn, hstream, hp]
  · rw [contribution_of_terminal lo hi id hterm]
    unfold unfinished
    by_cases hp : inWindow lo hi c <;> simp [hterm, hp]

omit hid in
/-- An operation is delegated exactly when it is a channel whose terminal event, or else whose
establishment, lies in the window. -/
theorem contribution_delegated :
    (contribution lo hi id group).delegatedOps =
      if delegated lo hi group then (reported group).toList else [] := by
  rcases hterm : firstTerminal group with _ | c
  · rw [contribution_of_not_terminal lo hi id hterm, windowUnfinished_empty,
      reported_of_not_terminal hterm]
    unfold delegated decisive
    by_cases hconn : connectSubresource group
    · rcases hst : firstStarted group with _ | cs
      · by_cases hp : placed lo hi group.head? <;> simp [hterm, hconn, hp]
      · by_cases hp : inWindow lo hi cs <;> simp [hterm, hconn, hp]
    · by_cases hstream : streamingOp group
      · simp [hconn, hstream]
      · by_cases hp : placed lo hi group.head? <;> simp [hconn, hstream, hp]
  · rw [contribution_of_terminal lo hi id hterm]
    unfold delegated
    by_cases hp : inWindow lo hi c <;> by_cases hconn : connectSubresource group <;>
      simp [hterm, hp, hconn]

omit hid in
theorem placed_of_delegated (h : delegated lo hi group) : placed lo hi (decisive group) := by
  unfold delegated at h
  obtain ⟨hconn, hp⟩ := Bool.and_eq_true_iff.mp h
  unfold decisive
  rcases hterm : firstTerminal group with _ | c
  · rcases hst : firstStarted group with _ | cs
    · simp [hterm, hst] at hp
    · simpa [hterm, hst, hconn] using hp
  · simpa [hterm] using hp

theorem contribution_delegated_ids :
    (contribution lo hi id group).delegatedOps.map Event.auditID =
      if delegated lo hi group then [id] else [] := by
  rw [contribution_delegated]
  split_ifs with hp
  · exact auditIDs_of_reported hid (placed_of_delegated hp)
  · rfl

omit hid in
theorem user_of_mem_contribution {e : Event} (h : e ∈ (contribution lo hi id group).ops) :
    ∃ f ∈ group, e.user = f.user := by
  rw [contribution_ops] at h
  split_ifs at h
  · obtain ⟨f, hf, -, huser⟩ := reported_frame (Option.mem_toList.mp h)
    exact ⟨f, hf, huser⟩
  · simp at h

end contribution

/-! ### The window, list by list -/

section window

variable (s : Store) (start finish : Event)

theorem Store.auditID_of_mem_group {s : Store} {id : String} :
    ∀ e ∈ s.group id, e.auditID = id := fun _ he => (Store.mem_group.mp he).2

theorem Store.auditID_of_reported {s : Store} {id : String} {e : Event}
    (h : reported (s.group id) = some e) : e.auditID = id := by
  obtain ⟨f, hf, hef, -⟩ := reported_frame h
  rw [hef]
  exact Store.auditID_of_mem_group f hf

theorem window_ops_ids :
    (s.window start finish).ops.map Event.auditID =
      s.ops.filter fun id =>
        placed start.effectiveTimestamp finish.effectiveTimestamp (decisive (s.group id)) := by
  rw [window_eq, ← flatMap_ite_singleton]
  simp only [WindowResult.concat, List.flatMap_map, List.map_flatMap,
    contribution_ops_ids Store.auditID_of_mem_group]

theorem window_incomplete :
    (s.window start finish).incomplete =
      s.ops.filter fun id =>
        unfinished start.effectiveTimestamp finish.effectiveTimestamp (s.group id) := by
  rw [window_eq, ← flatMap_ite_singleton]
  simp only [WindowResult.concat, List.flatMap_map, contribution_incomplete]

theorem window_delegated_ids :
    (s.window start finish).delegatedOps.map Event.auditID =
      s.ops.filter fun id =>
        delegated start.effectiveTimestamp finish.effectiveTimestamp (s.group id) := by
  rw [window_eq, ← flatMap_ite_singleton]
  simp only [WindowResult.concat, List.flatMap_map, List.map_flatMap,
    contribution_delegated_ids Store.auditID_of_mem_group]

theorem mem_window_ops {s : Store} {start finish e : Event} :
    e ∈ (s.window start finish).ops ↔
      ∃ id ∈ s.ops, e ∈ (contribution start.effectiveTimestamp finish.effectiveTimestamp id
        (s.group id)).ops := by
  simp [window_eq, WindowResult.concat]

theorem window_delegated_pos {s : Store} {start finish : Event} :
    0 < (s.window start finish).delegatedOps.length ↔
      ∃ id ∈ s.ops,
        delegated start.effectiveTimestamp finish.effectiveTimestamp (s.group id) := by
  rw [← List.length_map Event.auditID, window_delegated_ids, List.length_pos_iff_exists_mem]
  simp only [List.mem_filter]

theorem Store.nodup_ops : s.ops.Nodup := Journal.nodup_groups s

/-! ### Nothing decided inside the window is lost -/

/-- Every operation with a mutation event in the window and its decisive event in the window is
reported, and no list reports an operation twice. -/
theorem window_keeps_decided :
    (∀ id, ∀ e ∈ s.group id, isMutation e.verb →
      inWindow start.effectiveTimestamp finish.effectiveTimestamp e →
      placed start.effectiveTimestamp finish.effectiveTimestamp (decisive (s.group id)) →
        id ∈ (s.window start finish).ops.map Event.auditID ∨
          id ∈ (s.window start finish).incomplete) ∧
    ((s.window start finish).ops.map Event.auditID).Nodup ∧
    (s.window start finish).incomplete.Nodup := by
  refine ⟨fun id e he _ _ hplaced => Or.inl ?_, ?_, ?_⟩
  · rw [window_ops_ids, List.mem_filter, Store.mem_ops]
    exact ⟨⟨e, Store.mem_group.mp he⟩, hplaced⟩
  · rw [window_ops_ids]
    exact (Store.nodup_ops s).filter _
  · rw [window_incomplete]
    exact (Store.nodup_ops s).filter _

end window

/-- An event with the fields a window reads, for the concrete runs. -/
def sampleEvent (auditID stage verb requestURI : String) (timestamp : Time) : Event :=
  { auditID, stage, verb, requestURI, timestamp }

/-- A patch that was received at time 3 and answered at time 20. -/
def latePatch : Store :=
  (Store.newStore.add [sampleEvent "p" stageRequestReceived "patch" "/api/v1/pods/web" 3,
    sampleEvent "p" stageResponseComplete "patch" "/api/v1/pods/web" 20]).1

/-- The window of the concrete runs opens at time 0. -/
def opening : Event := sampleEvent "start" stageResponseComplete "get" "/marker/s" 0

/-- The window of the concrete runs closes at time 5. -/
def closing : Event := sampleEvent "end" stageResponseComplete "get" "/marker/e" 5

/-- A patch received inside the window and answered after it is in neither list. -/
theorem window_drops_late_terminal :
    (∃ e ∈ latePatch.group "p", isMutation e.verb ∧
      inWindow opening.effectiveTimestamp closing.effectiveTimestamp e) ∧
    "p" ∉ (latePatch.window opening closing).ops.map Event.auditID ∧
    "p" ∉ (latePatch.window opening closing).incomplete := by
  decide

/-- A patch answered inside the window is reported. -/
theorem window_keeps_decided_patch :
    "p" ∈ (latePatch.window opening { closing with timestamp := 20 }).ops.map Event.auditID ∨
      "p" ∈ (latePatch.window opening { closing with timestamp := 20 }).incomplete :=
  (window_keeps_decided latePatch opening { closing with timestamp := 20 }).1 "p"
    (sampleEvent "p" stageRequestReceived "patch" "/api/v1/pods/web" 3)
    (by decide) (by decide) (by decide) (by decide)

/-! ### Delegated channels -/

theorem firstStarted_eq {s : Store} {id : String} {e : Event} (he : e ∈ s.group id)
    (hstage : e.stage = stageResponseStarted) : firstStarted (s.group id) = some e := by
  rcases hf : firstStarted (s.group id) with _ | f
  · exact absurd hstage (by simpa using List.find?_eq_none.mp hf e he)
  · have hstage' : f.stage = stageResponseStarted := by simpa using List.find?_some hf
    rw [Store.eq_of_mem_group_of_stage_eq (List.mem_of_find?_eq_some hf) he
      (hstage'.trans hstage.symm)]

/-- A channel established inside the window is counted exactly when its first terminal event, if
it has one, also lies in the window. -/
theorem window_delegated_iff (s : Store) (start finish : Event) (id : String) (e : Event)
    (hconn : connectSubresource (s.group id)) (he : e ∈ s.group id)
    (hstage : e.stage = stageResponseStarted)
    (hin : inWindow start.effectiveTimestamp finish.effectiveTimestamp e) :
    (∃ d ∈ (s.window start finish).delegatedOps, d.auditID = id) ↔
      ∀ c, firstTerminal (s.group id) = some c →
        inWindow start.effectiveTimestamp finish.effectiveTimestamp c := by
  rw [← List.mem_map, window_delegated_ids, List.mem_filter, Store.mem_ops]
  have hlisted : ∃ e ∈ s.entries, e.auditID = id := ⟨e, Store.mem_group.mp he⟩
  simp only [hlisted, true_and, delegated, hconn, Bool.true_and, firstStarted_eq he hstage]
  rcases firstTerminal (s.group id) with _ | c
  · simpa using hin
  · simp

/-- An `exec` established at time 2, closed at time `close`. -/
def execChannel (close : Time) : Store :=
  (Store.newStore.add
    [sampleEvent "x" stageResponseStarted "create" "/api/v1/namespaces/a/pods/web/exec" 2,
      sampleEvent "x" stageResponseComplete "create" "/api/v1/namespaces/a/pods/web/exec" close]).1

/-- A channel closed inside the window is counted. -/
theorem window_delegated_iff_exec :
    ∃ d ∈ ((execChannel 4).window opening closing).delegatedOps, d.auditID = "x" :=
  (window_delegated_iff (execChannel 4) opening closing "x"
    (sampleEvent "x" stageResponseStarted "create" "/api/v1/namespaces/a/pods/web/exec" 2)
    (by decide) (by decide) (by decide) (by decide)).mpr (by decide)

/-- A channel established inside the window and closed after it is not counted. -/
theorem window_misses_late_close :
    connectSubresource ((execChannel 20).group "x") ∧
    (∃ e ∈ (execChannel 20).group "x", e.stage = stageResponseStarted ∧
      inWindow opening.effectiveTimestamp closing.effectiveTimestamp e) ∧
    ¬ ∃ d ∈ ((execChannel 20).window opening closing).delegatedOps, d.auditID = "x" := by
  decide

end EvidraBench.Audit
