import EvidraBench.Audit.Window

/-!
# Which request bodies reach the judged event

Level-`Request` policies attach the request body to one stage of an operation, and field rules need
it on the event that is judged. `Window` therefore lends the earliest body it has met to the
terminal-stage event.

Results: `canonicalScan_snd`, `window_lends_bodies_iff`.

Source: `pkg/audit/events.go`
-/

namespace EvidraBench.Audit

open EvidraBench.Gostd EvidraBench.Lib

def hasBody (e : Event) : Bool := e.requestObject ≠ ""

/-- The events of an operation up to its first terminal-stage event, all of them without one. -/
def upToTerminal : List Event → List Event
  | [] => []
  | e :: rest => if terminalStage e.stage then [e] else e :: upToTerminal rest

/-- An operation whose body is where `Window` finds it: on a stage that does not sort after the
first terminal one, and without a terminal stage on the decisive event itself. -/
def atHand (group : List Event) : Bool :=
  match firstTerminal group with
  | some _ => (upToTerminal group).any hasBody
  | none => (decisive group).any hasBody

theorem canonicalScan_snd (group : List Event) :
    ∀ body, (canonicalScan body group).2 = body.or ((upToTerminal group).find? hasBody) := by
  induction group with
  | nil => intro body; simp [canonicalScan, upToTerminal]
  | cons e rest ih =>
      intro body
      have hmet : (if body.isNone && e.requestObject ≠ "" then some e else body) =
          body.or ([e].find? hasBody) := by
        rcases body with _ | b
        · by_cases hbody : e.requestObject = "" <;> simp [hasBody, hbody]
        · simp
      unfold canonicalScan upToTerminal
      simp only [hmet]
      split_ifs
      · rfl
      · rw [ih, Option.or_assoc, ← List.find?_append, List.singleton_append]

theorem mem_upToTerminal {group : List Event} {c : Event} (h : firstTerminal group = some c) :
    c ∈ upToTerminal group := by
  induction group with
  | nil => simp [firstTerminal] at h
  | cons e rest ih =>
      unfold firstTerminal at h
      rw [List.find?_cons] at h
      unfold upToTerminal
      by_cases hterm : terminalStage e.stage
      · simp only [hterm, Option.some.injEq] at h
        rw [if_pos hterm, h]
        exact List.mem_singleton_self c
      · simp only [hterm] at h
        simp [hterm, ih h]

theorem hasBody_lendBody {c : Event} {met : List Event} (hc : c ∈ met) :
    hasBody (lendBody c (met.find? hasBody)) = met.any hasBody := by
  rcases hfound : met.find? hasBody with _ | b
  · have hnone : ∀ e ∈ met, ¬ hasBody e := List.find?_eq_none.mp hfound
    have hany : met.any hasBody = false := List.any_eq_false.mpr hnone
    rw [hany]
    exact Bool.eq_false_iff.mpr (hnone c hc)
  · have hbody : hasBody b := List.find?_some hfound
    have hany : met.any hasBody = true :=
      List.any_eq_true.mpr ⟨b, List.mem_of_find?_eq_some hfound, hbody⟩
    rw [hany]
    unfold lendBody
    split_ifs with hempty
    · exact hbody
    · simpa [hasBody] using hempty

theorem hasBody_reported {group : List Event} {e : Event} (h : reported group = some e) :
    hasBody e = atHand group := by
  unfold reported at h
  unfold atHand
  rcases hterm : firstTerminal group with _ | c
  · simp only [hterm] at h
    simp [h]
  · simp only [hterm, Option.some.injEq] at h
    rw [← h, canonicalScan_snd, Option.none_or]
    exact hasBody_lendBody (mem_upToTerminal hterm)

theorem mem_window_ops_iff {s : Store} {start finish e : Event} :
    e ∈ (s.window start finish).ops ↔
      ∃ id ∈ s.ops,
        placed start.effectiveTimestamp finish.effectiveTimestamp (decisive (s.group id)) ∧
          reported (s.group id) = some e := by
  rw [mem_window_ops]
  refine exists_congr fun id => and_congr_right fun _ => ?_
  rw [contribution_ops]
  split_ifs with hp <;> simp [hp]

/-- **No request body is missed** in a window exactly when every operation of it that has a body
has it at hand.
Source: `Store.Window` -/
theorem window_lends_bodies_iff (s : Store) (start finish : Event) :
    (∀ e ∈ (s.window start finish).ops,
        (∃ f ∈ s.entries, f.auditID = e.auditID ∧ f.requestObject ≠ "") → e.requestObject ≠ "") ↔
      ∀ id ∈ s.ops,
        placed start.effectiveTimestamp finish.effectiveTimestamp (decisive (s.group id)) →
          (s.group id).any hasBody → atHand (s.group id) := by
  have hstored : ∀ id, (∃ f ∈ s.entries, f.auditID = id ∧ f.requestObject ≠ "") ↔
      (s.group id).any hasBody := by
    intro id
    simp [hasBody, and_assoc]
  constructor
  · intro h id hid hplaced hbody
    obtain ⟨e, hrep⟩ := exists_reported hplaced
    have heid : e.auditID = id := Store.auditID_of_reported hrep
    have hnonempty := h e (mem_window_ops_iff.mpr ⟨id, hid, hplaced, hrep⟩)
      ((hstored e.auditID).mpr (heid ▸ hbody))
    rw [← hasBody_reported hrep]
    simpa [hasBody] using hnonempty
  · intro h e he hbody
    obtain ⟨id, hid, hplaced, hrep⟩ := mem_window_ops_iff.mp he
    have heid : e.auditID = id := Store.auditID_of_reported hrep
    have hathand := h id hid hplaced ((hstored id).mp (heid ▸ hbody))
    rw [← hasBody_reported hrep] at hathand
    simpa [hasBody] using hathand

/-- A patch whose body is on its `RequestReceived` event and whose handler panics, both at time 3.
-/
def panickedPatch : Store :=
  (Store.newStore.add
    [{ sampleEvent "p" stageRequestReceived "patch" "/api/v1/namespaces/a/pods/web" 3 with
        requestObject := "\x7b\x7d" },
      sampleEvent "p" stagePanic "patch" "/api/v1/namespaces/a/pods/web" 3]).1

/-- A patch without a terminal stage whose body is on its `ResponseStarted` event. -/
def unansweredPatch : Store :=
  (Store.newStore.add
    [sampleEvent "p" stageRequestReceived "patch" "/api/v1/namespaces/a/pods/web" 3,
      { sampleEvent "p" stageResponseStarted "patch" "/api/v1/namespaces/a/pods/web" 4 with
        requestObject := "\x7b\x7d" }]).1

/-- Both patches are reported without the body one of their stages carries. -/
theorem window_misses_body :
    ((panickedPatch.window opening closing).ops.map fun e =>
          (e.auditID, e.stage, e.requestObject)) = [("p", stagePanic, "")] ∧
      (∃ f ∈ panickedPatch.entries, f.auditID = "p" ∧ f.requestObject ≠ "") ∧
      ((unansweredPatch.window opening closing).ops.map fun e =>
          (e.auditID, e.stage, e.requestObject)) = [("p", stageRequestReceived, "")] ∧
      ∃ f ∈ unansweredPatch.entries, f.auditID = "p" ∧ f.requestObject ≠ "" := by
  decide

end EvidraBench.Audit
