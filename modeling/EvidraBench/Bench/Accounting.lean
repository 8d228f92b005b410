import EvidraBench.Bench.Timeline
import Mathlib.Data.List.Basic

/-!
# The counters of a timeline

`Parse` walks over the tool calls once, with two parsers that share what has been seen so far and
count in different places. `Progress.advance_does` says once what a call can do to the progress
(it is skipped, it acts, or it reads), and `parse_induction` is the rule that takes an invariant
from one call to all of them.

Three invariants use the rule: what is remembered of the calls (`Remembers`), how the counters
relate to the steps (`Tallies`), and how the steps are ordered (`Sequenced`). All equalities but
one hold on every list of calls. The diagnosis depth is counted by the parser of commands alone,
so it falls behind by the diagnose steps of the MCP tools (`Tallies.depth`); `accounted_iff` says
on which calls that happens.

Source: `pkg/bench/timeline_parse.go`
-/

namespace EvidraBench.Bench

open EvidraBench.Gostd

/-! ### What a call does -/

/-- A call whose step is an act step.
Source: `Parse`, `parseMCPToolCall` -/
def Mutates (call : ToolCall) : Prop :=
  (call.tool = "run_command" ∧ isMutationCall call = true) ∨ call.tool ∈ mcpMutationTools

/-- A call whose step reads.
Source: `Parse`, `parseMCPToolCall` -/
def Reads (call : ToolCall) : Prop :=
  (call.tool = "run_command" ∧ isMutationCall call = false) ∨ call.tool ∈ mcpReadTools

instance (call : ToolCall) : Decidable (Mutates call) := by unfold Mutates; infer_instance

instance (call : ToolCall) : Decidable (Reads call) := by unfold Reads; infer_instance

/-- Whether a call that reads is a diagnosis from the first on.
Source: `isDiagnosis`, `isMCPDiagnosticTool` -/
def diagnoses (call : ToolCall) : Bool :=
  if call.tool = "run_command" then isDiagnosisCall call else isMCPDiagnosticTool call.tool

/-- What a call can do to the progress.
Source: `Parse` -/
inductive Progress.Does (p : Progress) (index : Nat) (call : ToolCall) : Progress → Prop
  | skip (hm : ¬ Mutates call) (hr : ¬ Reads call) : Does p index call p
  | act (step : TimelineStep) (hm : Mutates call) (hi : step.index = index)
      (ht : step.tool = call.tool) (hp : step.phase = .act) :
      Does p index call
        ⟨{ p.timeline.add step with mutationCount := p.timeline.mutationCount + 1 }, true,
          p.readOnlyCount⟩
  | read (step : TimelineStep) (hm : ¬ Mutates call) (hr : Reads call) (hi : step.index = index)
      (ht : step.tool = call.tool)
      (hp : step.phase = readPhase p.seenMutation (diagnoses call) p.readOnlyCount) :
      Does p index call
        ⟨{ p.timeline.add step with
            diagnosisDepth :=
              if step.tool = "run_command" ∧ step.phase = .diagnose then
                p.timeline.diagnosisDepth + 1
              else p.timeline.diagnosisDepth },
          p.seenMutation, p.readOnlyCount + 1⟩

theorem not_mem_mcpMutationTools {tool : String} (h : tool ∈ mcpReadTools) :
    tool ∉ mcpMutationTools := by
  intro hm
  have hdisjoint : ∀ t ∈ mcpReadTools, t ∉ mcpMutationTools := by decide
  exact hdisjoint tool h hm

theorem readPhase_ne_act (seen diagnostic : Bool) (n : Nat) :
    readPhase seen diagnostic n ≠ .act := by
  unfold readPhase
  split_ifs <;> simp

theorem parseMCPToolCall_of_mutation (yaml : ManifestDecoder) (index : Nat) {call : ToolCall}
    (seen : Bool) (n : Nat) (h : call.tool ∈ mcpMutationTools) :
    ∃ operation ref,
      parseMCPToolCall yaml index call seen n =
        some (mcpMutationStep index call operation ref) := by
  unfold parseMCPToolCall
  split_ifs with h₁ h₂ h₃ h₄ hread
  · exact ⟨_, _, rfl⟩
  · exact ⟨_, _, rfl⟩
  · exact ⟨_, _, rfl⟩
  · exact ⟨_, _, rfl⟩
  · exact absurd h (not_mem_mcpMutationTools hread)
  · simp [mcpMutationTools, h₁, h₂, h₃, h₄] at h

theorem parseMCPToolCall_of_not_mutation (yaml : ManifestDecoder) (index : Nat) {call : ToolCall}
    (seen : Bool) (n : Nat) (h : call.tool ∉ mcpMutationTools) :
    parseMCPToolCall yaml index call seen n =
      if call.tool ∈ mcpReadTools then some (mcpReadStep index call seen n) else none := by
  simp only [mcpMutationTools, List.mem_cons, List.not_mem_nil, or_false, not_or] at h
  obtain ⟨h₁, h₂, h₃, h₄⟩ := h
  rw [parseMCPToolCall, if_neg h₁, if_neg h₂, if_neg h₃, if_neg h₄]

theorem tool_ne_run_command {tool : String} (h : tool ∈ mcpMutationTools ∨ tool ∈ mcpReadTools) :
    tool ≠ "run_command" := by
  rintro rfl
  revert h
  decide

theorem Progress.advance_does (yaml : ManifestDecoder) (p : Progress) (index : Nat)
    (call : ToolCall) : p.Does index call (p.advance yaml index call) := by
  unfold Progress.advance
  by_cases htool : call.tool = "run_command"
  · rw [if_pos htool]
    cases hmut : isMutationCall call with
    | true =>
      rw [if_pos rfl]
      exact .act (commandStep index call .act) (.inl ⟨htool, hmut⟩) rfl rfl rfl
    | false =>
      have hm : ¬ Mutates call := by
        rintro (⟨-, h⟩ | h)
        · rw [hmut] at h
          exact absurd h (by decide)
        · exact tool_ne_run_command (.inl h) htool
      have hdiag : diagnoses call = isDiagnosisCall call := if_pos htool
      rw [if_neg (by decide), ← hdiag]
      have hdoes := Does.read (p := p)
        (commandStep index call (readPhase p.seenMutation (diagnoses call) p.readOnlyCount)) hm
        (.inl ⟨htool, hmut⟩) rfl rfl rfl
      simpa only [commandStep, htool, true_and] using hdoes
  · rw [if_neg htool]
    by_cases hmut : call.tool ∈ mcpMutationTools
    · obtain ⟨operation, ref, hstep⟩ :=
        parseMCPToolCall_of_mutation yaml index p.seenMutation p.readOnlyCount hmut
      rw [hstep]
      exact .act (mcpMutationStep index call operation ref) (.inr hmut) rfl rfl rfl
    · have hm : ¬ Mutates call := by
        rintro (⟨h, -⟩ | h)
        · exact htool h
        · exact hmut h
      rw [parseMCPToolCall_of_not_mutation yaml index _ _ hmut]
      by_cases hread : call.tool ∈ mcpReadTools
      · have hdiag : diagnoses call = isMCPDiagnosticTool call.tool := if_neg htool
        have hp : (mcpReadStep index call p.seenMutation p.readOnlyCount).phase =
            readPhase p.seenMutation (diagnoses call) p.readOnlyCount := by
          rw [hdiag]
          rfl
        have hdoes := Does.read (p := p) _ hm (.inr hread) rfl rfl hp
        rw [if_neg (fun h => htool h.1)] at hdoes
        rw [if_pos hread]
        simp only [hp, readPhase_ne_act, if_false]
        exact hdoes
      · rw [if_neg hread]
        refine .skip hm ?_
        rintro (⟨h, -⟩ | h)
        · exact htool h
        · exact hread h

theorem parse_induction (yaml : ManifestDecoder) {I : List ToolCall → Progress → Prop}
    (start : I [] {})
    (step : ∀ done p call p', I done p → Progress.Does p done.length call p' →
      I (done ++ [call]) p') (calls : List ToolCall) : I calls (Progress.run yaml {} 0 calls) := by
  -- the calls done so far are what the induction is generalised over
  have hrun : ∀ (rest done : List ToolCall) (p : Progress), I done p →
      I (done ++ rest) (Progress.run yaml p done.length rest) := by
    intro rest
    induction rest with
    | nil =>
      intro done p hp
      rw [List.append_nil]
      exact hp
    | cons call rest ih =>
      intro done p hp
      have hnext := ih (done ++ [call]) _ (step done p call _ hp (p.advance_does yaml _ call))
      rw [List.append_assoc, List.length_append] at hnext
      exact hnext
  exact hrun calls [] {} start

/-! ### What is remembered of the calls -/

/-- The progress remembers whether a call has mutated, and whether one has read. -/
structure Remembers (done : List ToolCall) (p : Progress) : Prop where
  seen : p.seenMutation = true ↔ ∃ c ∈ done, Mutates c
  read : 0 < p.readOnlyCount ↔ ∃ c ∈ done, Reads c

theorem exists_mem_concat {P : ToolCall → Prop} {done : List ToolCall} {call : ToolCall} :
    (∃ c ∈ done ++ [call], P c) ↔ (∃ c ∈ done, P c) ∨ P call := by
  simp only [List.mem_append, List.mem_singleton, or_and_right, exists_or, exists_eq_left]

theorem Mutates.not_reads {call : ToolCall} (h : Mutates call) : ¬ Reads call := by
  rintro (⟨htool, hmut⟩ | hread)
  · rcases h with ⟨-, h⟩ | h
    · rw [hmut] at h
      exact absurd h (by decide)
    · exact tool_ne_run_command (.inl h) htool
  · rcases h with ⟨htool, -⟩ | h
    · exact tool_ne_run_command (.inr hread) htool
    · exact not_mem_mcpMutationTools hread h

theorem Remembers.does {done : List ToolCall} {p p' : Progress} {index : Nat} {call : ToolCall}
    (h : Remembers done p) (hd : p.Does index call p') : Remembers (done ++ [call]) p' := by
  cases hd with
  | skip hm hr =>
    constructor
    · rw [exists_mem_concat, h.seen, or_iff_left hm]
    · rw [exists_mem_concat, h.read, or_iff_left hr]
  | act step hm hi ht hp =>
    constructor
    · rw [exists_mem_concat]
      exact iff_of_true rfl (.inr hm)
    · rw [exists_mem_concat, h.read, or_iff_left hm.not_reads]
  | read step hm hr hi ht hp =>
    constructor
    · rw [exists_mem_concat, h.seen, or_iff_left hm]
    · rw [exists_mem_concat]
      exact iff_of_true (Nat.succ_pos _) (.inr hr)

theorem remembers_run (yaml : ManifestDecoder) (calls : List ToolCall) :
    Remembers calls (Progress.run yaml {} 0 calls) := by
  refine parse_induction yaml ?_ ?_ calls
  · constructor <;> simp
  · intro done p call p' h hd
    exact h.does hd

/-! ### Counters and steps -/

/-- A diagnose step of an MCP tool: the one kind of step the depth does not count. -/
def TimelineStep.Unnoticed (s : TimelineStep) : Prop :=
  s.phase = .diagnose ∧ s.tool ≠ "run_command"

instance (s : TimelineStep) : Decidable s.Unnoticed := by
  unfold TimelineStep.Unnoticed
  infer_instance

/-- How the counters of a timeline relate to its steps. -/
structure Tallies (tl : Timeline) : Prop where
  counts : ∀ φ, tl.phaseCount φ = tl.steps.countP (·.phase = φ)
  mutations : tl.mutationCount = tl.phaseCount .act
  depth : tl.phaseCount .diagnose = tl.diagnosisDepth + tl.steps.countP (·.Unnoticed)

theorem phaseCount_add (tl : Timeline) (step : TimelineStep) (φ : Phase) :
    (tl.add step).phaseCount φ = tl.phaseCount φ + if step.phase = φ then 1 else 0 := by
  unfold Timeline.add
  by_cases h : step.phase = φ
  · subst h
    simp
  · rw [if_neg h]
    exact Function.update_of_ne (Ne.symm h) _ _

theorem countP_steps_add (tl : Timeline) (step : TimelineStep) (P : TimelineStep → Prop)
    [DecidablePred P] :
    (tl.add step).steps.countP (fun s => decide (P s)) =
      tl.steps.countP (fun s => decide (P s)) + if P step then 1 else 0 := by
  simp [Timeline.add, List.countP_append, List.countP_cons]

theorem Tallies.does {p p' : Progress} {index : Nat} {call : ToolCall} (h : Tallies p.timeline)
    (hd : p.Does index call p') : Tallies p'.timeline := by
  cases hd with
  | skip hm hr => exact h
  | act step hm hi ht hp =>
    have hnot : ¬ step.Unnoticed := by
      rintro ⟨hdiag, -⟩
      simp [hp] at hdiag
    constructor
    · intro φ
      show (p.timeline.add step).phaseCount φ = _
      rw [phaseCount_add, h.counts, countP_steps_add p.timeline step (·.phase = φ)]
    · show p.timeline.mutationCount + 1 = (p.timeline.add step).phaseCount .act
      rw [phaseCount_add, if_pos hp, h.mutations]
    · show (p.timeline.add step).phaseCount .diagnose = _
      rw [phaseCount_add, if_neg (by simp [hp]), countP_steps_add p.timeline step (·.Unnoticed),
        if_neg hnot]
      exact h.depth
  | read step hm hr hi ht hp =>
    have hact : step.phase ≠ .act := hp ▸ readPhase_ne_act _ _ _
    constructor
    · intro φ
      show (p.timeline.add step).phaseCount φ = _
      rw [phaseCount_add, h.counts, countP_steps_add p.timeline step (·.phase = φ)]
    · show p.timeline.mutationCount = (p.timeline.add step).phaseCount .act
      rw [phaseCount_add, if_neg hact, h.mutations]
      rfl
    · show (p.timeline.add step).phaseCount .diagnose = _
      rw [phaseCount_add, countP_steps_add p.timeline step (·.Unnoticed), h.depth]
      -- a diagnose step is counted by the depth or unnoticed, by its tool
      by_cases hdiag : step.phase = .diagnose
      · by_cases hrun : step.tool = "run_command"
        · simp only [TimelineStep.Unnoticed, hdiag, hrun, ne_eq, not_true_eq_false, and_self,
            and_false, if_true, if_false]
          omega
        · simp only [TimelineStep.Unnoticed, hdiag, hrun, ne_eq, not_false_eq_true, and_self,
            false_and, if_true, if_false]
          omega
      · simp only [TimelineStep.Unnoticed, hdiag, and_false, false_and, if_false]
        omega

theorem tallies_run (yaml : ManifestDecoder) (calls : List ToolCall) :
    Tallies (Progress.run yaml {} 0 calls).timeline := by
  refine parse_induction yaml (I := fun _ p => Tallies p.timeline) ⟨?_, rfl, rfl⟩ ?_ calls
  · intro φ
    rfl
  · intro done p call p' h hd
    exact h.does hd

theorem sum_countP_phase (steps : List TimelineStep) :
    (Phase.all.map fun φ => steps.countP (·.phase = φ)).sum = steps.length := by
  induction steps with
  | nil => rfl
  | cons s rest ih =>
    have hone : (Phase.all.map fun φ => if s.phase = φ then 1 else 0).sum = 1 := by
      cases s.phase <;> rfl
    simp only [List.countP_cons, decide_eq_true_eq, List.sum_map_add, ih, hone, List.length_cons]

/-! ### The order of the steps -/

/-- The steps stand in the order of their calls, reads before the first act are discovery or
diagnosis, and reads after it verify. -/
structure Sequenced (done : List ToolCall) (p : Progress) : Prop where
  increasing : p.timeline.steps.Pairwise (·.index < ·.index)
  placed : ∀ s ∈ p.timeline.steps, s.index < done.length
  seen : p.seenMutation = true ↔ ∃ s ∈ p.timeline.steps, s.phase = .act
  settled : ∀ a ∈ p.timeline.steps, ∀ s ∈ p.timeline.steps, a.phase = .act → a.index < s.index →
    s.phase ≠ .discover ∧ s.phase ≠ .diagnose
  verified : ∀ s ∈ p.timeline.steps, s.phase = .verify →
    ∃ a ∈ p.timeline.steps, a.phase = .act ∧ a.index < s.index

theorem mem_steps_add {tl : Timeline} {step s : TimelineStep} :
    s ∈ (tl.add step).steps ↔ s ∈ tl.steps ∨ s = step := by
  simp [Timeline.add]

theorem Sequenced.add {done : List ToolCall} {p : Progress} {call : ToolCall}
    {step : TimelineStep} (h : Sequenced done p) (hi : step.index = done.length)
    (hread : p.seenMutation = true → step.phase ≠ .discover ∧ step.phase ≠ .diagnose)
    (hverify : step.phase = .verify → p.seenMutation = true) {p' : Progress}
    (hsteps : p'.timeline.steps = (p.timeline.add step).steps)
    (hseen : p'.seenMutation = true ↔ p.seenMutation = true ∨ step.phase = .act) :
    Sequenced (done ++ [call]) p' := by
  have hlast : ∀ s ∈ p.timeline.steps, s.index < step.index := by
    intro s hs
    rw [hi]
    exact h.placed s hs
  have hmem : ∀ s, s ∈ p'.timeline.steps ↔ s ∈ p.timeline.steps ∨ s = step := by
    intro s
    rw [hsteps, mem_steps_add]
  constructor
  · rw [hsteps]
    refine List.pairwise_append.mpr ⟨h.increasing, List.pairwise_singleton _ _, ?_⟩
    intro s hs t ht
    rw [List.mem_singleton.mp ht]
    exact hlast s hs
  · intro s hs
    rw [List.length_append]
    rcases (hmem s).mp hs with hs | rfl
    · exact Nat.lt_succ_of_lt (h.placed s hs)
    · rw [hi]
      exact Nat.lt_succ_self _
  · rw [hseen, h.seen]
    constructor
    · rintro (⟨s, hs, ha⟩ | ha)
      · exact ⟨s, (hmem s).mpr (.inl hs), ha⟩
      · exact ⟨step, (hmem step).mpr (.inr rfl), ha⟩
    · rintro ⟨s, hs, ha⟩
      rcases (hmem s).mp hs with hs | rfl
      · exact .inl ⟨s, hs, ha⟩
      · exact .inr ha
  · intro a ha s hs hact hlt
    rcases (hmem s).mp hs with hs | rfl
    · rcases (hmem a).mp ha with ha | rfl
      · exact h.settled a ha s hs hact hlt
      · exact absurd (hlast s hs) (Nat.lt_asymm hlt)
    · rcases (hmem a).mp ha with ha | rfl
      · exact hread (h.seen.mpr ⟨a, ha, hact⟩)
      · exact absurd hlt (Nat.lt_irrefl _)
  · intro s hs hv
    rcases (hmem s).mp hs with hs | rfl
    · obtain ⟨a, ha, hact, hlt⟩ := h.verified s hs hv
      exact ⟨a, (hmem a).mpr (.inl ha), hact, hlt⟩
    · obtain ⟨a, ha, hact⟩ := h.seen.mp (hverify hv)
      exact ⟨a, (hmem a).mpr (.inl ha), hact, hlast a ha⟩

theorem readPhase_of_seen (diagnostic : Bool) (n : Nat) : readPhase true diagnostic n = .verify :=
  if_pos rfl

theorem seen_of_readPhase_eq_verify {seen diagnostic : Bool} {n : Nat}
    (h : readPhase seen diagnostic n = .verify) : seen = true := by
  unfold readPhase at h
  split_ifs at h with hseen
  exact hseen

theorem Sequenced.does {done : List ToolCall} {p p' : Progress} {call : ToolCall}
    (h : Sequenced done p) (hd : p.Does done.length call p') : Sequenced (done ++ [call]) p' := by
  cases hd with
  | skip hm hr =>
    refine ⟨h.increasing, ?_, h.seen, h.settled, h.verified⟩
    intro s hs
    rw [List.length_append]
    exact Nat.lt_succ_of_lt (h.placed s hs)
  | act step hm hi ht hp =>
    refine h.add hi ?_ ?_ rfl ?_
    · simp [hp]
    · simp [hp]
    · simp [hp]
  | read step hm hr hi ht hp =>
    refine h.add hi ?_ ?_ rfl ?_
    · intro hseen
      rw [hp, hseen, readPhase_of_seen]
      decide
    · intro hv
      exact seen_of_readPhase_eq_verify (hp.symm.trans hv)
    · have hact : step.phase ≠ .act := hp ▸ readPhase_ne_act _ _ _
      rw [or_iff_left hact]

theorem sequenced_run (yaml : ManifestDecoder) (calls : List ToolCall) :
    Sequenced calls (Progress.run yaml {} 0 calls) := by
  refine parse_induction yaml ?_ ?_ calls
  · constructor <;> simp
  · intro done p call p' h hd
    exact h.does hd

/-! ### The steps that act -/

def Timeline.ActsAt (tl : Timeline) (i : Nat) : Prop :=
  ∃ s ∈ tl.steps, s.index = i ∧ s.phase = .act

instance (tl : Timeline) (i : Nat) : Decidable (tl.ActsAt i) :=
  inferInstanceAs (Decidable (∃ s ∈ tl.steps, s.index = i ∧ s.phase = .act))

theorem actsAt_add (tl : Timeline) (step : TimelineStep) (i : Nat) :
    (tl.add step).ActsAt i ↔ tl.ActsAt i ∨ (step.index = i ∧ step.phase = .act) := by
  simp only [Timeline.ActsAt, mem_steps_add, or_and_right, exists_or, exists_eq_left]

theorem actsAt_run (yaml : ManifestDecoder) (calls : List ToolCall) :
    ∀ i, (Progress.run yaml {} 0 calls).timeline.ActsAt i ↔ ∃ c ∈ calls[i]?, Mutates c := by
  refine parse_induction yaml (I := fun done p =>
    ∀ i, p.timeline.ActsAt i ↔ ∃ c ∈ done[i]?, Mutates c) ?_ ?_ calls
  · intro i
    simp [Timeline.ActsAt]
  · intro done p call p' h hd i
    -- the last call is the only new one
    have hnew : (∃ c ∈ (done ++ [call])[i]?, Mutates c) ↔
        (∃ c ∈ done[i]?, Mutates c) ∨ (done.length = i ∧ Mutates call) := by
      rcases lt_trichotomy i done.length with hlt | rfl | hgt
      · simp [List.getElem?_append_left hlt, hlt.ne']
      · simp
      · simp [List.getElem?_eq_none (show (done ++ [call]).length ≤ i by simp; omega),
          List.getElem?_eq_none hgt.le, hgt.ne]
    rw [hnew, ← h]
    cases hd with
    | skip hm hr => simp [hm]
    | act step hm hi ht hp =>
      have hadd := actsAt_add p.timeline step i
      rw [hi, and_iff_left hp] at hadd
      rw [and_iff_left hm]
      exact hadd
    | read step hm hr hi ht hp =>
      have hact : step.phase ≠ .act := hp ▸ readPhase_ne_act _ _ _
      have hadd := actsAt_add p.timeline step i
      rw [or_iff_left fun h => hact h.2] at hadd
      rw [or_iff_left fun h => hm h.2]
      exact hadd

/-! ### The calls whose diagnosis is not counted -/

/-- After these calls, the call is an MCP read whose step is a diagnosis: nothing has mutated yet,
and the tool is a diagnostic one or something has been read before.
Source: `parseMCPToolCall` -/
def UncountedAfter (done : List ToolCall) (call : ToolCall) : Prop :=
  call.tool ∈ mcpReadTools ∧ (∀ c ∈ done, ¬ Mutates c) ∧
    (isMCPDiagnosticTool call.tool = true ∨ ∃ c ∈ done, Reads c)

/-- Some MCP read among the calls is a diagnosis. -/
def Uncounted (calls : List ToolCall) : Prop :=
  ∃ done call rest, calls = done ++ call :: rest ∧ UncountedAfter done call

theorem uncounted_concat {done : List ToolCall} {call : ToolCall} :
    Uncounted (done ++ [call]) ↔ Uncounted done ∨ UncountedAfter done call := by
  constructor
  · rintro ⟨before, c, rest, hsplit, hc⟩
    rcases List.eq_nil_or_concat rest with rfl | ⟨init, last, rfl⟩
    · obtain ⟨rfl, hcall⟩ := List.append_inj' hsplit rfl
      rw [List.singleton_inj] at hcall
      exact .inr (hcall ▸ hc)
    · rw [List.concat_eq_append, ← List.cons_append, ← List.append_assoc] at hsplit
      obtain ⟨rfl, -⟩ := List.append_inj' hsplit rfl
      exact .inl ⟨before, c, init, rfl, hc⟩
  · rintro (⟨before, c, rest, rfl, hc⟩ | hc)
    · exact ⟨before, c, rest ++ [call], by simp, hc⟩
    · exact ⟨done, call, [], rfl, hc⟩

theorem readPhase_eq_diagnose_iff {seen diagnostic : Bool} {n : Nat} :
    readPhase seen diagnostic n = .diagnose ↔ ¬ seen = true ∧ (diagnostic = true ∨ 0 < n) := by
  unfold readPhase
  split_ifs with hseen hdiag
  · simp [hseen]
  · exact iff_of_true rfl ⟨hseen, hdiag⟩
  · exact iff_of_false (by decide) fun h => hdiag h.2

theorem unnoticed_iff {done : List ToolCall} {p : Progress} {call : ToolCall}
    {step : TimelineStep} (h : Remembers done p) (hr : Reads call) (ht : step.tool = call.tool)
    (hp : step.phase = readPhase p.seenMutation (diagnoses call) p.readOnlyCount) :
    step.Unnoticed ↔ UncountedAfter done call := by
  unfold TimelineStep.Unnoticed UncountedAfter
  rw [hp, readPhase_eq_diagnose_iff, h.seen, h.read, ht]
  by_cases htool : call.tool = "run_command"
  · have hmcp : call.tool ∉ mcpReadTools := fun hm => tool_ne_run_command (.inr hm) htool
    simp only [htool, ne_eq, not_true_eq_false, and_false, false_iff]
    rintro ⟨hm, -⟩
    exact hmcp (htool ▸ hm)
  · have hmcp : call.tool ∈ mcpReadTools := hr.resolve_left fun h => htool h.1
    have hdiag : diagnoses call = isMCPDiagnosticTool call.tool := if_neg htool
    simp only [hdiag, hmcp, htool, ne_eq, not_false_eq_true, and_true, true_and, not_exists,
      not_and]

theorem exists_unnoticed_iff (yaml : ManifestDecoder) (calls : List ToolCall) :
    (∃ s ∈ (Progress.run yaml {} 0 calls).timeline.steps, s.Unnoticed) ↔ Uncounted calls := by
  suffices h : Remembers calls (Progress.run yaml {} 0 calls) ∧
      ((∃ s ∈ (Progress.run yaml {} 0 calls).timeline.steps, s.Unnoticed) ↔ Uncounted calls) from
    h.2
  refine parse_induction yaml (I := fun done p =>
    Remembers done p ∧ ((∃ s ∈ p.timeline.steps, s.Unnoticed) ↔ Uncounted done)) ⟨?_, ?_⟩ ?_ calls
  · exact remembers_run yaml []
  · simp [Uncounted]
  · rintro done p call p' ⟨hrem, hiff⟩ hd
    refine ⟨hrem.does hd, ?_⟩
    rw [uncounted_concat, ← hiff]
    cases hd with
    | skip hm hr =>
      refine (or_iff_left ?_).symm
      intro hu
      exact hr (.inr hu.1)
    | act step hm hi ht hp =>
      have hnot : ¬ UncountedAfter done call := fun hu => hm.not_reads (.inr hu.1)
      have hstep : ¬ step.Unnoticed := by
        rintro ⟨hdiag, -⟩
        simp [hp] at hdiag
      simp only [mem_steps_add, or_and_right, exists_or, exists_eq_left, hnot, hstep]
    | read step hm hr hi ht hp =>
      simp only [mem_steps_add, or_and_right, exists_or, exists_eq_left,
        unnoticed_iff hrem hr ht hp]

/-! ### The accounting of a timeline -/

/-- Every counter of the timeline agrees with the others, and the steps are in order.
Source: `pkg/bench/timeline_types.go` `Timeline` -/
structure Timeline.Accounted (tl : Timeline) : Prop where
  total : tl.totalSteps = tl.steps.length
  sum : tl.steps.length = (Phase.all.map tl.phaseCount).sum
  mutations : tl.mutationCount = tl.phaseCount .act
  depth : tl.diagnosisDepth = tl.phaseCount .diagnose
  increasing : tl.steps.Pairwise (·.index < ·.index)
  settled : ∀ a ∈ tl.steps, ∀ s ∈ tl.steps, a.phase = .act → a.index < s.index →
    s.phase ≠ .discover ∧ s.phase ≠ .diagnose
  verified : ∀ s ∈ tl.steps, s.phase = .verify → ∃ a ∈ tl.steps, a.phase = .act ∧ a.index < s.index

theorem Tallies.depth_eq_iff {tl : Timeline} (h : Tallies tl) :
    tl.diagnosisDepth = tl.phaseCount .diagnose ↔ ¬ ∃ s ∈ tl.steps, s.Unnoticed := by
  have hzero : tl.steps.countP (·.Unnoticed) = 0 ↔ ¬ ∃ s ∈ tl.steps, s.Unnoticed := by
    simp [List.countP_eq_zero]
  rw [h.depth, ← hzero]
  omega

/-- The timeline of any calls is accounted for unless an MCP read among them is a diagnosis: the
depth counts the diagnoses of commands only.
Source: `Parse` -/
theorem accounted_iff (yaml : ManifestDecoder) (calls : List ToolCall) :
    (parse yaml calls).Accounted ↔ ¬ Uncounted calls := by
  have htallies := tallies_run yaml calls
  have hsequence := sequenced_run yaml calls
  rw [← exists_unnoticed_iff yaml calls, ← htallies.depth_eq_iff]
  constructor
  · intro h
    exact h.depth
  · intro hdepth
    refine ⟨rfl, ?_, htallies.mutations, hdepth, hsequence.increasing, hsequence.settled,
      hsequence.verified⟩
    rw [← sum_countP_phase]
    exact congrArg List.sum (List.map_congr_left fun φ _ => (htallies.counts φ).symm)

/-- A run that reads the logs of a pod through MCP. -/
def podLog : ToolCall where
  tool := "pods_log"
  args := bytesOf "\x7b\"name\":\"web\",\"namespace\":\"bench\"\x7d"
  result := "Error: cannot open config"

def noManifest : ManifestDecoder := fun _ => none

/-- Reading the logs of a pod through MCP is a diagnose step, and the depth stays at zero. -/
theorem mcp_diagnosis_uncounted :
    (parse noManifest [podLog]).steps.map (·.phase) = [.diagnose] ∧
      (parse noManifest [podLog]).phaseCount .diagnose = 1 ∧
      (parse noManifest [podLog]).diagnosisDepth = 0 ∧ ¬ (parse noManifest [podLog]).Accounted := by
  have hcount : (parse noManifest [podLog]).phaseCount .diagnose = 1 := rfl
  have hdepth : (parse noManifest [podLog]).diagnosisDepth = 0 := rfl
  refine ⟨rfl, hcount, hdepth, ?_⟩
  intro h
  have hequal := h.depth
  rw [hcount, hdepth] at hequal
  exact absurd hequal (by decide)

end EvidraBench.Bench
