import EvidraBench.Agent.Shell
import EvidraBench.Bench.Accounting

/-!
# The mutations that a command executes

The agent's shell and the timeline read one command string with different grammars. The shell gate
cuts it into segments, each an invocation of a tool; the timeline looks at the first words of the
whole string. A segment mutates (`segmentMutates`) when its subcommand does, flags in front of the
subcommand left aside. Which of a tool's flags take their value from the next word is the tool's
business and a parameter here.

Results: `mutation_classified_iff`, `not_hidden_of_whole`, `read_hides_deletion`.

Source: `pkg/agent/tools.go`
-/

namespace EvidraBench.Bench

open EvidraBench.Gostd EvidraBench.Agent

/-! ### Invocations -/

/-- The flags of a tool that take their value from the next word. -/
abbrev FlagTable := String → String → Bool

/-- The words of an invocation from its subcommand on, where `valued` says which flags have their
value in the next word. -/
def skipFlags (valued : String → Bool) : List String → List String
  | [] => []
  | [word] => if hasPrefix word "-" then [] else [word]
  | word :: next :: rest =>
      if hasPrefix word "-" then
        if valued word && !contains word "=" then skipFlags valued rest
        else skipFlags valued (next :: rest)
      else word :: next :: rest

/-- A tool with a mutating subcommand, the readings of a rollout excepted. -/
def mutatingWords (tool subcommand : String) (third : Option String) : Bool :=
  decide (subcommand ∈ mutationSubcommands tool) &&
    !(tool == "kubectl" && subcommand == "rollout" && third.any (readOnlyRollout.contains ·))

def segmentMutates (valued : FlagTable) (seg : String) : Bool :=
  match fields seg with
  | [] => false
  | tool :: words =>
      match skipFlags (valued tool) words with
      | [] => false
      | subcommand :: rest =>
          mutatingWords tool subcommand (skipFlags (valued tool) rest).head?

/-- The agent's tool accepts the command, and one of its segments mutates.
Source: `validateCommand`, `splitCompoundCommand` -/
def Executes (valued : FlagTable) (command : String) : Prop :=
  validateCommand command = .ok () ∧
    ∃ segs, splitCompoundCommand (trimSpace command) = .ok segs ∧
      ∃ seg ∈ segs, segmentMutates valued seg = true

/-- The first words of the command are a tool and a mutating subcommand. -/
def startsWithMutation (command : String) : Bool :=
  match fields command with
  | tool :: subcommand :: rest => mutatingWords tool subcommand rest.head?
  | _ => false

/-- The command executes a mutation that its first words do not show. -/
def Hidden (valued : FlagTable) (command : String) : Prop :=
  Executes valued command ∧ startsWithMutation command = false

/-! ### Classification -/

theorem not_mem_mutationSubcommands_empty (tool : String) : "" ∉ mutationSubcommands tool := by
  unfold mutationSubcommands
  split_ifs <;> decide

theorem isMutationCmd_eq (command : String) :
    isMutationCmd (parseCommand command).1 (parseCommand command).2.1 command =
      startsWithMutation command := by
  unfold isMutationCmd parseCommand startsWithMutation mutatingWords
  match hwords : fields command with
  | [] => simp [not_mem_mutationSubcommands_empty]
  | [tool] => simp [not_mem_mutationSubcommands_empty]
  | [tool, subcommand] =>
    by_cases hsub : subcommand ∈ mutationSubcommands tool <;> simp [hsub]
  | tool :: subcommand :: third :: rest =>
    by_cases hsub : subcommand ∈ mutationSubcommands tool
    · by_cases hrollout : tool = "kubectl" ∧ subcommand = "rollout"
      · simp [hrollout, mutationSubcommands]
      · simp only [hsub, not_true_eq_false, if_false, hrollout, decide_true, Bool.true_and,
          Bool.not_and, List.head?_cons, Option.any_some]
        rcases not_and_or.mp hrollout with h | h <;> simp [h]
    · simp [hsub]

/-- A command that executes a mutation is classified as an act, except where its first words do
not show the mutation.
Source: `pkg/bench/timeline_parse.go` `Parse`, `isMutationCmd`; `validateCommand`,
`splitCompoundCommand` -/
theorem mutation_classified_iff (yaml : ManifestDecoder) (valued : FlagTable)
    {calls : List ToolCall} {i : Nat} {call : ToolCall} {command : String}
    (hcall : calls[i]? = some call) (htool : call.tool = "run_command")
    (hcommand : extractCommand call.args = command) :
    (Executes valued command → (parse yaml calls).ActsAt i) ↔ ¬ Hidden valued command := by
  have hmutates : Mutates call ↔ startsWithMutation command = true := by
    rw [← isMutationCmd_eq, ← hcommand]
    refine or_iff_left_of_imp ?_ |>.trans (and_iff_right htool)
    intro hmcp
    exact absurd htool (tool_ne_run_command (.inl hmcp))
  have hacts : (parse yaml calls).ActsAt i ↔ startsWithMutation command = true := by
    have hrun : (parse yaml calls).ActsAt i ↔ _ := actsAt_run yaml calls i
    rw [hcall] at hrun
    simpa [hmutates] using hrun
  rw [hacts, Hidden, ← Bool.not_eq_true, not_and_not_right]

theorem skipFlags_of_not_flag (valued : String → Bool) {word : String}
    (h : hasPrefix word "-" = false) : ∀ rest, skipFlags valued (word :: rest) = word :: rest
  | [] => by simp [skipFlags, h]
  | _ :: _ => by simp [skipFlags, h]

example : skipFlags (· == "-n") ["-n", "bench", "--all", "delete", "-f"] = ["delete", "-f"] := by
  decide +kernel

theorem not_hidden_of_whole {valued : FlagTable} {command tool subcommand : String}
    {rest : List String} (hone : splitCompoundCommand (trimSpace command) = .ok [trimSpace command])
    (hwords : fields command = tool :: subcommand :: rest)
    (hplace : hasPrefix subcommand "-" = false) : ¬ Hidden valued command := by
  rintro ⟨⟨-, segs, hsegs, seg, hseg, hmutates⟩, hstarts⟩
  rw [hone] at hsegs
  cases hsegs
  rw [List.mem_singleton.mp hseg] at hmutates
  simp only [segmentMutates, fields_trimSpace, hwords, skipFlags_of_not_flag _ hplace,
    mutatingWords, Bool.and_eq_true, decide_eq_true_eq] at hmutates
  simp only [startsWithMutation, hwords, mutatingWords, hmutates.1, decide_true, Bool.true_and,
    Bool.not_eq_false'] at hstarts
  -- the third word reads a rollout, so it is no flag, and the segment does not mutate
  have hthird : (skipFlags (valued tool) rest).head? = rest.head? := by
    cases rest with
    | nil => rfl
    | cons word rest =>
      have hreads : word ∈ readOnlyRollout := by
        simpa using (Bool.and_eq_true_iff.mp hstarts).2
      have hall : ∀ w ∈ readOnlyRollout, hasPrefix w "-" = false := by decide +kernel
      rw [skipFlags_of_not_flag _ (hall word hreads)]
  rw [hthird, hstarts] at hmutates
  exact absurd hmutates.2 (by decide)

/-! ### Two hidden mutations -/

/-- Some flags of `kubectl` that have their value in the next word. -/
def kubectlFlags : FlagTable := fun tool flag =>
  tool == "kubectl" && ["-n", "--namespace", "--context", "--kubeconfig"].contains flag

def runCommand (args : String) : ToolCall where
  tool := "run_command"
  args := bytesOf args

def deletePod : ToolCall := runCommand "\x7b\"command\":\"kubectl delete pod web\"\x7d"

/-- The agent lists pods and deletes a namespace in one command. -/
def listThenDelete : ToolCall :=
  runCommand "\x7b\"command\":\"kubectl get pods && kubectl delete namespace prod\"\x7d"

/-- The agent deletes a pod, the namespace given first. -/
def deleteWithFlag : ToolCall := runCommand "\x7b\"command\":\"kubectl -n prod delete pod web\"\x7d"

/-- Deleting a pod is an act. -/
theorem mutation_classified_iff_deletePod :
    Executes kubectlFlags "kubectl delete pod web" ∧ (parse noManifest [deletePod]).ActsAt 0 := by
  have hexecutes : Executes kubectlFlags "kubectl delete pod web" :=
    ⟨by decide +kernel, ["kubectl delete pod web"], by decide +kernel, by decide +kernel⟩
  have hwords : fields "kubectl delete pod web" = ["kubectl", "delete", "pod", "web"] := by
    decide +kernel
  refine ⟨hexecutes, (mutation_classified_iff noManifest kubectlFlags rfl rfl ?_).mpr ?_ hexecutes⟩
  · decide +kernel
  · exact not_hidden_of_whole (by decide +kernel) hwords (by decide +kernel)

/-- **A deletion after a read, or behind a flag, is taken for a read.** -/
theorem read_hides_deletion :
    (Executes kubectlFlags "kubectl get pods && kubectl delete namespace prod" ∧
        (parse noManifest [listThenDelete]).steps.map (fun s => (s.phase, s.command)) =
          [(.discover, "kubectl get pods && kubectl delete namespace prod")] ∧
        ¬ (parse noManifest [listThenDelete]).ActsAt 0) ∧
      (Executes kubectlFlags "kubectl -n prod delete pod web" ∧
        (parse noManifest [deleteWithFlag]).steps.map (fun s => (s.phase, s.command)) =
          [(.discover, "kubectl -n prod delete pod web")] ∧
        ¬ (parse noManifest [deleteWithFlag]).ActsAt 0) := by
  refine ⟨⟨⟨?_, ["kubectl get pods", "kubectl delete namespace prod"], ?_, ?_⟩, ?_, ?_⟩,
    ⟨⟨?_, ["kubectl -n prod delete pod web"], ?_, ?_⟩, ?_, ?_⟩⟩
  all_goals decide +kernel

end EvidraBench.Bench
