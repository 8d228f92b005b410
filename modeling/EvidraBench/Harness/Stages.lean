import EvidraBench.Harness.EvaluationResult
import EvidraBench.Lib.Checks
import EvidraBench.Lib.Loops
import EvidraBench.Lib.Trace

/-!
# Multi-stage runs

`pkg/harness/stages.go`, with the parts of `run_execution.go`, `run_verification.go` and
`agent_exec.go` that decide whether the stages run and what their results count for.

Everything outside the harness (the break command, the bootstrapper, the channels to the agent, the
checks, the agent itself) answers as a `World` says, and the stage loop leaves a trace of what it
did.

Results: `runStage_ok`, `runMultiStage_ok`, `staged_pass_iff`.
-/

namespace EvidraBench.Harness

open EvidraBench.Gostd EvidraBench.Lib

/-! ### Scenarios with stages -/

/-- Source: `pkg/scenario/types.go` `Check`; `pkg/verifier/common.go` `CheckDef` -/
structure Check where
  type : String
  ns : String := ""
  name : String := ""
  condition : String := ""
deriving DecidableEq, Repr

/-- Source: `pkg/scenario/types.go` `BootstrapStep` -/
structure BootstrapStep where
  name : String := ""
  type : String
  path : String := ""
  release : String := ""
  ns : String := ""
  duration : String := ""
  args : List String := []
deriving DecidableEq, Repr

/-- Source: `pkg/scenario/types.go` `Break` -/
structure Break where
  type : String
  path : String := ""
  chart : String := ""
  name : String := ""
  ns : String := ""
  args : List String := []
  allowFailure : Bool := false
  memory : String := ""
deriving DecidableEq, Repr

/-- The timeout of a stage only bounds its polling, which is an input here.
Source: `pkg/scenario/types.go` `Stage` -/
structure Stage where
  name : String
  stageBreak : Break
  afterBreak : List BootstrapStep := []
  checks : List Check
  agentGoal : String := ""
  onFail : String := ""
deriving DecidableEq, Repr

structure StageResult where
  name : String
  passed : Bool
  checksPassed : Nat
  checksTotal : Nat
  duration : Int
deriving DecidableEq, Repr

/-! ### The break -/

/-- Source: `pkg/harness/bootstrap.go` `breakCommandArgs` -/
def breakCommandArgs (kubeconfigPath : String) (b : Break) : Except String (List String) :=
  if b.type = "" ∨ b.type = "apply" ∨ b.type = "kubectl-apply" then
    if b.path = "" then .error ("break fixture path is required for " ++ quote b.type)
    else .ok ["kubectl", "--kubeconfig", kubeconfigPath, "apply", "-f", b.path]
  else if b.type = "kubectl" then .ok (["kubectl", "--kubeconfig", kubeconfigPath] ++ b.args)
  else if b.type = "shell" then .ok (["bash", b.path, kubeconfigPath] ++ b.args)
  else if b.type = "helm-upgrade" then
    if b.name = "" then .error "break release name is required for helm-upgrade"
    else if b.chart = "" then .error "break chart is required for helm-upgrade"
    else
      .ok (["helm", "--kubeconfig", kubeconfigPath, "upgrade", b.name, b.chart] ++
        (if b.ns ≠ "" then ["-n", b.ns] else []) ++
        (if b.path ≠ "" then ["-f", b.path] else []) ++ b.args)
  else .error ("unsupported break type: " ++ b.type)

/-- `run` is what running the command comes to.
Source: `pkg/harness/bootstrap.go` `Harness.applyBreak` -/
def applyBreak (kubeconfigPath : String) (b : Break) (run : List String → Except String Unit) :
    Except String Unit := do
  let args ← breakCommandArgs kubeconfigPath b
  match run args with
  | .ok () => .ok ()
  -- some breaks are meant to fail
  | .error e => if b.allowFailure then .ok () else .error ("apply break fixture: " ++ e)

/-! ### Checks -/

/-- Every field has to be set; the first that is not names itself. -/
def requireFields (owner : String) (fields : List (String × String)) : Except String Unit :=
  checkAll (fun field => require (field.1 ≠ "") (owner ++ ": " ++ field.2)) fields

/-- The checker of a definition, which is the definition with its defaults filled in.
Source: `pkg/verifier/common.go` `BuildCheckers`, the switch; `Validate` of each checker -/
def buildChecker (cd : Check) : Except String Check :=
  if cd.type = "deployment-ready" then do
    requireFields "verifier.DeploymentReadyCheck"
      [(cd.ns, "namespace is required"), (cd.name, "name is required")]
    .ok cd
  else if cd.type = "service-endpoints" then do
    requireFields "verifier.ServiceEndpointsCheck"
      [(cd.ns, "namespace is required"), (cd.name, "name is required")]
    .ok cd
  else if cd.type = "service-reachable" then do
    requireFields "verifier.ServiceReachableCheck"
      [(cd.ns, "namespace is required"), (cd.name, "name is required")]
    .ok { cd with condition := if cd.condition = "" then "net-client" else cd.condition }
  else if cd.type = "helm-release" then do
    requireFields "verifier.HelmReleaseCheck" [(cd.name, "name is required")]
    .ok cd
  else if cd.type = "argocd-app-healthy" then do
    requireFields "verifier.ArgoCDAppHealthyCheck" [(cd.name, "name is required")]
    .ok cd
  else if cd.type = "resource-exists" then do
    requireFields "verifier.ResourceExistsCheck"
      [(cd.ns, "namespace is required"), (cd.name, "name is required"),
        (cd.condition, "kind is required (use condition field)")]
    .ok cd
  else if cd.type = "command-succeeds" then do
    requireFields "verifier.CommandSucceedsCheck"
      [(cd.condition, "command (condition) is required")]
    .ok cd
  else if cd.type = "assert-v2" then do
    requireFields "verifier.AssertV2Check" [(cd.condition, "command (condition) is required")]
    .ok cd
  else .error ("verifier.BuildCheckers: unknown check type: " ++ cd.type)

/-- Source: `pkg/verifier/common.go` `BuildCheckers` -/
def buildCheckers : List Check → Except String (List Check)
  | [] => .ok []
  | cd :: checks => do
      let c ← buildChecker cd
      let checkers ← buildCheckers checks
      .ok (c :: checkers)

/-- One round over the checkers, given what the checker at each position answers.
Source: `pkg/verifier/common.go` `RunChecks` -/
def runChecks (checkers : List Check) (answer : Nat → Check → CheckResult) : VerifyResult :=
  let checks := checkers.zipIdx.map fun c => answer c.2 c.1
  { passed := checks.all fun cr => !(cr.verdict == .fail || cr.verdict == .error)
    checks := checks }

/-- A round of polling: the answers of the checkers, and whether the context is done after it. -/
structure Round where
  answer : Nat → Check → CheckResult
  done : Bool

/-- Run the checkers until they pass or the context is done; `none` while it still polls.
Source: `pkg/verifier/poll.go` `PollChecks` -/
def pollChecks (checkers : List Check) (rounds : List Round) : Option VerifyResult :=
  poll (fun _ round => runChecks checkers round.answer)
    (fun result round => result.passed || round.done) { passed := false, checks := [] } rounds

def countPassed (r : VerifyResult) : Nat := r.checks.countP (·.verdict == .pass)

/-! ### The stage loop -/

/-- What the stage loop does to the world outside it. -/
inductive Effect where
  | broke (stage : Stage)
  | prepared (steps : List BootstrapStep)
  | memory (window : Nat)
  | goal (text : String)
  | recorded (result : StageResult)

/-- Why a run has no result: an error, or it has not returned yet. -/
inductive Halt where
  | failed (message : String)
  | running

/-- How the world answers while one stage runs. A send answers with an error when the context is
done before the agent takes the message. -/
structure StageWorld where
  breakRun : List String → Except String Unit
  afterBreak : List BootstrapStep → Except String Unit
  memorySend : Except String Unit
  goalSend : Except String Unit
  rounds : List Round
  duration : Int

/-- A failure under the words that say where it happened. -/
def failedAt {α : Type} (text : String) (x : Except String α) : Except Halt α :=
  x.mapError fun e => .failed (text ++ e)

def broken (trace : List Effect) : List Stage :=
  trace.filterMap fun
    | .broke stage => some stage
    | _ => none

def recorded (trace : List Effect) : List StageResult :=
  trace.filterMap fun
    | .recorded result => some result
    | _ => none

/-- Source: `runMultiStage`, the literal `sr` -/
def stageResult (stage : Stage) (result : VerifyResult) (duration : Int) : StageResult :=
  { name := stage.name
    passed := result.passed
    checksPassed := countPassed result
    checksTotal := result.checks.length
    duration := duration }

/-- One stage; the answer is whether the loop goes on to the next. The channels to the agent are
those `executeRunAgent` makes, so they are there.
Source: `runMultiStage`, the body of the loop -/
def runStage (kubeconfigPath : String) (bootstrapper : Bool) (stage : Stage) (w : StageWorld) :
    Traced Effect Halt Bool := do
  let place (step : String) := "stage " ++ quote stage.name ++ " " ++ step ++ ": "
  Traced.attempt (failedAt (place "break") (applyBreak kubeconfigPath stage.stageBreak w.breakRun))
    [.broke stage]
  Traced.attemptIf (bootstrapper && !stage.afterBreak.isEmpty)
    (failedAt (place "after_break") (w.afterBreak stage.afterBreak)) [.prepared stage.afterBreak]
  Traced.attemptIf (stage.stageBreak.memory ≠ "") (failedAt "" w.memorySend)
    [.memory (if stage.stageBreak.memory = "reset" then 0 else 3)]
  Traced.attemptIf (stage.agentGoal ≠ "") (failedAt "" w.goalSend) [.goal stage.agentGoal]
  let checkers ← Traced.attempt (failedAt (place "build checkers") (buildCheckers stage.checks)) []
  let result ← Traced.attempt (match pollChecks checkers w.rounds with
    | some result => .ok result
    | none => .error .running) []
  Traced.attempt (.ok ()) [.recorded (stageResult stage result w.duration)]
  pure (result.passed || (if stage.onFail = "" then "stop" else stage.onFail) = "continue")

/-- The loop over the stages, from stage `i` on.
Source: `Harness.runMultiStage` -/
def runMultiStage (kubeconfigPath : String) (bootstrapper : Bool) (world : Nat → StageWorld) :
    Nat → List Stage → Traced Effect Halt Unit
  | _, [] => pure ()
  | i, stage :: rest => do
      let goOn ← runStage kubeconfigPath bootstrapper stage (world i)
      if goOn then runMultiStage kubeconfigPath bootstrapper world (i + 1) rest else pure ()

/-! ### The agent of a run -/

/-- The parts of a scenario that the agent phase and its verification read.
Source: `pkg/scenario/types.go` `Scenario` -/
structure StagedScenario where
  stages : List Stage := []
  checks : List Check := []

/-- Source: `pkg/config/config.go` `Config`, the fields that select the agent -/
structure AgentConfig extends RunConfig where
  provider : String := ""

inductive AgentKind where
  | sandboxed
  | externalSandboxed
  | a2a
  | provider
  | localAdapter
deriving DecidableEq, Repr

/-- How the world answers during the agent phase and its verification. An agent returns a result,
an error, or both. -/
structure World where
  stages : Nat → StageWorld
  answer : AgentKind → Option RunResult × Option String
  check : Nat → Check → CheckResult
  marshal : List StageResult → String
  providerEvidenceDir : String

/-- Source: `pkg/harness/agent_exec.go` `executeSingleAgent`, its tests in order -/
def selectedAgent (cfg : AgentConfig) : AgentKind :=
  if cfg.agentBundleDir ≠ "" then .sandboxed
  else if cfg.agentCommand ≠ "" && !cfg.agentUnconfined then .externalSandboxed
  else if cfg.agentImage ≠ "" then .sandboxed
  else if cfg.adapter = "a2a" then .a2a
  else if cfg.provider ≠ "" then .provider
  else .localAdapter

/-- `adapter` says whether the harness has a local adapter.
Source: `pkg/harness/agent_exec.go` `Harness.executeSingleAgent` -/
def executeSingleAgent (cfg : AgentConfig) (adapter : Bool) (w : World) :
    Option RunResult × Option String :=
  match selectedAgent cfg with
  | .localAdapter =>
      if adapter then
        let (res, err) := w.answer .localAdapter
        (res.map fun r =>
          if cfg.agentCommand ≠ "" then
            { r with metadata := ("agent_mode", "external-unconfined") :: r.metadata }
          else r, err)
      else
        (none, some ("harness: local adapter dependency is nil for adapter=" ++ cfg.adapter))
  | kind => w.answer kind

/-- Source: `pkg/harness/agent_exec.go` `shouldUseProviderEvidenceDir` -/
def shouldUseProviderEvidenceDir (cfg : AgentConfig) : Bool :=
  cfg.provider ≠ "" && cfg.adapter ≠ "a2a"

/-- What the agent phase returns, and what its stages did. -/
structure AgentPhase where
  outcome : Except Halt (Option RunResult)
  providerEvDir : String
  stageResults : List StageResult
  trace : List Effect

/-- Source: `pkg/harness/run_execution.go` `Harness.executeRunAgent` -/
def executeRunAgent (kubeconfigPath : String) (bootstrapper adapter : Bool) (cfg : AgentConfig)
    (s : StagedScenario) (w : World) (isMultiStage : Bool) : AgentPhase :=
  if isMultiStage && shouldUseProviderEvidenceDir cfg then
    let run := runMultiStage kubeconfigPath bootstrapper w.stages 0 s.stages
    { outcome := match run.outcome, w.answer .provider with
        | .error e, _ => .error e
        | .ok (), (none, some agentErr) => .error (.failed agentErr)
        | .ok (), (none, none) => .ok (some { exitCode := 1 })
        | .ok (), (some agentResult, _) => .ok (some agentResult)
      providerEvDir := w.providerEvidenceDir
      stageResults := recorded run.trace
      trace := run.trace }
  else
    { outcome := match executeSingleAgent cfg adapter w with
        | (_, some err) => .error (.failed err)
        | (agentResult, none) => .ok agentResult
      providerEvDir := if shouldUseProviderEvidenceDir cfg then w.providerEvidenceDir else ""
      stageResults := []
      trace := [] }

/-! ### Verification -/

/-- A map entry that is set again stands in front of the old one.
Source: `pkg/harness/run_verification.go` `addStageMetadata` -/
def addStageMetadata (w : World) (agentResult : RunResult) (stageResults : List StageResult) :
    RunResult :=
  if stageResults.isEmpty then agentResult
  else
    { agentResult with
      metadata :=
        [("stages", w.marshal stageResults),
          ("stages_passed", toString (stageResults.countP (·.passed))),
          ("stages_total", toString stageResults.length)] ++ agentResult.metadata }

/-- The result of verification, and the agent result with its stage metadata.
Source: `pkg/harness/run_verification.go` `Harness.verifyRun`, `Harness.verifyRunPhase` -/
def verifyRun (w : World) (s : StagedScenario) (agentResult : Option RunResult)
    (stageResults : List StageResult) (isMultiStage : Bool) :
    Except String (VerifyResult × Option RunResult) := do
  let verifyResult ←
    if isMultiStage then
      .ok (stageResults.foldl (fun vr sr => if !sr.passed then { vr with passed := false } else vr)
        { passed := true, checks := [] })
    else do
      let checkers ← (buildCheckers s.checks).mapError ("harness.Run: build checkers: " ++ ·)
      .ok (runChecks checkers w.check)
  .ok (verifyResult, agentResult.map fun r => addStageMetadata w r stageResults)

/-! ### What one stage did -/

@[simp] theorem failedAt_eq_ok {α : Type} {text : String} {x : Except String α} {a : α} :
    failedAt text x = .ok a ↔ x = .ok a := by
  cases x <;> simp [failedAt, Except.mapError]

@[simp] theorem broken_append (xs ys : List Effect) : broken (xs ++ ys) = broken xs ++ broken ys :=
  List.filterMap_append

@[simp] theorem recorded_append (xs ys : List Effect) :
    recorded (xs ++ ys) = recorded xs ++ recorded ys :=
  List.filterMap_append

/-- A message to the agent or a preparation, as against a break or a result. -/
def Effect.passing : Effect → Bool
  | .broke _ | .recorded _ => false
  | .prepared _ | .memory _ | .goal _ => true

theorem broken_recorded_of_passing {trace : List Effect} (h : ∀ e ∈ trace, e.passing) :
    broken trace = [] ∧ recorded trace = [] := by
  constructor <;> refine List.filterMap_eq_nil_iff.mpr fun e he => ?_
  · cases e <;> first | rfl | cases h _ he
  · cases e <;> first | rfl | cases h _ he

theorem broken_attemptIf (c : Bool) (x : Except Halt Unit) {e : Effect} (he : e.passing) :
    broken (Traced.attemptIf c x [e]).trace = [] :=
  (broken_recorded_of_passing fun e' he' => by
    rw [List.mem_singleton.mp (Traced.mem_trace_attemptIf he')]
    exact he).1

theorem recorded_attemptIf (c : Bool) (x : Except Halt Unit) {e : Effect} (he : e.passing) :
    recorded (Traced.attemptIf c x [e]).trace = [] :=
  (broken_recorded_of_passing fun e' he' => by
    rw [List.mem_singleton.mp (Traced.mem_trace_attemptIf he')]
    exact he).2

theorem length_of_buildCheckers : ∀ {checks checkers : List Check},
    buildCheckers checks = .ok checkers → checkers.length = checks.length
  | [], checkers, h => by
      cases h
      rfl
  | cd :: checks, checkers, h => by
      obtain ⟨c, -, h⟩ := seq_eq_ok.mp h
      obtain ⟨rest, hrest, h⟩ := seq_eq_ok.mp h
      cases h
      rw [List.length_cons, List.length_cons, length_of_buildCheckers hrest]

theorem exists_round_of_pollChecks {checkers : List Check} {rounds : List Round}
    {result : VerifyResult} (h : pollChecks checkers rounds = some result) :
    ∃ round ∈ rounds, result = runChecks checkers round.answer := by
  unfold pollChecks at h
  generalize ({ passed := false, checks := [] } : VerifyResult) = start at h
  induction rounds generalizing start with
  | nil => cases h
  | cons round rounds ih =>
      rw [poll] at h
      split_ifs at h with hstop
      · exact ⟨round, List.mem_cons_self, (Option.some.inj h).symm⟩
      · obtain ⟨round', hmem, heq⟩ := ih _ h
        exact ⟨round', List.mem_cons_of_mem _ hmem, heq⟩

theorem runChecks_passed_iff (checkers : List Check) (answer : Nat → Check → CheckResult) :
    (runChecks checkers answer).passed = true ↔
      countPassed (runChecks checkers answer) = (runChecks checkers answer).checks.length := by
  have hverdict : ∀ cr : CheckResult,
      (!(cr.verdict == .fail || cr.verdict == .error)) = (cr.verdict == .pass) := by
    intro cr
    cases cr.verdict <;> rfl
  unfold countPassed
  rw [List.countP_eq_length]
  simp only [runChecks, hverdict, List.all_eq_true]

/-- The result of a stage reports on all of its checks and passes exactly when all of them do. -/
def StageResult.Reports (stage : Stage) (sr : StageResult) : Prop :=
  sr.name = stage.name ∧ sr.checksTotal = stage.checks.length ∧
    (sr.passed = true ↔ sr.checksPassed = sr.checksTotal)

/-- **One stage.** A stage that went through applied its break and recorded one result, and the loop
goes on unless it failed and failing stops the loop. -/
theorem runStage_ok {kubeconfigPath : String} {bootstrapper : Bool} {stage : Stage} {w : StageWorld}
    {goOn : Bool} (h : (runStage kubeconfigPath bootstrapper stage w).outcome = .ok goOn) :
    let trace := (runStage kubeconfigPath bootstrapper stage w).trace
    ∃ sr, broken trace = [stage] ∧ recorded trace = [sr] ∧ sr.Reports stage ∧
      goOn = (sr.passed || stage.onFail = "continue") := by
  unfold runStage at h ⊢
  obtain ⟨_, hbreak, h, htrace⟩ := Traced.exists_of_bind h
  rw [htrace, Traced.trace_attempt (by simpa using hbreak)]
  obtain ⟨_, -, h, htrace⟩ := Traced.exists_of_bind h
  rw [htrace]
  obtain ⟨_, -, h, htrace⟩ := Traced.exists_of_bind h
  rw [htrace]
  obtain ⟨_, -, h, htrace⟩ := Traced.exists_of_bind h
  rw [htrace]
  obtain ⟨checkers, hcheckers, h, htrace⟩ := Traced.exists_of_bind h
  rw [htrace, Traced.trace_attempt (by simpa using hcheckers)]
  obtain ⟨result, hresult, h, htrace⟩ := Traced.exists_of_bind h
  rw [htrace, Traced.trace_attempt (by simpa using hresult)]
  obtain ⟨_, -, h, htrace⟩ := Traced.exists_of_bind h
  rw [htrace]
  have hpoll : pollChecks checkers w.rounds = some result := by
    rw [Traced.outcome_attempt] at hresult
    split at hresult <;> simp_all
  obtain ⟨round, -, rfl⟩ := exists_round_of_pollChecks hpoll
  have hlength : checkers.length = stage.checks.length :=
    length_of_buildCheckers (by simpa using hcheckers)
  refine ⟨stageResult stage (runChecks checkers round.answer) w.duration, ?_, ?_, ⟨rfl, ?_, ?_⟩, ?_⟩
  -- the three steps between the break and the result leave neither
  · simp only [broken_append, broken_attemptIf _ _ (e := .prepared _) rfl,
      broken_attemptIf _ _ (e := .memory _) rfl, broken_attemptIf _ _ (e := .goal _) rfl]
    rfl
  · simp only [recorded_append, recorded_attemptIf _ _ (e := .prepared _) rfl,
      recorded_attemptIf _ _ (e := .memory _) rfl, recorded_attemptIf _ _ (e := .goal _) rfl]
    rfl
  · simpa [stageResult, runChecks] using hlength
  · exact runChecks_passed_iff checkers round.answer
  · obtain rfl := Except.ok.inj h
    by_cases hfail : stage.onFail = "" <;> simp [hfail, stageResult]

/-! ### What the loop did -/

/-- **The loop.** A loop that went through applied the breaks of an initial part of the stages and
recorded a result for each of them, in order; when all of those passed it was all of the stages. -/
theorem runMultiStage_ok {kubeconfigPath : String} {bootstrapper : Bool}
    {world : Nat → StageWorld} :
    ∀ {stages : List Stage} {i : Nat},
      (runMultiStage kubeconfigPath bootstrapper world i stages).outcome = .ok () →
      let trace := (runMultiStage kubeconfigPath bootstrapper world i stages).trace
      broken trace <+: stages ∧
        List.Forall₂ (fun stage sr => sr.Reports stage) (broken trace) (recorded trace) ∧
        ((∀ sr ∈ recorded trace, sr.passed = true) → broken trace = stages)
  | [], i, _ => ⟨List.prefix_rfl, List.Forall₂.nil, fun _ => rfl⟩
  | stage :: rest, i, h => by
      rw [runMultiStage] at h ⊢
      obtain ⟨goOn, hstage, hrest, htrace⟩ := Traced.exists_of_bind h
      obtain ⟨sr, hbroken, hrecorded, hreports, hgoOn⟩ := runStage_ok hstage
      simp only [htrace, broken_append, recorded_append, hbroken, hrecorded, List.singleton_append,
        List.forall_mem_cons, List.forall₂_cons]
      cases goOn with
      | false =>
          -- the stage failed and failing stops the loop
          have hfailed : sr.passed = false := (Bool.or_eq_false_iff.mp hgoOn.symm).1
          refine ⟨List.prefix_append [stage] rest, ⟨hreports, List.Forall₂.nil⟩, ?_⟩
          rintro ⟨hpassed, -⟩
          rw [hfailed] at hpassed
          cases hpassed
      | true =>
          obtain ⟨hinitial, hall, hcomplete⟩ := runMultiStage_ok hrest
          exact ⟨List.cons_prefix_cons.mpr ⟨rfl, hinitial⟩, ⟨hreports, hall⟩,
            fun ⟨_, hpassed⟩ => congrArg (stage :: ·) (hcomplete hpassed)⟩

/-! ### Passing means that the stages passed -/

theorem verifyRun_stages (w : World) (s : StagedScenario) (agentResult : Option RunResult)
    (stageResults : List StageResult) :
    verifyRun w s agentResult stageResults true =
      .ok ({ passed := stageResults.all (·.passed), checks := [] },
        agentResult.map fun r => addStageMetadata w r stageResults) := by
  have hfold : ∀ (vr : VerifyResult), stageResults.foldl
      (fun vr sr => if !sr.passed then { vr with passed := false } else vr) vr =
        { vr with passed := vr.passed && stageResults.all (·.passed) } := by
    induction stageResults with
    | nil => intro vr; simp
    | cons sr stageResults ih =>
        intro vr
        rw [List.foldl_cons, ih, List.all_cons]
        cases sr.passed <;> simp
  simp only [verifyRun, if_true, hfold, bind, Except.bind, Bool.true_and]

/-- Every declared stage was run, its break applied, and passed all of its checks, in order. -/
def StagesPassed (s : StagedScenario) (phase : AgentPhase) : Prop :=
  broken phase.trace = s.stages ∧
    List.Forall₂ (fun stage sr => sr.Reports stage ∧ sr.passed = true) s.stages phase.stageResults

/-- A passing verdict on the phase means that the stages passed. -/
def PassMeansStages (w : World) (s : StagedScenario) (phase : AgentPhase) : Prop :=
  ∀ agentResult verdict final, phase.outcome = .ok agentResult →
    verifyRun w s agentResult phase.stageResults true = .ok (verdict, final) →
    verdict.passed = true → StagesPassed s phase

/-- The agent the configuration selects fails, or there is none. -/
def AgentFails (cfg : AgentConfig) (adapter : Bool) (w : World) : Prop :=
  (selectedAgent cfg = .localAdapter ∧ adapter = false) ∨
    (w.answer (selectedAgent cfg)).2.isSome = true

theorem executeSingleAgent_error_iff (cfg : AgentConfig) (adapter : Bool) (w : World) :
    (executeSingleAgent cfg adapter w).2.isSome = true ↔ AgentFails cfg adapter w := by
  unfold executeSingleAgent AgentFails
  cases hkind : selectedAgent cfg <;> cases adapter <;> simp

theorem passMeansStages_of_provider {kubeconfigPath : String} {bootstrapper adapter : Bool}
    {cfg : AgentConfig} {s : StagedScenario} {w : World}
    (hcfg : shouldUseProviderEvidenceDir cfg = true) :
    PassMeansStages w s
      (executeRunAgent kubeconfigPath bootstrapper adapter cfg s w true) := by
  intro agentResult verdict final houtcome hverify hpassed
  simp only [executeRunAgent, hcfg, Bool.and_self, if_true] at houtcome hverify ⊢
  rw [verifyRun_stages] at hverify
  obtain ⟨rfl, -⟩ := Prod.mk.inj (Except.ok.inj hverify)
  have hrun : (runMultiStage kubeconfigPath bootstrapper w.stages 0 s.stages).outcome = .ok () := by
    split at houtcome <;> first | assumption | cases houtcome
  obtain ⟨-, hall, hcomplete⟩ := runMultiStage_ok hrun
  have hresults := List.all_eq_true.mp hpassed
  have hbroken := hcomplete hresults
  refine ⟨hbroken, ?_⟩
  rw [hbroken] at hall
  exact List.forall₂_iff_get.mpr ⟨hall.length_eq, fun i h₁ h₂ =>
    ⟨(List.forall₂_iff_get.mp hall).2 i h₁ h₂, hresults _ (List.get_mem _ _)⟩⟩

/-- **When a pass means that the stages passed.** For a scenario with stages, exactly when the run
uses the provider loop, or has no result because the agent it selects fails: with any other agent
the stages are not run, there is nothing to fold over, and the verdict is a pass.
Source: `pkg/harness/run_execution.go` `executeRunAgent`; `run_verification.go` `verifyRunPhase`
-/
theorem staged_pass_iff (kubeconfigPath : String) (bootstrapper adapter : Bool) (cfg : AgentConfig)
    (s : StagedScenario) (w : World) (hs : s.stages ≠ []) :
    PassMeansStages w s (executeRunAgent kubeconfigPath bootstrapper adapter cfg s w true) ↔
      (cfg.provider ≠ "" ∧ cfg.adapter ≠ "a2a") ∨ AgentFails cfg adapter w := by
  have hprovider : shouldUseProviderEvidenceDir cfg = true ↔
      cfg.provider ≠ "" ∧ cfg.adapter ≠ "a2a" := by
    simp [shouldUseProviderEvidenceDir]
  rw [← hprovider, ← executeSingleAgent_error_iff]
  by_cases hcfg : shouldUseProviderEvidenceDir cfg = true
  · exact iff_of_true (passMeansStages_of_provider hcfg) (Or.inl hcfg)
  have hphase : executeRunAgent kubeconfigPath bootstrapper adapter cfg s w true =
      { outcome := match executeSingleAgent cfg adapter w with
          | (_, some err) => .error (.failed err)
          | (agentResult, none) => .ok agentResult
        providerEvDir := ""
        stageResults := []
        trace := [] } := by
    simp [executeRunAgent, hcfg]
  rw [hphase]
  rcases hagent : executeSingleAgent cfg adapter w with ⟨agentResult, _ | err⟩
  · -- the agent returns, and the verdict is folded over no results
    refine iff_of_false (fun hpass => hs ?_) (by simp [hcfg])
    exact (hpass agentResult _ _ rfl (verifyRun_stages w s agentResult []) rfl).1.symm
  · refine iff_of_true (fun agentResult verdict final houtcome => ?_) (Or.inr rfl)
    cases houtcome

def quietWorld : World where
  stages _ :=
    { breakRun := fun _ => .ok ()
      afterBreak := fun _ => .ok ()
      memorySend := .ok ()
      goalSend := .ok ()
      rounds := [{ answer := fun _ c => { name := c.name, verdict := .pass }, done := false }]
      duration := 1 }
  answer _ := (some {}, none)
  check _ c := { name := c.name, verdict := .pass }
  marshal _ := "[]"
  providerEvidenceDir := "runs/evidence/web-0"

def oneStage : StagedScenario :=
  { stages := [{ name := "scale"
                 stageBreak := { type := "kubectl", args := ["delete", "deployment", "web"] }
                 checks := [{ type := "deployment-ready", ns := "bench", name := "web" }] }] }

/-- The provider loop runs the stage. -/
theorem staged_pass_iff_provider :
    oneStage.stages ≠ [] ∧
      PassMeansStages quietWorld oneStage
        (executeRunAgent "kubeconfig" true true { provider := "bifrost" } oneStage quietWorld
          true) := by
  have hs : oneStage.stages ≠ [] := by decide
  exact ⟨hs, (staged_pass_iff _ _ _ _ _ _ hs).mpr (Or.inl ⟨by decide, by decide⟩)⟩

/-- **An unrun scenario passes.** With an A2A agent the stage is never run, no break is applied and
no check made, and verification reports a pass.
Source: `pkg/harness/run_execution.go` `executeRunAgent` -/
theorem staged_pass_vacuous :
    ∃ agentResult verdict final,
      let phase :=
        executeRunAgent "kubeconfig" true true { adapter := "a2a" } oneStage quietWorld true
      phase.outcome = .ok agentResult ∧ phase.stageResults = [] ∧ broken phase.trace = [] ∧
        verifyRun quietWorld oneStage agentResult phase.stageResults true = .ok (verdict, final) ∧
        verdict.passed = true ∧ ¬ StagesPassed oneStage phase := by
  refine ⟨some {}, _, _, rfl, rfl, rfl, verifyRun_stages _ _ _ _, rfl, ?_⟩
  rintro ⟨hbroken, -⟩
  exact absurd hbroken (by decide)

end EvidraBench.Harness
