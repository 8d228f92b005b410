import EvidraBench.Environment.Identity
import EvidraBench.Gostd.Unmarshal
import EvidraBench.Lib.Transition

/-!
# Chaos steps

`pkg/harness/chaos.go`: a goroutine that runs disruption steps while an agent works, at given times
or once a watched object has changed, and `pkg/scenario/loader.go` `validateChaos`.

What `strings.ToLower`, `time.ParseDuration` and the errors of `encoding/json` are is a parameter.
-/

namespace EvidraBench.Harness

open EvidraBench.Gostd EvidraBench.Lib

/-! ### Configurations -/

/-- Source: `pkg/scenario/types.go` `ResourceChangeTrigger` -/
structure ResourceChangeTrigger where
  apiVersion : String
  resource : String
  ns : String
  name : String
deriving DecidableEq

/-- Source: `pkg/scenario/types.go` `ChaosStep` -/
structure ChaosStep where
  name : String := ""
  type : String
  /-- The step has a time. -/
  atSet : Bool := false
  afterChange : Option ResourceChangeTrigger := none
  path : String := ""
  release : String := ""
  ns : String := ""
  duration : String := ""
  args : List String := []
  allowFailure : Bool := false
deriving DecidableEq

/-- Source: `pkg/scenario/types.go` `ChaosConfig` -/
structure ChaosConfig where
  mode : String := ""
  stopOnAgentDone : Bool := false
  steps : List ChaosStep := []

/-- What the package uses of the standard library. -/
structure ChaosTools where
  /-- `strings.ToLower`. -/
  toLower : String → String
  /-- The error of `time.ParseDuration`, if it has one. -/
  parseDuration : String → Option String
  /-- The error of `json.Unmarshal` for a text that it does not decode. -/
  jsonError : Bytes → String

/-- Why a step is refused.
Source: `pkg/scenario/loader.go` `validateChaos`, the loop body -/
def validateChaosStep (t : ChaosTools) (id : String) (namespaces : List String) (i : Nat)
    (step : ChaosStep) : Except String Unit := do
  let here := "scenario " ++ id ++ ": chaos step " ++ toString i
  if step.type = "" then throw (here ++ " missing type")
  match step.afterChange with
  | some ac =>
      if step.atSet then throw (here ++ " sets both at and after_change")
      if ac.apiVersion = "" ∨ ac.resource = "" ∨ ac.ns = "" ∨ ac.name = "" then
        throw (here ++ " after_change requires api_version, resource, namespace and name")
      if t.toLower ac.resource = "secrets" then
        throw (here ++ " watches secrets: refused, trigger reads must never touch secret payloads")
      if Environment.clusterScopedResources.contains (t.toLower ac.resource) then
        throw (here ++ " watches cluster-scoped resource " ++ quote ac.resource)
      if ac.ns ∉ namespaces then
        throw (here ++ " watches namespace " ++ quote ac.ns ++ " outside the scenario scope")
  | none => if !step.atSet then throw (here ++ " needs at or after_change")

def validateChaosSteps (t : ChaosTools) (id : String) (namespaces : List String) :
    Nat → List ChaosStep → Except String Unit
  | _, [] => .ok ()
  | i, step :: rest => do
      validateChaosStep t id namespaces i step
      validateChaosSteps t id namespaces (i + 1) rest

/-- Source: `pkg/scenario/loader.go` `validateChaos` -/
def validateChaos (t : ChaosTools) (id : String) (namespaces : List String) (c : ChaosConfig) :
    Except String Unit := do
  if c.mode ≠ "" ∧ c.mode ≠ "once" ∧ c.mode ≠ "repeat" then
    throw ("scenario " ++ id ++ ": unsupported chaos mode " ++ quote c.mode)
  validateChaosSteps t id namespaces 0 c.steps

/-! ### Commands -/

structure Answer where
  out : Bytes := []
  err : Option String := none
  /-- The command failed because its context was cancelled. -/
  byCancel : Bool := false

/-- The path that is read of a watched object.
Source: `resourceVersion` -/
def resourcePath (t : ChaosTools) (ac : ResourceChangeTrigger) : String :=
  let slash := fun c : Char => c == '/'
  let trimmed := ((ac.apiVersion.toList.dropWhile slash).reverse.dropWhile slash).reverse
  let root := if ac.apiVersion ≠ "v1" ∧ ac.apiVersion ≠ "" then "/apis/" ++ String.ofList trimmed
    else "/api/v1"
  root ++ "/namespaces/" ++ ac.ns ++ "/" ++ t.toLower ac.resource ++ "/" ++ ac.name

/-- What is read of a watched object.
Source: `resourceVersion` -/
def resourceVersion (t : ChaosTools) (ac : ResourceChangeTrigger) (a : Answer) :
    Except String String :=
  let read := "read " ++ resourcePath t ac ++ ": "
  match a.err with
  | some e => .error (read ++ e)
  | none =>
      match unmarshal (.struct [("metadata", .struct [("resourceVersion", .string)])])
        (decodeUtf8 a.out) with
      | none => .error (read ++ "unparseable response: " ++ t.jsonError a.out)
      | some v =>
          let version := ((v.field "metadata").field "resourceVersion").asString
          if version = "" then .error (read ++ "empty resourceVersion") else .ok version

/-- The versions of the watched objects, by the names of the steps, from a step on. `reads i` is
the answer to the reading for step `i`.
Source: `ArmResourceTriggers` -/
def armFrom (t : ChaosTools) (reads : Nat → Answer) :
    Nat → List ChaosStep → (String → String) → Except String (String → String)
  | _, [], armed => .ok armed
  | i, step :: rest, armed =>
      match step.afterChange with
      | none => armFrom t reads (i + 1) rest armed
      | some ac =>
          match resourceVersion t ac (reads i) with
          | .error e => .error ("chaos step " ++ quote step.name ++ ": arm trigger: " ++ e)
          | .ok version => armFrom t reads (i + 1) rest (Function.update armed step.name version)

/-- A name without a version has the empty one.
Source: `ArmResourceTriggers` -/
def armResourceTriggers (t : ChaosTools) (reads : Nat → Answer) (c : ChaosConfig) :
    Except String (String → String) :=
  armFrom t reads 0 c.steps fun _ => ""

/-- Source: `pkg/environment/bootstrap.go` `CommandArgs` -/
def commandArgs (kubeconfigPath : String) (step : ChaosStep) : List String :=
  let inNamespace := if step.ns ≠ "" then ["-n", step.ns] else []
  let kubectl := ["kubectl", "--kubeconfig", kubeconfigPath]
  if step.type = "kubectl-apply" then kubectl ++ inNamespace ++ ["apply", "-f", step.path]
  else if step.type = "kubectl-create" then kubectl ++ ["create"] ++ inNamespace ++ step.args
  else if step.type = "kubectl" then kubectl ++ step.args
  else if step.type = "helm-install" then
    ["helm", "--kubeconfig", kubeconfigPath, "upgrade", "--install", step.release, step.path] ++
      inNamespace ++ step.args
  else if step.type = "shell" then ["bash", step.path, kubeconfigPath] ++ step.args
  else []

/-- What executing a step comes to: an error of its own, a pause or a command.
Source: `executeStep` -/
inductive Execution
  | fails (err : String)
  | sleeps
  | runs (args : List String)

/-- What executing a step comes to.
Source: `executeStep` -/
def execution (t : ChaosTools) (kubeconfigPath : String) (step : ChaosStep) : Execution :=
  if step.type = "sleep" then
    match t.parseDuration step.duration with
    | some e => .fails ("parse chaos sleep duration " ++ quote step.duration ++ ": " ++ e)
    | none => .sleeps
  else
    match commandArgs kubeconfigPath step with
    | [] => .fails ("no command for chaos step " ++ step.name)
    | arg :: args => .runs (arg :: args)

/-! ### The runner -/

/-- A step with a trigger that must not fail: the change it makes is the point of the case.
Source: `Run`, the end of a turn -/
def ChaosStep.loadBearing (step : ChaosStep) : Bool :=
  !step.allowFailure && step.afterChange.isSome

/-- What is recorded of a step. The times of a step are left out.
Source: `chaosEvent` -/
structure ChaosEvent where
  name : String
  type : String
  trigger : String
  initialResourceVersion : String := ""
  observedResourceVersion : String := ""
  command : List String := []
  success : Bool := false
  allowFailure : Bool := false
  output : String := ""
  error : String := ""
deriving DecidableEq

/-- What can be seen of a run. `i` is the place of a step in the configuration. -/
inductive Obs
  /-- The object of the step had the version. -/
  | read (i : Nat) (version : String)
  | executed (i : Nat)
  | unarmed (i : Nat)
  /-- A reading of the object failed. -/
  | readFailed (i : Nat) (byCancel : Bool)
  /-- The execution failed. -/
  | stepFailed (i : Nat) (step : ChaosStep) (byCancel : Bool)

/-- Where the runner is in `Run`. -/
inductive Pc
  /-- At the head of the loop over the steps. -/
  | next
  /-- In the `select` of `waitForResourceChange`. -/
  | waiting
  /-- The reading of the watched object runs. -/
  | reading
  /-- The reading failed; the context is about to be asked for its error. -/
  | checking (err : String) (byCancel : Bool)
  /-- In `waitForChaosStep`. -/
  | timer
  /-- In `executeStep`. -/
  | executing
  | returned
deriving DecidableEq

inductive Move
  /-- The context is cancelled. -/
  | cancel
  /-- The runner goes on by itself. -/
  | turn
  /-- A ticker or a timer fires, and the `select` takes it. -/
  | tick
  /-- The `select` takes the cancelled context. -/
  | stop
  /-- The command that runs returns. -/
  | answer (a : Answer)

/-- How an execution ends with a move.
Source: `executeStep`, `sleepContext` -/
def Execution.ends : Execution → Move → Option Answer
  | .fails e, .turn => some { err := some e }
  | .sleeps, .tick => some {}
  | .sleeps, .stop => some { err := some "context canceled", byCancel := true }
  | .runs _, .answer a => some a
  | _, _ => none

/-- The runner, its place and its surroundings. `todo` is what is left of the cycle, the current
step first.
Source: `ChaosRunner` -/
structure ChaosState where
  armed : String → String
  observed : String → String := fun _ => ""
  events : List ChaosEvent := []
  triggerErr : Option String := none
  pc : Pc := .next
  todo : List (ChaosStep × Nat)
  cancelled : Bool := false
  trace : List Obs := []

structure ChaosSetup where
  tools : ChaosTools
  kubeconfigPath : String
  config : ChaosConfig

namespace ChaosState

def fault (s : ChaosState) (err : String) (event : ChaosEvent) : ChaosState :=
  { s with triggerErr := some err, events := s.events ++ [event], pc := .returned }

/-- Call `executeStep`. -/
def enter (s : ChaosState) (i : Nat) : ChaosState :=
  { s with pc := .executing, trace := s.trace ++ [.executed i] }

/-- Record an execution.
Source: `Run`, `executeStep` -/
def record (s : ChaosState) (c : ChaosSetup) (step : ChaosStep) (i : Nat) (a : Answer) :
    ChaosState :=
  let triggered := step.afterChange.isSome
  let event : ChaosEvent :=
    { name := step.name, type := step.type
      trigger := if triggered then "after_change" else "timer"
      initialResourceVersion := if triggered then s.armed step.name else ""
      observedResourceVersion := if triggered then s.observed step.name else ""
      command := commandArgs c.kubeconfigPath step
      success := a.err.isNone, allowFailure := step.allowFailure
      output := trimSpace (String.ofList (decodeUtf8 a.out)), error := a.err.getD "" }
  { s with
    events := s.events ++ [event]
    trace := s.trace ++ if a.err.isSome then [Obs.stepFailed i step a.byCancel] else [] }

/-- Record an execution and go on, or return if a step with a trigger failed.
Source: `Run`, the end of a turn -/
def finish (s : ChaosState) (c : ChaosSetup) (step : ChaosStep) (i : Nat)
    (rest : List (ChaosStep × Nat)) (a : Answer) : ChaosState :=
  let error := a.err.getD ""
  if error ≠ "" ∧ step.loadBearing = true then
    { s.record c step i a with
      triggerErr := some ("chaos step " ++ quote step.name ++ " failed: " ++ error)
      pc := .returned }
  else { s.record c step i a with pc := .next, todo := rest }

/-- A cancelled context is the reason for nothing before it is cancelled. -/
def Admits (s : ChaosState) (a : Answer) : Bool := !a.byCancel || (s.cancelled && a.err.isSome)

/-- A turn at the head of the loop over the steps. -/
def turnNext (s : ChaosState) (c : ChaosSetup) : ChaosState :=
  match s.todo with
  | [] =>
      if c.config.mode = "repeat" then { s with todo := c.config.steps.zipIdx }
      else { s with pc := .returned }
  | (step, i) :: _ =>
      if step.afterChange.isNone then { s with pc := .timer }
      else if s.armed step.name = "" then
        let err := "chaos step " ++ quote step.name ++ ": trigger was never armed"
        { s with trace := s.trace ++ [Obs.unarmed i] }.fault err
          { name := step.name, type := step.type, trigger := "after_change", error := err }
      else { s with pc := .waiting }

/-- The reading of the watched object returns.
Source: `waitForResourceChange` -/
def answerReading (s : ChaosState) (c : ChaosSetup) (step : ChaosStep) (i : Nat)
    (ac : ResourceChangeTrigger) (a : Answer) : ChaosState :=
  match resourceVersion c.tools ac a with
  | .error e =>
      { s with pc := .checking e a.byCancel, trace := s.trace ++ [.readFailed i a.byCancel] }
  | .ok current =>
      let s := { s with trace := s.trace ++ [Obs.read i current] }
      if current ≠ s.armed step.name then
        { s with observed := Function.update s.observed step.name current }.enter i
      else { s with pc := .waiting }

/-- What becomes of a failed reading.
Source: `Run` -/
def check (s : ChaosState) (step : ChaosStep) (e : String) : ChaosState :=
  if s.cancelled then { s with pc := .returned }
  else
    let err := "chaos step " ++ quote step.name ++ ": " ++ e
    s.fault err
      { name := step.name, type := step.type, trigger := "after_change"
        initialResourceVersion := s.armed step.name, error := err }

end ChaosState

/-- What the runner does. A move that is not possible is refused.
Source: `Run` -/
def chaosTurn (c : ChaosSetup) (s : ChaosState) : Move → Option ChaosState
  | .cancel => some { s with cancelled := true }
  | m =>
      match s.pc, s.todo, m with
      | .next, _, .turn => some (s.turnNext c)
      | .waiting, _, .tick => some { s with pc := .reading }
      | .waiting, _, .stop => if s.cancelled then some { s with pc := .returned } else none
      | .reading, (step, i) :: _, .answer a =>
          step.afterChange.bind fun ac =>
            if s.Admits a then some (s.answerReading c step i ac a) else none
      | .checking e _, (step, _) :: _, .turn => some (s.check step e)
      | .timer, (_, i) :: _, .tick => some (s.enter i)
      | .timer, _, .stop => if s.cancelled then some { s with pc := .returned } else none
      | .executing, (step, i) :: rest, m =>
          ((execution c.tools c.kubeconfigPath step).ends m).bind fun a =>
            if s.Admits a then some (s.finish c step i rest a) else none
      | _, _, _ => none

/-- `Run`, with the versions that the triggers are armed with. -/
def chaos (c : ChaosSetup) (armed : String → String) : System ChaosState Move where
  init := { armed, todo := c.config.steps.zipIdx }
  step := chaosTurn c

end EvidraBench.Harness
