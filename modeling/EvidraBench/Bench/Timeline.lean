import EvidraBench.Gostd.Unmarshal

/-!
# The decision timeline of a run

The tool calls of a run are classified one by one: a step mutates the infrastructure, or it reads,
and then its phase depends on what came before. The steps of `run_command` are classified by the
first words of the command, those of MCP tools by the name of the tool; tools that are neither are
skipped. The two classifications share what they know of the steps so far and count in different
places.

YAML manifests are decoded by a package outside of the repository, so that decoder is a parameter.

Source: `pkg/bench/timeline_parse.go`
-/

namespace EvidraBench.Bench

open EvidraBench.Gostd

/-! ### Calls and steps -/

/-- Source: `pkg/bench/timeline_types.go` `Phase` -/
inductive Phase
  | discover
  | diagnose
  | decide
  | act
  | verify
  | explain
deriving DecidableEq, Repr

def Phase.all : List Phase := [.discover, .diagnose, .decide, .act, .verify, .explain]

/-- The arguments are a JSON text.
Source: `pkg/bench/timeline_types.go` `ToolCall` -/
structure ToolCall where
  tool : String
  args : Bytes := []
  result : String := ""
deriving DecidableEq, Repr

/-- Source: `pkg/bench/timeline_types.go` `TimelineStep` -/
structure TimelineStep where
  index : Nat
  phase : Phase
  tool : String
  operation : String
  command : String
  resource : String
  namespace_ : String
  exitCode : Int
  summary : String
deriving DecidableEq, Repr

/-- Source: `pkg/bench/timeline_types.go` `Timeline` -/
structure Timeline where
  steps : List TimelineStep := []
  phaseCount : Phase → Nat := fun _ => 0
  mutationCount : Nat := 0
  totalSteps : Nat := 0
  diagnosisDepth : Nat := 0

/-! ### Commands -/

def mutationSubcommands (tool : String) : List String :=
  if tool = "kubectl" then
    ["apply", "create", "patch", "replace", "delete", "set", "annotate", "label", "rollout",
      "scale", "taint", "cordon", "uncordon", "drain"]
  else if tool = "helm" then ["install", "upgrade", "uninstall", "rollback"]
  else if tool = "terraform" then ["apply", "destroy", "import"]
  else if tool = "argocd" then ["sync", "delete"]
  else []

def diagnosisCommands : List String := ["describe", "logs", "events"]

def readOnlyRollout : List String := ["status", "history"]

def extractCommand (args : Bytes) : String :=
  match unmarshal (.struct [("command", .string)]) (decodeUtf8 args) with
  | some v => (v.field "command").asString
  | none => ""

/-- The tool, the subcommand and the rest.
Source: `parseCommand` -/
def parseCommand (cmd : String) : String × String × String :=
  match fields cmd with
  | [] => ("", "", "")
  | [tool] => (tool, "", "")
  | tool :: subcommand :: rest => (tool, subcommand, join rest " ")

def isMutationCmd (infraTool subcommand fullCmd : String) : Bool :=
  if subcommand ∉ mutationSubcommands infraTool then false
  else if infraTool = "kubectl" ∧ subcommand = "rollout" then
    match fields fullCmd with
    | _ :: _ :: third :: _ => decide (third ∉ readOnlyRollout)
    | _ => true
  else true

def isDiagnosis (infraTool subcommand fullCmd : String) : Bool :=
  if infraTool ≠ "kubectl" then false
  else if subcommand ∈ diagnosisCommands then true
  else if subcommand = "get" then
    contains fullCmd " -o yaml" || contains fullCmd " -o json" || contains fullCmd " -oyaml" ||
      contains fullCmd " -ojson" || contains fullCmd " events"
  else false

/-- The word after the first namespace flag that has one.
Source: `extractNamespace` -/
def namespaceOf : List String → String
  | w :: next :: rest =>
      if w = "-n" ∨ w = "--namespace" then next else namespaceOf (next :: rest)
  | _ => ""

def extractNamespace (cmd : String) : String := namespaceOf (fields cmd)

/-- The first word that is not a flag.
Source: `extractResource` -/
def extractResource (rest : String) : String :=
  ((fields rest).find? fun w => !hasPrefix w "-").getD ""

def extractExitCode (result : String) : Int :=
  if contains result "exit status 1" ∨ contains result "exit code 1" then 1
  else if hasPrefix result "error:" ∨ hasPrefix result "Error" then 1
  else 0

def formatSummary (verb resource ns : String) : String :=
  if resource = "" ∧ ns = "" then verb
  else if resource = "" then verb ++ " in " ++ ns
  else if ns = "" then verb ++ " " ++ resource
  else verb ++ " " ++ resource ++ " in " ++ ns

/-- The words for what a subcommand did.
Source: `buildMutationSummary` -/
def mutationVerbs : List (String × String) :=
  [("apply", "Applied"), ("create_or_update", "Applied"), ("create", "Created"),
    ("patch", "Patched"), ("delete", "Deleted"), ("replace", "Replaced"), ("scale", "Scaled"),
    ("rollout", "Rolled out"), ("label", "Labeled"), ("annotate", "Annotated"),
    ("drain", "Drained"), ("cordon", "Cordoned"), ("uncordon", "Uncordoned"),
    ("taint", "Tainted"), ("install", "Installed"), ("upgrade", "Upgraded"),
    ("uninstall", "Uninstalled"), ("rollback", "Rolled back")]

def buildMutationSummary (subcommand resource ns : String) : String :=
  formatSummary ((mutationVerbs.lookup subcommand).getD ("Ran " ++ subcommand)) resource ns

/-- The words for what a subcommand read.
Source: `buildReadSummary` -/
def readVerbs : List (String × String) :=
  [("get", "Listed"), ("describe", "Described"), ("logs", "Checked logs for"),
    ("rollout", "Checked rollout of")]

def buildReadSummary (subcommand resource ns : String) : String :=
  formatSummary ((readVerbs.lookup subcommand).getD ("Ran " ++ subcommand ++ " on")) resource ns

/-! ### MCP tools -/

structure KubernetesResourceRef where
  kind : String := ""
  name : String := ""
  namespace_ : String := ""
deriving DecidableEq, Repr

/-- Source: `kubernetesResourceRef.String` -/
def KubernetesResourceRef.toText (r : KubernetesResourceRef) : String :=
  if r.kind = "" ∧ r.name = "" then ""
  else if r.kind = "" then r.name
  else if r.name = "" then r.kind
  else r.kind ++ "/" ++ r.name

/-- The decoder of manifests: kind, name and namespace, or an error.
Source: `gopkg.in/yaml.v3` `Unmarshal` at the struct of `resourceRefFromManifest` -/
abbrev ManifestDecoder := String → Option KubernetesResourceRef

def resourceRefFromArgs (args : Bytes) : KubernetesResourceRef :=
  let v := unmarshalKept [("kind", .string), ("name", .string), ("namespace", .string)]
    (decodeUtf8 args)
  ⟨trimSpace (v.field "kind").asString, trimSpace (v.field "name").asString,
    trimSpace (v.field "namespace").asString⟩

def resourceRefFromManifest (yaml : ManifestDecoder) (manifest : String) : KubernetesResourceRef :=
  match yaml manifest with
  | some r => ⟨trimSpace r.kind, trimSpace r.name, trimSpace r.namespace_⟩
  | none => {}

def resourceRefFromManifestArg (yaml : ManifestDecoder) (args : Bytes) : KubernetesResourceRef :=
  match unmarshal (.struct [("resource", .string)]) (decodeUtf8 args) with
  | some v => resourceRefFromManifest yaml (v.field "resource").asString
  | none => {}

def formatMCPCommand (tool resource ns : String) : String :=
  join ([tool] ++ (if resource ≠ "" then [resource] else []) ++
    (if ns ≠ "" then ["in", ns] else [])) " "

def mcpReadOperation (tool : String) : String :=
  if tool = "pods_log" then "logs"
  else if tool = "pods_exec" then "exec"
  else if tool = "events_list" then "events"
  else "get"

def isMCPDiagnosticTool (tool : String) : Bool :=
  tool ∈ ["pods_log", "pods_exec", "events_list", "resources_get", "pods_get"]

/-- The MCP tools that read.
Source: `parseMCPToolCall` -/
def mcpReadTools : List String :=
  ["resources_get", "resources_list", "pods_get", "pods_list", "pods_list_in_namespace", "pods_log",
    "pods_exec", "events_list"]

/-- The MCP tools that mutate.
Source: `parseMCPToolCall` -/
def mcpMutationTools : List String :=
  ["resources_create_or_update", "resources_delete", "pods_delete", "resources_scale"]

/-- The step of an MCP tool that mutates.
Source: `parseMCPToolCall` -/
def mcpMutationStep (index : Nat) (call : ToolCall) (operation : String)
    (ref : KubernetesResourceRef) : TimelineStep where
  index := index
  phase := .act
  tool := call.tool
  operation := operation
  command := formatMCPCommand call.tool ref.toText ref.namespace_
  resource := ref.toText
  namespace_ := ref.namespace_
  exitCode := extractExitCode call.result
  summary := buildMutationSummary operation ref.toText ref.namespace_

/-- The phase of a step that reads.
Source: `Parse`, `parseMCPToolCall` -/
def readPhase (seenMutation diagnostic : Bool) (readOnlyCount : Nat) : Phase :=
  if seenMutation then .verify
  else if diagnostic ∨ readOnlyCount > 0 then .diagnose
  else .discover

/-- The step of an MCP tool that reads.
Source: `parseMCPToolCall` -/
def mcpReadStep (index : Nat) (call : ToolCall) (seenMutation : Bool) (readOnlyCount : Nat) :
    TimelineStep :=
  let ref := resourceRefFromArgs call.args
  let ref := if call.tool ∈ ["pods_get", "pods_log", "pods_exec"] then { ref with kind := "Pod" }
    else ref
  { index := index
    phase := readPhase seenMutation (isMCPDiagnosticTool call.tool) readOnlyCount
    tool := call.tool
    operation := mcpReadOperation call.tool
    command := formatMCPCommand call.tool ref.toText ref.namespace_
    resource := ref.toText
    namespace_ := ref.namespace_
    exitCode := extractExitCode call.result
    summary := buildReadSummary (mcpReadOperation call.tool) ref.toText ref.namespace_ }

/-- The step of an MCP tool; nothing for a tool that is not known.
Source: `parseMCPToolCall` -/
def parseMCPToolCall (yaml : ManifestDecoder) (index : Nat) (call : ToolCall) (seenMutation : Bool)
    (readOnlyCount : Nat) : Option TimelineStep :=
  if call.tool = "resources_create_or_update" then
    some (mcpMutationStep index call "create_or_update" (resourceRefFromManifestArg yaml call.args))
  else if call.tool = "resources_delete" then
    some (mcpMutationStep index call "delete" (resourceRefFromArgs call.args))
  else if call.tool = "pods_delete" then
    some (mcpMutationStep index call "delete" { resourceRefFromArgs call.args with kind := "Pod" })
  else if call.tool = "resources_scale" then
    some (mcpMutationStep index call "scale" (resourceRefFromArgs call.args))
  else if call.tool ∈ mcpReadTools then some (mcpReadStep index call seenMutation readOnlyCount)
  else none

/-! ### The loop -/

/-- The timeline so far, and what is remembered of the steps in it. -/
structure Progress where
  timeline : Timeline := {}
  seenMutation : Bool := false
  readOnlyCount : Nat := 0

/-- One more step in its phase.
Source: `Parse` -/
def Timeline.add (tl : Timeline) (step : TimelineStep) : Timeline :=
  { tl with
    steps := tl.steps ++ [step]
    phaseCount := Function.update tl.phaseCount step.phase (tl.phaseCount step.phase + 1) }

/-- Whether the command of a call mutates.
Source: `Parse` -/
def isMutationCall (call : ToolCall) : Bool :=
  let cmd := extractCommand call.args
  isMutationCmd (parseCommand cmd).1 (parseCommand cmd).2.1 cmd

/-- Whether the command of a call is a diagnosis.
Source: `Parse` -/
def isDiagnosisCall (call : ToolCall) : Bool :=
  let cmd := extractCommand call.args
  isDiagnosis (parseCommand cmd).1 (parseCommand cmd).2.1 cmd

/-- The step of a command, in its phase.
Source: `Parse` -/
def commandStep (index : Nat) (call : ToolCall) (phase : Phase) : TimelineStep :=
  let cmd := extractCommand call.args
  let subcommand := (parseCommand cmd).2.1
  let ns := extractNamespace cmd
  let resource := extractResource (parseCommand cmd).2.2
  { index := index
    phase := phase
    tool := call.tool
    operation := subcommand
    command := cmd
    resource := resource
    namespace_ := ns
    exitCode := extractExitCode call.result
    summary :=
      if phase = .act then buildMutationSummary subcommand resource ns
      else buildReadSummary subcommand resource ns }

/-- One call. The diagnosis depth is counted with the commands only.
Source: `Parse` -/
def Progress.advance (yaml : ManifestDecoder) (p : Progress) (index : Nat) (call : ToolCall) :
    Progress :=
  if call.tool = "run_command" then
    if isMutationCall call then
      { p with
        timeline :=
          { p.timeline.add (commandStep index call .act) with
            mutationCount := p.timeline.mutationCount + 1 }
        seenMutation := true }
    else
      let phase := readPhase p.seenMutation (isDiagnosisCall call) p.readOnlyCount
      { p with
        timeline :=
          { p.timeline.add (commandStep index call phase) with
            diagnosisDepth :=
              if phase = .diagnose then p.timeline.diagnosisDepth + 1
              else p.timeline.diagnosisDepth }
        readOnlyCount := p.readOnlyCount + 1 }
  else
    match parseMCPToolCall yaml index call p.seenMutation p.readOnlyCount with
    | none => p
    | some step =>
        if step.phase = .act then
          { p with
            timeline :=
              { p.timeline.add step with mutationCount := p.timeline.mutationCount + 1 }
            seenMutation := true }
        else { p with timeline := p.timeline.add step, readOnlyCount := p.readOnlyCount + 1 }

/-- The calls from here on.
Source: `Parse` -/
def Progress.run (yaml : ManifestDecoder) (p : Progress) (index : Nat) : List ToolCall → Progress
  | [] => p
  | call :: rest => Progress.run yaml (p.advance yaml index call) (index + 1) rest

def parse (yaml : ManifestDecoder) (calls : List ToolCall) : Timeline :=
  let tl := (Progress.run yaml {} 0 calls).timeline
  { tl with totalSteps := tl.steps.length }

end EvidraBench.Bench
