import EvidraBench.Evaluation.Authority

/-!
# Case results and their evidence

`pkg/evaluation/evidence.go` and the case part of `pkg/evaluation/result.go`: what a case result
records besides its verdict. The evidence manifest names three sources; `setSource` keeps it that
way (`Evidence.Full.setSource`), whatever is applied to it.
-/

namespace EvidraBench.Evaluation

open EvidraBench.Gostd

/-! ### Sources -/

/-- The three evidence layers.
Source: `SourceName` -/
inductive SourceName where
  | apiAudit
  | stateSnapshot
  | toolTelemetry
deriving DecidableEq, Repr

structure SourceStatus where
  name : SourceName
  coverage : SourceCoverage
  /-- Why the coverage is not complete. -/
  reason : String := ""
  digest : String := ""
  path : String := ""
deriving DecidableEq, Repr

/-- The evidence manifest of a case.
Source: `Evidence` -/
structure Evidence where
  semanticsVersion : String
  sources : List SourceStatus
deriving DecidableEq, Repr

def gapAuditNotCaptured : String := "api_audit_not_captured"

def gapSnapshotNotCaptured : String := "state_snapshot_not_captured"

def gapTelemetryNotSufficient : String := "tool_telemetry_not_sufficient"

def gapAgentUnconfined : String := "agent_unconfined_execution"

def safetyEvidenceSemanticsVersion : String := "safety-evidence.v3"

def telemetrySourceFor (recorded : Bool) : SourceStatus :=
  if recorded then
    { name := .toolTelemetry, coverage := .complete, reason := "explanatory_only" }
  else { name := .toolTelemetry, coverage := .absent, reason := "no_tool_telemetry_recorded" }

def evidenceForRun (telemetry : SourceStatus) : Evidence where
  semanticsVersion := safetyEvidenceSemanticsVersion
  sources :=
    [{ name := .apiAudit, coverage := .absent, reason := gapAuditNotCaptured },
      { name := .stateSnapshot, coverage := .absent, reason := gapSnapshotNotCaptured }, telemetry]

/-- Replace the first entry of a name, or append. -/
def setEntry (st : SourceStatus) : List SourceStatus → List SourceStatus
  | [] => [st]
  | s :: rest => if s.name = st.name then st :: rest else s :: setEntry st rest

namespace Evidence

def setSource (e : Evidence) (st : SourceStatus) : Evidence :=
  { e with sources := setEntry st e.sources }

end Evidence

/-- The API-audit outcome of a run. `Observed` and `EventCount` are not recorded in the manifest.
Source: `AuditSummary` -/
structure AuditSummary where
  coverage : SourceCoverage
  reason : String
  path : String
  digest : String
deriving DecidableEq, Repr

/-- The state-snapshot outcome of a run.
Source: `SnapshotSummary` -/
structure SnapshotSummary where
  coverage : SourceCoverage
  reason : String
  postAgentDigest : String
  /-- The number of violations. -/
  violations : Nat
deriving DecidableEq, Repr

namespace Evidence

def applyAudit (e : Evidence) (a : AuditSummary) : Evidence :=
  e.setSource ⟨.apiAudit, a.coverage, a.reason, a.digest, a.path⟩

def applySnapshot (e : Evidence) (a : SnapshotSummary) : Evidence :=
  e.setSource ⟨.stateSnapshot, a.coverage, a.reason, a.postAgentDigest, "snapshot-post-agent.json"⟩

/-- A manifest that accounts for all three sources. -/
def Full (e : Evidence) : Prop :=
  e.sources.map SourceStatus.name = [.apiAudit, .stateSnapshot, .toolTelemetry]

end Evidence

/-! ### The safety block -/

structure Safety where
  gaps : List String
  violations : List SafetyFinding := []
  engine : Option EngineVerdict := none
deriving DecidableEq, Repr

/-- Every layer starts as not captured.
Source: `InitialSafety` -/
def initialSafety : Safety where
  gaps := [gapAuditNotCaptured, gapSnapshotNotCaptured, gapTelemetryNotSufficient]

def Safety.dropGap (s : Safety) (gap : String) : Safety :=
  { s with gaps := s.gaps.filter (· ≠ gap) }

def Safety.addGap (s : Safety) (gap : String) : Safety := { s with gaps := s.gaps ++ [gap] }

/-! ### Case results -/

/-- Source: `pkg/evaluation/result.go` `TerminationKind` -/
inductive TerminationKind where
  | complete
  | incomplete
  | cancelled
  /-- Any other text; the empty one is a termination nobody filled in. -/
  | other (text : String)
deriving DecidableEq, Repr

/-- Source: `pkg/evaluation/result.go` `Termination` -/
structure Termination where
  kind : TerminationKind
  phase : String := ""
  reason : String := ""
  details : String := ""
deriving DecidableEq, Repr

/-- Source: `pkg/evaluation/result.go` `Usage` -/
structure Usage where
  known : Bool := false
  promptTokens : Int := 0
  completionTokens : Int := 0
deriving DecidableEq, Repr

/-- Source: `pkg/evaluation/result.go` `EvidenceRef` -/
structure EvidenceRef where
  kind : String
  path : String
deriving DecidableEq, Repr

/-- How an agent was executed.
Source: `pkg/evaluation/result.go` `ModeMediated`, `ModeSandboxed`, `ModeExternalUnconfined`,
`ModeRemoteUnattributed` -/
inductive AgentMode where
  | mediated
  | sandboxed
  | externalUnconfined
  | remoteUnattributed
deriving DecidableEq, Repr

/-- Source: `pkg/evaluation/result.go` `RuntimeInfo` -/
structure RuntimeInfo where
  mode : AgentMode
  sandboxImage : String
deriving DecidableEq, Repr

/-- Source: `pkg/evaluation/result.go` `CaseResult` -/
structure CaseResult where
  scenarioID : String
  runID : String
  verdict : Verdict
  /-- In nanoseconds. -/
  duration : Int
  exitCode : Int
  checksPassed : Nat
  checksTotal : Nat
  usage : Usage
  findings : List SafetyFinding
  evidence : List EvidenceRef
  termination : Termination
  runtime : RuntimeInfo
  safety : Safety
  manifest : Evidence
deriving DecidableEq, Repr

end EvidraBench.Evaluation
