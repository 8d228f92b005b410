import EvidraBench.Auth.Session
import EvidraBench.Benchsvc.Runs
import EvidraBench.Benchsvc.Server
import EvidraBench.Scenariopatch.Preview

/-!
# The routes of reviews and patches

`internal/benchsvc`: the handlers that store a review of a run, derive a patch preview from it and
start a validation of the patch, and the routes on which these are read, with or without
authentication.

What a trigger start answers, which job the trigger store has and what the scenario directory holds
are inputs of a call.

Source: `internal/benchsvc/handlers_scenario_validation.go`
-/

namespace EvidraBench.Benchsvc

open EvidraBench.Gostd EvidraBench.Runreview EvidraBench.Scenariopatch

/-! ### Replies -/

structure Reply where
  status : Nat
  contentType : String
  body : Bytes
deriving DecidableEq

/-- Source: `internal/apiutil` `WriteJSON` -/
def writeJSON (status : Nat) (j : Json) : Reply :=
  ⟨status, "application/json", bytesOf (String.ofList (j.text .compact 0 ++ ['\n']))⟩

/-- Source: `internal/apiutil` `WriteError` -/
def writeError (status : Nat) (message : String) : Reply :=
  writeJSON status (.obj [("error", .str message)])

/-! ### The service -/

structure ReviewService where
  scenariosDir : String
  publicTenant : String
  /-- The error of `encoding/json` for a text that it does not decode. -/
  jsonError : Bytes → String
  /-- The error of the database for an artifact without its run. -/
  foreignKey : String
  yaml : Yaml

/-- Source: `pkg/artifact/catalog.go` `HostedRunReview` -/
def hostedRunReview : String := "run_review"

/-- Source: `pkg/artifact/catalog.go` `HostedScenarioPatchPreview` -/
def hostedScenarioPatchPreview : String := "scenario_patch_preview"

/-- Source: `pkg/artifact/catalog.go` `HostedScenarioPatchValidation` -/
def hostedScenarioPatchValidation : String := "scenario_patch_validation"

/-- Store a JSON artifact of a run and reply.
Source: `internal/benchsvc/queries_artifacts.go` `StoreArtifact` -/
def ReviewService.save (svc : ReviewService) (s : RunStore) (id kind : String) (data : Bytes)
    (reply : Reply) : RunStore × Reply :=
  match s.storeArtifact id kind ⟨"application/json", data⟩ with
  | none => (s, writeError 500 ("bench.StoreArtifact: " ++ svc.foreignKey))
  | some s => (s, reply)

/-- Source: `internal/benchsvc/handlers_artifacts.go` `handlePutRunReview` -/
def ReviewService.defaultVisibility (svc : ReviewService) (tenantID : String) : String :=
  if tenantID ≠ "" ∧ tenantID = svc.publicTenant then visibilityPublic else visibilityPrivate

/-- The version of the review that a body is stored as, or why it is not.
Source: `internal/benchsvc/handlers_artifacts.go` `handlePutRunReview` -/
def ReviewService.version (svc : ReviewService) (s : RunStore) (tenantID id : String)
    (body : Except String Review) : Except Reply Review :=
  match s.getRun tenantID id with
  | none => .error (writeError 404 "run not found")
  | some run =>
      match body with
      | .error e => .error (writeError 400 ("invalid JSON: " ++ e))
      | .ok review =>
          match normalizeForRun review id run.columns.scenarioID
            (svc.defaultVisibility tenantID) with
          | .error e => .error (writeError 400 e)
          | .ok normalized => .ok normalized

/-- Source: `internal/benchsvc/handlers_artifacts.go` `handlePutRunReview` -/
def handlePutRunReview (svc : ReviewService) (s : RunStore) (tenantID id : String)
    (body : Except String Review) : RunStore × Reply :=
  match svc.version s tenantID id body with
  | .error reply => (s, reply)
  | .ok normalized =>
      svc.save s id hostedRunReview normalized.marshal (writeJSON 200 normalized.json)

/-! ### Previews -/

/-- Source: `internal/benchsvc/handlers_scenario_patch.go` `scenarioPatchPreviewResponse` -/
structure PreviewResponse where
  version : String
  runID : String
  scenarioID : String
  scenarioPath : String
  changed : Bool
  diff : String
  artifactURL : String
  diffURL : String
  addedRules : List RuleChange
  skippedRules : List RuleSkip

/-- Source: `pkg/scenariopatch/preview.go` `RuleChange` -/
def ruleChangeFields (r : RuleChange) : List StructField :=
  [.string "target" r.target, .string "section" r.sectionName, .string "kind" r.kind,
    .string "pattern" r.pattern]

/-- Source: `pkg/scenariopatch/preview.go` `RuleSkip` -/
def ruleSkipFields (r : RuleSkip) : List StructField :=
  [.string "target" r.target, .string "kind" r.kind, .string "pattern" r.pattern,
    .string "reason" r.reason]

/-- Source: `internal/benchsvc/handlers_scenario_patch.go` `scenarioPatchPreviewResponse` -/
def PreviewResponse.fields (p : PreviewResponse) : List StructField :=
  [.string "version" p.version, .string "run_id" p.runID, .string "scenario_id" p.scenarioID,
    .string "scenario_path" p.scenarioPath, .bool "changed" p.changed, .string "diff" p.diff,
    .string "artifact_url" p.artifactURL, .string "diff_url" p.diffURL,
    .slice "added_rules" (.struct (StructField.types (ruleChangeFields ⟨"", "", "", ""⟩)))
      (p.addedRules.map fun r => item (ruleChangeFields r)),
    .slice "skipped_rules" (.struct (StructField.types (ruleSkipFields ⟨"", "", "", ""⟩)))
      (p.skippedRules.map fun r => item (ruleSkipFields r))]

def PreviewResponse.json (p : PreviewResponse) : Json := .obj (StructField.members p.fields)

structure StoredPreview where
  changed : Bool
  diff : String
  artifactURL : String
  diffURL : String

/-- Whether a preview has a diff.
Source: `internal/benchsvc/handlers_scenario_patch.go` `handleGetScenarioPatchDiff`;
`handlePostScenarioPatchValidation` -/
def StoredPreview.hasDiff (p : StoredPreview) : Bool := p.changed && trimSpace p.diff ≠ ""

/-- An error is a text that is not decoded.
Source: `internal/benchsvc/handlers_scenario_patch.go` `getStoredScenarioPatchPreview` -/
def getStoredScenarioPatchPreview (svc : ReviewService) (s : RunStore) (tenantID id : String) :
    Option (Except String StoredPreview) :=
  (s.getArtifact tenantID id hostedScenarioPatchPreview).map fun a =>
    match unmarshal (.struct [("version", .string), ("run_id", .string), ("scenario_id", .string),
        ("scenario_path", .string), ("changed", .bool), ("diff", .string),
        ("artifact_url", .string), ("diff_url", .string),
        ("added_rules", .slice (.struct (StructField.types (ruleChangeFields ⟨"", "", "", ""⟩)))),
        ("skipped_rules", .slice (.struct (StructField.types (ruleSkipFields ⟨"", "", "", ""⟩))))])
        (decodeUtf8 a.data) with
    | none => .error (svc.jsonError a.data)
    | some v => .ok
        { changed := (v.field "changed").asBool
          diff := (v.field "diff").asString
          artifactURL := (v.field "artifact_url").asString
          diffURL := (v.field "diff_url").asString }

/-- What the scenarios directory has for a scenario: the text of its file, under the path that is
displayed.
Source: `internal/benchsvc/handlers_scenario_patch.go` `handlePostScenarioPatchPreview` -/
inductive ScenarioFile
  | notFound
  | unreadable (err : String)
  | found (displayPath : String) (yaml : Bytes)

/-- Source: `internal/benchsvc/handlers_scenario_patch.go` `newScenarioPatchPreviewResponse` -/
def newScenarioPatchPreviewResponse (runID scenarioID scenarioPath : String) (p : Result) :
    PreviewResponse where
  version := "scenario_patch_preview.v1"
  runID := runID
  scenarioID := scenarioID
  scenarioPath := scenarioPath
  changed := p.changed
  diff := p.diff
  artifactURL := "/v1/bench/runs/" ++ runID ++ "/scenario-patch-preview"
  diffURL := "/v1/bench/runs/" ++ runID ++ "/scenario-patch.diff"
  addedRules := p.addedRules
  skippedRules := p.skippedRules

/-- The preview that is made of the stored review, or the reply if none is.
Source: `internal/benchsvc/handlers_scenario_patch.go` `handlePostScenarioPatchPreview` -/
def ReviewService.newPreview (svc : ReviewService) (s : RunStore) (tenantID id : String)
    (file : ScenarioFile) : Except Reply PreviewResponse :=
  if trimSpace svc.scenariosDir = "" then
    .error (writeError 503 "scenario patch preview requires scenarios directory")
  else
    match s.getRun tenantID id, s.getArtifact tenantID id hostedRunReview with
    | none, _ => .error (writeError 404 "run not found")
    | some _, none => .error (writeError 404 "run review not found")
    | some run, some a =>
        match decode a.data with
        | none => .error (writeError 500 ("parse run review: " ++ svc.jsonError a.data))
        | some review =>
            match normalizeForRun review id run.columns.scenarioID visibilityPrivate with
            | .error e => .error (writeError 500 ("normalize run review: " ++ e))
            | .ok review =>
                match file with
                | .notFound => .error (writeError 404 "scenario not found")
                | .unreadable e => .error (writeError 500 ("read scenario YAML: " ++ e))
                | .found displayPath yaml =>
                    match preview svc.yaml yaml review displayPath with
                    | .error e => .error (writeError 500 e)
                    | .ok p => .ok (newScenarioPatchPreviewResponse id run.columns.scenarioID
                        displayPath p)

/-- Source: `internal/benchsvc/handlers_scenario_patch.go` `handlePostScenarioPatchPreview` -/
def handlePostScenarioPatchPreview (svc : ReviewService) (s : RunStore) (tenantID id : String)
    (file : ScenarioFile) : RunStore × Reply :=
  match svc.newPreview s tenantID id file with
  | .error reply => (s, reply)
  | .ok response =>
      svc.save s id hostedScenarioPatchPreview
        (bytesOf (String.ofList (response.json.text .compact 0))) (writeJSON 200 response.json)

/-! ### Validations -/

structure ValidationRequest where
  runnerID : String := ""
  executionMode : String := ""
  mcpServer : String := ""
  toolServer : String := ""
  toolServerVersion : String := ""
  skillFile : String := ""
  skillID : String := ""
  skillVersion : String := ""
  skillSource : String := ""
  skillSHA256 : String := ""

structure ValidationResponse where
  version : String
  sourceRunID : String
  sourceRunURL : String
  scenarioID : String
  model : String
  provider : String
  triggerID : String
  triggerURL : String
  validationURL : String
  status : String
  mode : String
  currentScenario : String := ""
  total : Int
  completed : Int := 0
  passed : Int := 0
  failed : Int := 0
  validationRunIDs : List String := []
  patchPreviewURL : String
  patchDiffURL : String

/-- Source: `scenarioPatchValidationResponse` -/
def ValidationResponse.fields (v : ValidationResponse) : List StructField :=
  [.string "version" v.version, .string "source_run_id" v.sourceRunID,
    .string "source_run_url" v.sourceRunURL, .string "scenario_id" v.scenarioID,
    .string "model" v.model, .string "provider" v.provider, .string "trigger_id" v.triggerID,
    .string "trigger_url" v.triggerURL, .string "validation_url" v.validationURL,
    .string "status" v.status, .stringOmit "mode" v.mode,
    .stringOmit "current_scenario" v.currentScenario, .int "total" v.total,
    .int "completed" v.completed, .int "passed" v.passed, .int "failed" v.failed,
    .sliceOmit "validation_run_ids" .string (v.validationRunIDs.map fun s => (.str s, .str s)),
    .string "patch_preview_url" v.patchPreviewURL, .string "patch_diff_url" v.patchDiffURL]

def ValidationResponse.json (v : ValidationResponse) : Json := .obj (StructField.members v.fields)

/-- Source: `scenarioPatchValidationResponse` -/
def ValidationResponse.ofValue (v : Value) : ValidationResponse where
  version := (v.field "version").asString
  sourceRunID := (v.field "source_run_id").asString
  sourceRunURL := (v.field "source_run_url").asString
  scenarioID := (v.field "scenario_id").asString
  model := (v.field "model").asString
  provider := (v.field "provider").asString
  triggerID := (v.field "trigger_id").asString
  triggerURL := (v.field "trigger_url").asString
  validationURL := (v.field "validation_url").asString
  status := (v.field "status").asString
  mode := (v.field "mode").asString
  currentScenario := (v.field "current_scenario").asString
  total := (v.field "total").asInt
  completed := (v.field "completed").asInt
  passed := (v.field "passed").asInt
  failed := (v.field "failed").asInt
  validationRunIDs := (v.field "validation_run_ids").asList.map Value.asString
  patchPreviewURL := (v.field "patch_preview_url").asString
  patchDiffURL := (v.field "patch_diff_url").asString

def runURLForRun (runID : String) : String := "/v1/bench/runs/" ++ runID

def previewURLForRun (runID : String) : String :=
  "/v1/bench/runs/" ++ runID ++ "/scenario-patch-preview"

def diffURLForRun (runID : String) : String := "/v1/bench/runs/" ++ runID ++ "/scenario-patch.diff"

def validationURLForRun (runID : String) : String :=
  "/v1/bench/runs/" ++ runID ++ "/scenario-patch-validation"

def firstNonEmpty : List String → String
  | [] => ""
  | value :: rest => if trimSpace value ≠ "" then value else firstNonEmpty rest

/-- Source: `internal/benchsvc/trigger_handler.go` `normalizeTriggerExecutionMode` -/
def normalizeTriggerExecutionMode (mode : String) : Option String :=
  if mode = "" ∨ mode = "provider" then some "provider"
  else if mode = "a2a" then some "a2a"
  else none

def triggerRequestForScenarioPatchValidation (run : RunRow) (o : ValidationRequest) :
    Except Reply TriggerRequest :=
  let mode := if o.executionMode ≠ "" then o.executionMode
    else if run.columns.adapter = "a2a" then "a2a" else "provider"
  match normalizeTriggerExecutionMode mode with
  | none => .error (writeError 400 "execution_mode must be provider or a2a")
  | some executionMode => .ok
      { model := run.columns.model
        provider := run.columns.provider
        runnerID := o.runnerID
        executionMode := executionMode
        mcpServer := o.mcpServer
        toolServer := firstNonEmpty [o.toolServer, run.columns.toolServer]
        toolServerVersion := firstNonEmpty [o.toolServerVersion, run.columns.toolServerVersion]
        skillFile := o.skillFile
        skillID := firstNonEmpty [o.skillID, run.columns.skillID]
        skillVersion := firstNonEmpty [o.skillVersion, run.columns.skillVersion]
        skillSource := firstNonEmpty [o.skillSource, run.columns.skillSource]
        skillSHA256 := firstNonEmpty [o.skillSHA256, run.columns.skillSHA256]
        scenarios := [run.columns.scenarioID] }

/-- Source: `internal/benchsvc/trigger_handler.go` `triggerStartResult` -/
structure TriggerStart where
  id : String
  status : String
  mode : String := ""

def newScenarioPatchValidationResponse (run : RunRow) (req : TriggerRequest)
    (result : TriggerStart) (preview : StoredPreview) : ValidationResponse where
  version := "scenario_patch_validation.v1"
  sourceRunID := run.id
  sourceRunURL := runURLForRun run.id
  scenarioID := run.columns.scenarioID
  model := run.columns.model
  provider := if req.provider ≠ "" then req.provider else run.columns.provider
  triggerID := result.id
  triggerURL := "/v1/bench/trigger/" ++ result.id
  validationURL := validationURLForRun run.id
  status := result.status
  mode := result.mode
  total := req.scenarios.length
  patchPreviewURL := firstNonEmpty [preview.artifactURL, previewURLForRun run.id]
  patchDiffURL := firstNonEmpty [preview.diffURL, diffURLForRun run.id]

/-- The ids without blanks around them, each once, in order of appearance.
Source: `scenarioPatchValidationRunIDs` -/
def scenarioPatchValidationRunIDs (job : TriggerJob) : List String :=
  let ids := (job.runIDs ++ job.progress.map ScenarioProgress.runID).map trimSpace
  ids.foldl (fun seen id => if id = "" ∨ id ∈ seen then seen else seen ++ [id]) []

def enrichScenarioPatchValidationFromTrigger (v : ValidationResponse) :
    Option TriggerJob → ValidationResponse
  | none => v
  | some job =>
      { v with
        status := job.status.text
        model := if job.model ≠ "" then job.model else v.model
        provider := if job.provider ≠ "" then job.provider else v.provider
        total := job.total
        completed := job.completed
        passed := job.passed
        failed := job.failed
        currentScenario := job.currentScenario
        validationRunIDs := scenarioPatchValidationRunIDs job }

/-- What a call of the validation route meets outside the tables: what starting the trigger
answers, and the jobs of the trigger store. -/
structure Triggers where
  start : TriggerRequest → Except Reply TriggerStart
  job : String → Option TriggerJob

/-- The validation that is started, or the reply if none is.
Source: `handlePostScenarioPatchValidation` -/
def ReviewService.newValidation (svc : ReviewService) (s : RunStore) (tenantID id : String)
    (body : Except String ValidationRequest) (triggers : Triggers) :
    Except Reply ValidationResponse :=
  match s.getRun tenantID id, getStoredScenarioPatchPreview svc s tenantID id with
  | none, _ => .error (writeError 404 "run not found")
  | some _, none => .error (writeError 404 "scenario patch preview not found")
  | some _, some (.error e) => .error (writeError 500 e)
  | some run, some (.ok preview) =>
      if !preview.hasDiff then
        .error (writeError 400 "scenario patch validation requires a changed patch preview")
      else
        match body with
        | .error e => .error (writeError 400 ("invalid JSON: " ++ e))
        | .ok overrides => do
            let req ← triggerRequestForScenarioPatchValidation run overrides
            let result ← triggers.start req
            return enrichScenarioPatchValidationFromTrigger
              (newScenarioPatchValidationResponse run req result preview) (triggers.job result.id)

def storeScenarioPatchValidation (svc : ReviewService) (s : RunStore) (id : String)
    (v : ValidationResponse) (reply : Reply) : RunStore × Reply :=
  svc.save s id hostedScenarioPatchValidation (bytesOf (String.ofList (v.json.text .compact 0)))
    reply

def handlePostScenarioPatchValidation (svc : ReviewService) (s : RunStore) (tenantID id : String)
    (body : Except String ValidationRequest) (triggers : Triggers) : RunStore × Reply :=
  match svc.newValidation s tenantID id body triggers with
  | .error reply => (s, reply)
  | .ok v => storeScenarioPatchValidation svc s id v (writeJSON 202 v.json)

def normalizeScenarioPatchValidation (v : ValidationResponse) (runID : String) :
    ValidationResponse :=
  let sourceRunID := orDefault v.sourceRunID runID
  { v with
    version := orDefault v.version "scenario_patch_validation.v1"
    sourceRunID := sourceRunID
    sourceRunURL := orDefault v.sourceRunURL (runURLForRun sourceRunID)
    validationURL := orDefault v.validationURL (validationURLForRun sourceRunID)
    patchPreviewURL := orDefault v.patchPreviewURL (previewURLForRun sourceRunID)
    patchDiffURL := orDefault v.patchDiffURL (diffURLForRun sourceRunID) }

/-- An error is a text that is not decoded.
Source: `getStoredScenarioPatchValidation` -/
def getStoredScenarioPatchValidation (svc : ReviewService) (s : RunStore) (tenantID id : String) :
    Option (Except String ValidationResponse) :=
  (s.getArtifact tenantID id hostedScenarioPatchValidation).map fun a =>
    match unmarshal (.struct [("version", .string), ("source_run_id", .string),
        ("source_run_url", .string), ("scenario_id", .string), ("model", .string),
        ("provider", .string), ("trigger_id", .string), ("trigger_url", .string),
        ("validation_url", .string), ("status", .string), ("mode", .string),
        ("current_scenario", .string), ("total", .int), ("completed", .int), ("passed", .int),
        ("failed", .int), ("validation_run_ids", .slice .string), ("patch_preview_url", .string),
        ("patch_diff_url", .string)]) (decodeUtf8 a.data) with
    | none => .error (svc.jsonError a.data)
    | some v => .ok (normalizeScenarioPatchValidation (.ofValue v) id)

/-! ### Reads -/

/-- Source: `internal/benchsvc/handlers.go` `hasSessionCookie` -/
def hasSessionCookie (r : Auth.Request) : Bool :=
  match r.sessionCookie with
  | none => false
  | some value => !Auth.isBlank value

/-- Source: `internal/benchsvc/handlers_runs.go` `isAnonymousRead` -/
def isAnonymousRead (r : Auth.Request) : Bool :=
  Auth.isBlank r.authorization && !hasSessionCookie r

/-- The tenant that a request reads for. `authMw` is the authentication: the tenant, or the reply
that turns the request away.
Source: `internal/benchsvc/handlers.go` `readTenantMiddleware` -/
def readTenantMiddleware (svc : ReviewService) (authMw : Auth.Request → Except Reply String)
    (r : Auth.Request) : Except Reply String :=
  if !Auth.isBlank r.authorization || hasSessionCookie r then authMw r
  else if svc.publicTenant = "" then .error (writeError 503 "benchsvc: public tenant not configured")
  else .ok svc.publicTenant

/-- Source: `internal/benchsvc/handlers_artifacts.go` `handleGetRunReview` -/
def handleGetRunReview (svc : ReviewService) (s : RunStore) (tenantID id : String)
    (r : Auth.Request) : Reply :=
  match s.getArtifact tenantID id hostedRunReview with
  | none => writeError 404 "run review not found"
  | some a =>
      match decode a.data with
      | none => writeError 500 ("parse run review: " ++ svc.jsonError a.data)
      | some review =>
          -- the session cookie is not asked for here
          if Auth.isBlank r.authorization && !review.isPublic then
            writeError 404 "run review not found"
          else writeJSON 200 review.json

/-- The reply that turns a read away, if one does.
Source: `internal/benchsvc/handlers_scenario_patch.go` `authorizeScenarioPatchArtifactRead` -/
def authorizeScenarioPatchArtifactRead (svc : ReviewService) (s : RunStore) (tenantID id : String)
    (r : Auth.Request) (notFoundMessage : String) : Option Reply :=
  match s.getArtifact tenantID id hostedRunReview with
  | none => some (writeError 404 notFoundMessage)
  | some a =>
      match decode a.data with
      | none => some (writeError 500 ("parse run review: " ++ svc.jsonError a.data))
      | some review =>
          if isAnonymousRead r && !review.isPublic then some (writeError 404 notFoundMessage)
          else none

/-- Source: `internal/benchsvc/handlers_scenario_patch.go` `handleGetScenarioPatchPreview` -/
def handleGetScenarioPatchPreview (svc : ReviewService) (s : RunStore) (tenantID id : String)
    (r : Auth.Request) : Reply :=
  match authorizeScenarioPatchArtifactRead svc s tenantID id r
    "scenario patch preview not found" with
  | some reply => reply
  | none =>
      match s.getArtifact tenantID id hostedScenarioPatchPreview with
      | none => writeError 404 "scenario patch preview not found"
      | some a => ⟨200, a.contentType, a.data⟩

/-- Source: `internal/benchsvc/handlers_scenario_patch.go` `handleGetScenarioPatchDiff` -/
def handleGetScenarioPatchDiff (svc : ReviewService) (s : RunStore) (tenantID id : String)
    (r : Auth.Request) : Reply :=
  match authorizeScenarioPatchArtifactRead svc s tenantID id r
    "scenario patch preview not found" with
  | some reply => reply
  | none =>
      match getStoredScenarioPatchPreview svc s tenantID id with
      | none => writeError 404 "scenario patch preview not found"
      | some (.error e) => writeError 500 e
      | some (.ok preview) =>
          if !preview.hasDiff then writeError 404 "scenario patch diff not found"
          else ⟨200, "text/x-diff; charset=utf-8", bytesOf preview.diff⟩

/-- The stored validation and its job, or the reply if there is none to be read. `job` is the
trigger store.
Source: `handleGetScenarioPatchValidation` -/
def ReviewService.readValidation (svc : ReviewService) (s : RunStore) (tenantID id : String)
    (r : Auth.Request) (job : String → Option TriggerJob) :
    Except Reply (ValidationResponse × Option TriggerJob) :=
  match authorizeScenarioPatchArtifactRead svc s tenantID id r
    "scenario patch validation not found" with
  | some reply => .error reply
  | none =>
      match getStoredScenarioPatchValidation svc s tenantID id with
      | none => .error (writeError 404 "scenario patch validation not found")
      | some (.error e) => .error (writeError 500 e)
      | some (.ok v) => .ok (v, job v.triggerID)

/-- A read that stores what the trigger store has by now.
Source: `handleGetScenarioPatchValidation` -/
def handleGetScenarioPatchValidation (svc : ReviewService) (s : RunStore) (tenantID id : String)
    (r : Auth.Request) (job : String → Option TriggerJob) : RunStore × Reply :=
  match svc.readValidation s tenantID id r job with
  | .error reply => (s, reply)
  | .ok (v, none) => (s, writeJSON 200 v.json)
  | .ok (v, some job) =>
      let v := enrichScenarioPatchValidationFromTrigger v (some job)
      storeScenarioPatchValidation svc s id v (writeJSON 200 v.json)

end EvidraBench.Benchsvc
