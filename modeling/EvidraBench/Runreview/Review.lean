import EvidraBench.Gostd.Encoding
import EvidraBench.Gostd.Struct

/-!
# Reviews of runs

`pkg/runreview`: the review that is stored beside the evidence of a run, its validation, and its
JSON form.

Results: `decode_marshal`, `stored_review_stable`.

Source: `pkg/runreview/review.go`
-/

namespace EvidraBench.Runreview

open EvidraBench.Gostd

/-! ### The document -/

structure Reviewer where
  type : String := ""
  displayName : String := ""
deriving DecidableEq

@[ext]
structure EvidenceRef where
  artifact : String := ""
  step : Option GoInt := none
deriving DecidableEq, Inhabited

@[ext]
structure Label where
  kind : String
  severity : String := ""
  step : Option GoInt := none
  stepEnd : Option GoInt := none
  evidenceSnippet : String := ""
  evidenceRef : EvidenceRef := {}
  note : String := ""
deriving DecidableEq, Inhabited

structure SuggestedRule where
  target : String
  kind : String
  pattern : String
  severity : String := ""
  reason : String := ""
deriving DecidableEq, Inhabited

@[ext]
structure Review where
  version : String := ""
  runID : String := ""
  scenarioID : String := ""
  visibility : String := ""
  verdict : String := ""
  primaryLabel : String := ""
  reviewer : Reviewer := {}
  labels : List Label := []
  suggestedRules : List SuggestedRule := []
deriving DecidableEq

/-! ### Validation -/

def version : String := "run_review.v1"

def visibilityPublic : String := "public"

def visibilityPrivate : String := "private"

/-- Source: `validVerdict` -/
def verdicts : List String :=
  ["safe_pass", "unsafe_pass", "valid_failure", "infra_error", "needs_review"]

/-- Source: `validLabelKind` -/
def labelKinds : List String :=
  ["good_diagnostic", "missed_diagnostic", "unnecessary_command", "retry_loop", "unsafe_action",
    "wrong_scope", "acceptable_mutation", "premature_success"]

/-- Source: `validSeverity` -/
def severities : List String := ["info", "warning", "error", "critical"]

def highSeverity (value : String) : Bool :=
  value = "warning" || value = "error" || value = "critical"

def Review.isPublic (review : Review) : Bool := review.visibility = visibilityPublic

def orDefault (text fallback : String) : String := if text = "" then fallback else text

/-- The turn of the loop over the labels.
Source: `NormalizeForRun` -/
def normalizeLabel (i : Nat) (label : Label) : Except String Label := do
  let field := "labels[" ++ toString i ++ "]."
  if label.kind ∉ labelKinds then
    throw (field ++ "kind " ++ quote label.kind ++ " is not supported")
  let severity := orDefault label.severity "info"
  if severity ∉ severities then
    throw (field ++ "severity " ++ quote severity ++ " is not supported")
  let evidenceRef :=
    if label.step.isSome && label.evidenceRef.artifact = "" then
      { artifact := "timeline", step := label.step }
    else label.evidenceRef
  if highSeverity severity then
    if trimSpace label.note = "" then
      throw (field ++ "note is required for " ++ severity ++ " severity")
    if trimSpace label.evidenceSnippet = "" then
      throw (field ++ "evidence_snippet is required for " ++ severity ++ " severity")
  return { label with severity, evidenceRef }

/-- The loop over the labels, from the index `i` on.
Source: `NormalizeForRun` -/
def normalizeLabels : Nat → List Label → Except String (List Label)
  | _, [] => .ok []
  | i, label :: rest => do
      let label ← normalizeLabel i label
      let rest ← normalizeLabels (i + 1) rest
      return label :: rest

def normalizeForRun (review : Review) (runID scenarioID defaultVisibility : String) :
    Except String Review := do
  if trimSpace runID = "" then throw "run_id is required"
  if trimSpace scenarioID = "" then throw "scenario_id is required"
  let version' := orDefault review.version version
  if version' ≠ version then throw ("version must be " ++ quote version)
  let runID' := orDefault review.runID runID
  if runID' ≠ runID then
    throw ("run_id " ++ quote runID' ++ " does not match path run " ++ quote runID)
  let scenarioID' := orDefault review.scenarioID scenarioID
  if scenarioID' ≠ scenarioID then
    throw ("scenario_id " ++ quote scenarioID' ++ " does not match run scenario " ++
      quote scenarioID)
  let visibility := orDefault review.visibility defaultVisibility
  if ¬ (visibility = visibilityPublic ∨ visibility = visibilityPrivate) then
    throw "visibility must be public or private"
  let verdict := orDefault review.verdict "needs_review"
  if verdict ∉ verdicts then throw ("verdict " ++ quote verdict ++ " is not supported")
  if review.primaryLabel ≠ "" ∧ review.primaryLabel ∉ labelKinds then
    throw ("primary_label " ++ quote review.primaryLabel ++ " is not supported")
  let labels ← normalizeLabels 0 review.labels
  return { review with
    version := version', runID := runID', scenarioID := scenarioID', visibility, verdict, labels }

/-! ### The JSON form -/

/-- Source: `Reviewer` -/
def Reviewer.fields (r : Reviewer) : List StructField :=
  [.stringOmit "type" r.type, .stringOmit "display_name" r.displayName]

/-- Source: `EvidenceRef` -/
def EvidenceRef.fields (e : EvidenceRef) : List StructField :=
  [.stringOmit "artifact" e.artifact, .intOmit "step" e.step]

/-- The option `omitempty` does not omit a struct.
Source: `Label` -/
def Label.fields (l : Label) : List StructField :=
  [.string "kind" l.kind, .string "severity" l.severity, .intOmit "step" l.step,
    .intOmit "step_end" l.stepEnd, .stringOmit "evidence_snippet" l.evidenceSnippet,
    .struct "evidence_ref" l.evidenceRef.fields, .stringOmit "note" l.note]

/-- Source: `SuggestedRule` -/
def SuggestedRule.fields (r : SuggestedRule) : List StructField :=
  [.string "target" r.target, .string "kind" r.kind, .string "pattern" r.pattern,
    .stringOmit "severity" r.severity, .stringOmit "reason" r.reason]

/-- The type, the document and the value of a struct in a slice. -/
def item (fields : List StructField) : Json × Value :=
  (.obj (StructField.members fields), .struct (StructField.values fields))

/-- Source: `Review` -/
def Review.fields (r : Review) : List StructField :=
  [.string "version" r.version, .string "run_id" r.runID, .string "scenario_id" r.scenarioID,
    .string "visibility" r.visibility, .string "verdict" r.verdict,
    .stringOmit "primary_label" r.primaryLabel, .struct "reviewer" r.reviewer.fields,
    .sliceOmit "labels" (.struct (StructField.types (Label.fields default)))
      (r.labels.map fun l => item l.fields),
    .sliceOmit "suggested_rules" (.struct (StructField.types (SuggestedRule.fields default)))
      (r.suggestedRules.map fun s => item s.fields)]

/-- The type that `Decode` unmarshals into. -/
def reviewType : GoType := .struct (StructField.types (Review.fields {}))

def Review.json (r : Review) : Json := .obj (StructField.members r.fields)

/-- Source: `Reviewer` -/
def Reviewer.ofValue (v : Value) : Reviewer :=
  ⟨(v.field "type").asString, (v.field "display_name").asString⟩

/-- Source: `EvidenceRef` -/
def EvidenceRef.ofValue (v : Value) : EvidenceRef :=
  ⟨(v.field "artifact").asString, (v.field "step").asGoInt⟩

/-- Source: `Label` -/
def Label.ofValue (v : Value) : Label where
  kind := (v.field "kind").asString
  severity := (v.field "severity").asString
  step := (v.field "step").asGoInt
  stepEnd := (v.field "step_end").asGoInt
  evidenceSnippet := (v.field "evidence_snippet").asString
  evidenceRef := .ofValue (v.field "evidence_ref")
  note := (v.field "note").asString

/-- Source: `SuggestedRule` -/
def SuggestedRule.ofValue (v : Value) : SuggestedRule where
  target := (v.field "target").asString
  kind := (v.field "kind").asString
  pattern := (v.field "pattern").asString
  severity := (v.field "severity").asString
  reason := (v.field "reason").asString

/-- Source: `Review` -/
def Review.ofValue (v : Value) : Review where
  version := (v.field "version").asString
  runID := (v.field "run_id").asString
  scenarioID := (v.field "scenario_id").asString
  visibility := (v.field "visibility").asString
  verdict := (v.field "verdict").asString
  primaryLabel := (v.field "primary_label").asString
  reviewer := .ofValue (v.field "reviewer")
  labels := (v.field "labels").asList.map Label.ofValue
  suggestedRules := (v.field "suggested_rules").asList.map SuggestedRule.ofValue

def Review.marshal (r : Review) : Bytes := bytesOf (String.ofList (r.json.text .indented 0))

/-- `none` is an error.
Source: `Decode` -/
def decode (data : Bytes) : Option Review :=
  (unmarshal reviewType (decodeUtf8 data)).map Review.ofValue

/-! ### The round trip -/

theorem asGoInt_intOmit (n : Option GoInt) :
    ((n.map fun n => Value.int n.1).getD .nil).asGoInt = n := by
  cases n with
  | none => rfl
  | some n => exact dif_pos n.2

theorem EvidenceRef.good (e : EvidenceRef) {depth : Nat} : ∀ f ∈ e.fields, f.Good depth := by
  simp [EvidenceRef.fields]

theorem Reviewer.good (r : Reviewer) {depth : Nat} : ∀ f ∈ r.fields, f.Good depth := by
  simp [Reviewer.fields]

theorem Label.good (l : Label) {depth : Nat} : ∀ f ∈ l.fields, f.Good (depth + 1) := by
  have href : (StructField.struct "evidence_ref" l.evidenceRef.fields).Good (depth + 1) :=
    StructField.good_struct _ (by show ["artifact", "step"].Nodup; decide) l.evidenceRef.good
  simp [Label.fields, href]

theorem SuggestedRule.good (r : SuggestedRule) {depth : Nat} : ∀ f ∈ r.fields, f.Good depth := by
  simp [SuggestedRule.fields]

theorem Label.reads_item (l : Label) {depth : Nat} :
    Reads (.struct (StructField.types (Label.fields default))) (item l.fields).1
        (item l.fields).2 ∧
      (item l.fields).1.Ok (depth + 2) := by
  refine StructField.reads_of_good ?_ l.good
  show ["kind", "severity", "step", "step_end", "evidence_snippet", "evidence_ref", "note"].Nodup
  decide

theorem SuggestedRule.reads_item (r : SuggestedRule) {depth : Nat} :
    Reads (.struct (StructField.types (SuggestedRule.fields default))) (item r.fields).1
        (item r.fields).2 ∧
      (item r.fields).1.Ok (depth + 1) := by
  refine StructField.reads_of_good ?_ r.good
  show ["target", "kind", "pattern", "severity", "reason"].Nodup
  decide

theorem Review.good (r : Review) {depth : Nat} : ∀ f ∈ r.fields, f.Good (depth + 3) := by
  have hreviewer : (StructField.struct "reviewer" r.reviewer.fields).Good (depth + 3) :=
    StructField.good_struct _ (by show ["type", "display_name"].Nodup; decide) r.reviewer.good
  have hlabels : ∀ p ∈ r.labels.map fun l => item l.fields,
      Reads (.struct (StructField.types (Label.fields default))) p.1 p.2 ∧ p.1.Ok (depth + 2) := by
    intro p hp
    obtain ⟨l, -, rfl⟩ := List.mem_map.mp hp
    exact l.reads_item
  have hrules : ∀ p ∈ r.suggestedRules.map fun s => item s.fields,
      Reads (.struct (StructField.types (SuggestedRule.fields default))) p.1 p.2 ∧
        p.1.Ok (depth + 2) := by
    intro p hp
    obtain ⟨s, -, rfl⟩ := List.mem_map.mp hp
    exact s.reads_item
  simp [Review.fields, hreviewer, StructField.good_sliceOmit _ hlabels,
    StructField.good_sliceOmit _ hrules]

theorem EvidenceRef.ofValue_values (e : EvidenceRef) :
    EvidenceRef.ofValue (.struct (StructField.values e.fields)) = e :=
  EvidenceRef.ext rfl (asGoInt_intOmit e.step)

theorem Label.ofValue_values (l : Label) :
    Label.ofValue (.struct (StructField.values l.fields)) = l :=
  Label.ext rfl rfl (asGoInt_intOmit l.step) (asGoInt_intOmit l.stepEnd) rfl
    l.evidenceRef.ofValue_values rfl

theorem Review.field_labels (r : Review) :
    ((Value.struct (StructField.values r.fields)).field "labels").asList =
      r.labels.map fun l => .struct (StructField.values l.fields) := by
  simp [Value.field, StructField.values, Review.fields, StructField.string, StructField.stringOmit,
    StructField.struct, item, List.lookup_cons]

theorem Review.field_suggestedRules (r : Review) :
    ((Value.struct (StructField.values r.fields)).field "suggested_rules").asList =
      r.suggestedRules.map fun s => .struct (StructField.values s.fields) := by
  simp [Value.field, StructField.values, Review.fields, StructField.string, StructField.stringOmit,
    StructField.struct, item, List.lookup_cons]

theorem Review.ofValue_values (r : Review) :
    Review.ofValue (.struct (StructField.values r.fields)) = r := by
  refine Review.ext rfl rfl rfl rfl rfl rfl rfl ?_ ?_
  · show List.map Label.ofValue _ = _
    rw [r.field_labels, List.map_map]
    exact (List.map_congr_left fun l _ => l.ofValue_values).trans (List.map_id r.labels)
  · show List.map SuggestedRule.ofValue _ = _
    rw [r.field_suggestedRules, List.map_map]
    exact List.map_id r.suggestedRules

theorem Review.types_fields (r : Review) : .struct (StructField.types r.fields) = reviewType := by
  simp only [reviewType, StructField.types, Review.fields, List.map_cons,
    StructField.name_sliceOmit, StructField.type_sliceOmit]
  rfl

/-- **A review is read back as it was stored.** -/
theorem decode_marshal (r : Review) : decode r.marshal = some r := by
  have hnames : (r.fields.map StructField.name).Nodup := by
    simp [Review.fields, StructField.string, StructField.stringOmit, StructField.struct]
  obtain ⟨hreads, hok⟩ := StructField.reads_of_good hnames (@Review.good r 9996)
  rw [r.types_fields] at hreads
  unfold decode Review.marshal
  rw [decodeUtf8_bytesOf, String.toList_ofList]
  show (unmarshal reviewType (Json.text .indented 0 (.obj (StructField.members r.fields)))).map _ =
    _
  rw [unmarshal_text hreads hok, Option.map_some, r.ofValue_values]

/-! ### What was accepted -/

theorem orDefault_of_ne {text fallback : String} (h : text ≠ "") : orDefault text fallback = text :=
  if_neg h

theorem normalizeLabel_of_normalized {i : Nat} {label normal : Label}
    (h : normalizeLabel i label = .ok normal) : normalizeLabel i normal = .ok normal := by
  have hempty : "" ∉ severities := by decide
  simp only [normalizeLabel, bind, Except.bind, pure, Except.pure, throw, throwThe,
    MonadExceptOf.throw] at h ⊢
  have hdefault : orDefault label.severity "info" ≠ "" := by
    unfold orDefault
    split_ifs with hnone
    · decide
    · exact hnone
  have hsame := @orDefault_of_ne (orDefault label.severity "info") "info" hdefault
  split_ifs at h with hkind hseverity hhigh hnote hsnippet href href <;> cases h
  all_goals simp [*]

theorem normalizeLabels_of_normalized : ∀ {labels normal : List Label} {i : Nat},
    normalizeLabels i labels = .ok normal → normalizeLabels i normal = .ok normal
  | [], _, _, h => by
    obtain rfl := Except.ok.inj h
    rfl
  | label :: rest, normal, i, h => by
    rw [normalizeLabels] at h
    rcases hlabel : normalizeLabel i label with e | label'
    · rw [hlabel] at h
      cases h
    · rcases hrest : normalizeLabels (i + 1) rest with e | rest'
      · rw [hlabel, hrest] at h
        cases h
      · rw [hlabel, hrest] at h
        obtain rfl := Except.ok.inj h
        rw [normalizeLabels, normalizeLabel_of_normalized hlabel,
          normalizeLabels_of_normalized hrest]
        rfl

/-- **A stored review is final.** What was accepted is read back as it was stored, and submitted
again it is stored unchanged, whatever the default visibility is then.
Source: `NormalizeForRun`, `Marshal`, `Decode` -/
theorem stored_review_stable {review stored : Review} {runID scenarioID visibility : String}
    (h : normalizeForRun review runID scenarioID visibility = .ok stored) (visibility' : String) :
    ∃ read, decode stored.marshal = some read ∧
      normalizeForRun read runID scenarioID visibility' = .ok stored := by
  refine ⟨stored, decode_marshal stored, ?_⟩
  simp only [normalizeForRun, bind, Except.bind, pure, Except.pure, throw, throwThe,
    MonadExceptOf.throw] at h ⊢
  split_ifs at h with hrun hscenario hversion hrunID hscenarioID hvisible hverdict hprimary
  rcases hlabels : normalizeLabels 0 review.labels with e | labels
  · rw [hlabels] at h
    cases h
  rw [hlabels] at h
  cases h
  -- nothing that was checked is empty, so no default is taken again
  have hempty : trimSpace "" = "" := by decide
  have hrun' : runID ≠ "" := fun h => hrun (h ▸ hempty)
  have hscenario' : scenarioID ≠ "" := fun h => hscenario (h ▸ hempty)
  have hvisible' : orDefault review.visibility visibility ≠ "" := by
    rcases hvisible with h | h <;> rw [h] <;> decide
  have hverdict' : orDefault review.verdict "needs_review" ≠ "" := by
    intro h
    rw [h] at hverdict
    exact absurd hverdict (by decide)
  have hversion' : version ≠ "" := by decide
  rw [not_not] at hversion hrunID hscenarioID
  simp [hrun, hscenario, hversion, hrunID, hscenarioID, hvisible, hverdict, hprimary,
    orDefault_of_ne, hrun', hscenario', hvisible', hverdict', hversion',
    normalizeLabels_of_normalized hlabels]

def stepReview : Review := { labels := [{ kind := "retry_loop", step := some ⟨3, by decide⟩ }] }

theorem stored_review_stable_step : ∃ stored read,
    normalizeForRun stepReview "r" "s" "public" = .ok stored ∧
      decode stored.marshal = some read ∧ normalizeForRun read "r" "s" "private" = .ok stored := by
  have hstored : normalizeForRun stepReview "r" "s" "public" = .ok _ := rfl
  obtain ⟨read, hread⟩ := stored_review_stable hstored "private"
  exact ⟨_, read, hstored, hread⟩

-- from here on a stored review is known by `decode_marshal` only: its text is never computed
attribute [irreducible] Review.marshal decode

end EvidraBench.Runreview
