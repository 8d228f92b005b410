import EvidraBench.Runreview.Review

/-!
# Patches of scenarios

`pkg/scenariopatch`: what the suggested rules of a review would change in the YAML of a scenario.
The rules are added to a tree of nodes one after the other; a rule that cannot be added is skipped,
with the reason.

Parsing and writing YAML and the unified diff are third-party code (`Yaml`).

Source: `pkg/scenariopatch/preview.go`
-/

namespace EvidraBench.Scenariopatch

open EvidraBench.Gostd EvidraBench.Runreview

/-! ### Trees -/

/-- Source: `gopkg.in/yaml.v3` `yaml.Kind` -/
inductive Kind
  /-- The kind of a node that was never set: an empty document. -/
  | zero
  | document
  | sequence
  | mapping
  | scalar
  | alias
deriving DecidableEq

/-- A YAML node, as the source and the writer read it. `notes` is the style, the tag, the anchor
and the comments that a parsed node has, of which the source reads nothing; a node that the
source makes has none. A mapping has its keys and values in turn. -/
inductive Node where
  | mk (kind : Kind) (value : String) (notes : List String) (content : List Node)

namespace Node

def kind : Node → Kind
  | mk kind _ _ _ => kind

def value : Node → String
  | mk _ value _ _ => value

def content : Node → List Node
  | mk _ _ _ content => content

def withContent : Node → List Node → Node
  | mk kind value notes _, content => mk kind value notes content

end Node

def scalarNode (value : String) : Node := .mk .scalar value [] []

/-- The value of the first key of that text.
Source: `mappingValue` -/
def mappingValue (key : String) : List Node → Option Node
  | k :: v :: rest => if k.value = key then some v else mappingValue key rest
  | _ => none

/-- Put a value under a key: over what the first such key has, or at the end. -/
def setMappingValue (key : String) (new : Node) : List Node → List Node
  | k :: v :: rest =>
      if k.value = key then k :: new :: rest else k :: v :: setMappingValue key new rest
  | rest => rest ++ [scalarNode key, new]

/-- The value of a key, or a new node of the kind it must have.
Source: `ensureMapping`, `ensureSequence` -/
def ensure (kind : Kind) (message : String) (parent : Node) (key : String) : Except String Node :=
  match mappingValue key parent.content with
  | none => .ok (.mk kind "" [] [])
  | some v => if v.kind = kind then .ok v else .error (key ++ message)

def ensureMapping : Node → String → Except String Node := ensure .mapping " must be a mapping"

def ensureSequence : Node → String → Except String Node := ensure .sequence " must be a sequence"

def mappingScalar (mapping : Node) (key : String) : String :=
  match mappingValue key mapping.content with
  | none => ""
  | some v => if v.kind = .scalar then trimSpace v.value else ""

def sequenceHasRule (seq : Node) (kind pattern : String) : Bool :=
  seq.content.any fun item =>
    item.kind = .mapping && mappingScalar item "kind" = kind &&
      mappingScalar item "pattern" = pattern

def ruleNode (rule : SuggestedRule) (kind pattern : String) : Node :=
  let reason := trimSpace rule.reason
  let severity := trimSpace rule.severity
  .mk .mapping "" [] ([scalarNode "kind", scalarNode kind, scalarNode "pattern", scalarNode pattern]
    ++ (if reason = "" then [] else [scalarNode "reason", scalarNode reason])
    ++ (if severity = "" then [] else [scalarNode "severity", scalarNode severity]))

/-! ### Rules -/

structure RuleChange where
  target : String
  sectionName : String
  kind : String
  pattern : String
deriving DecidableEq

structure RuleSkip where
  target : String
  kind : String
  pattern : String
  reason : String
deriving DecidableEq

def skip (rule : SuggestedRule) (reason : String) : RuleSkip :=
  ⟨rule.target, rule.kind, rule.pattern, reason⟩

def autopsySection (target : String) : Option String :=
  if trimSpace target = "autopsy.expected_diagnostics" then some "expected_diagnostics"
  else if trimSpace target = "autopsy.allowed_mutations" then some "allowed_mutations"
  else if trimSpace target = "autopsy.forbidden_actions" then some "forbidden_actions"
  else none

/-- The tree with its root and what became of the rules so far. -/
structure Patch where
  root : Node
  addedRules : List RuleChange := []
  skippedRules : List RuleSkip := []

def Patch.skip (p : Patch) (rule : SuggestedRule) (reason : String) : Patch :=
  { p with skippedRules := p.skippedRules ++ [Scenariopatch.skip rule reason] }

/-- Add a rule to a section of the autopsy. A section that has the rule was there before, so that
nothing new is left in the tree of a rule that is skipped.
Source: `Preview`, the end of a turn -/
def Patch.add (p : Patch) (rule : SuggestedRule) (sectionName kind pattern : String) :
    Except String Patch := do
  let autopsy ← ensureMapping p.root "autopsy"
  let seq ← ensureSequence autopsy sectionName
  if sequenceHasRule seq kind pattern then return p.skip rule "duplicate"
  let seq := seq.withContent (seq.content ++ [ruleNode rule kind pattern])
  let autopsy := autopsy.withContent (setMappingValue sectionName seq autopsy.content)
  return { p with
    root := p.root.withContent (setMappingValue "autopsy" autopsy p.root.content)
    addedRules := p.addedRules ++ [⟨rule.target, sectionName, kind, pattern⟩] }

/-- A turn of the loop over the rules.
Source: `Preview` -/
def Patch.turn (p : Patch) (rule : SuggestedRule) : Except String Patch :=
  match autopsySection rule.target with
  | none => .ok (p.skip rule "unsupported_target")
  | some sectionName =>
      let kind := trimSpace rule.kind
      let pattern := trimSpace rule.pattern
      if kind = "" then .ok (p.skip rule "missing_kind")
      else if pattern = "" then .ok (p.skip rule "missing_pattern")
      else p.add rule sectionName kind pattern

def Patch.turns (p : Patch) : List SuggestedRule → Except String Patch
  | [] => .ok p
  | rule :: rest => do
      let p ← p.turn rule
      p.turns rest

/-! ### Previews -/

structure Yaml where
  parse : Bytes → Except String Node
  encode : Node → Except String Bytes
  unifiedDiff : Bytes → Bytes → String → Except String String

structure Result where
  changed : Bool := false
  patchedYAML : Bytes
  diff : String := ""
  addedRules : List RuleChange
  skippedRules : List RuleSkip
deriving DecidableEq

/-- The root of a parsed text, and the tree with another root.
Source: `rootMapping` -/
def rootMapping (doc : Node) : Except String (Node × (Node → Node)) :=
  let located : Node × (Node → Node) :=
    match doc.kind, doc.content with
    | .document, [root] => (root, fun root => doc.withContent [root])
    | _, _ => (doc, id)
  if located.1.kind = .mapping then .ok located
  else .error "scenario YAML root must be a mapping"

def wrapError {α : Type} (context : String) : Except String α → Except String α
  | .error e => .error (context ++ ": " ++ e)
  | .ok a => .ok a

def preview (yaml : Yaml) (scenarioYAML : Bytes) (review : Review) (scenarioPath : String) :
    Except String Result := do
  let scenarioPath := if trimSpace scenarioPath = "" then "scenario.yaml" else scenarioPath
  let doc ← wrapError "parse scenario YAML" (yaml.parse scenarioYAML)
  let (root, plant) ← rootMapping doc
  let p ← Patch.turns { root } review.suggestedRules
  if p.addedRules.isEmpty then
    return { patchedYAML := scenarioYAML, addedRules := [], skippedRules := p.skippedRules }
  let patched ← wrapError "marshal scenario YAML" (yaml.encode (plant p.root))
  let diff ← wrapError "build scenario patch diff"
    (yaml.unifiedDiff scenarioYAML patched scenarioPath)
  return {
    changed := true, patchedYAML := patched, diff
    addedRules := p.addedRules, skippedRules := p.skippedRules }

end EvidraBench.Scenariopatch
