import EvidraBench.Bench.Timeline
import EvidraBench.Gostd.Glob

/-!
# Matching the steps of a timeline against hints

A scenario's hints name commands and resources by patterns. A step of the timeline is matched
against a pattern by the tokens of its command, by the resource and the namespace it acted on, or
by both together with a verb.

Letter case is Unicode's. Its tables are data of Go's `unicode` package that nothing here depends
on, so the two mappings that are used (`Case`) are parameters.

Source: `pkg/autopsy/autopsy.go`
-/

namespace EvidraBench.Autopsy

open EvidraBench.Gostd EvidraBench.Bench

/-! ### Letter case -/

/-- The simple case mappings of Unicode: the lower case of a character, and the representative of
the characters it folds to.
Source: Go `unicode.ToLower`, `unicode.SimpleFold` -/
structure Case where
  lower : Char → Char
  fold : Char → Char

variable (u : Case)

/-- `strings.ToLower`. -/
def Case.toLower (s : String) : String := String.ofList (s.toList.map u.lower)

/-- `strings.EqualFold`. -/
def Case.equalFold (s t : String) : Bool := s.toList.map u.fold == t.toList.map u.fold

/-! ### Hints -/

structure Pattern where
  kind : String
  pattern : String := ""
  verb : String := ""
  resource : String := ""
  namespace_ : String := ""
  reason : String := ""
  severity : String := ""
deriving DecidableEq, Repr

def resourceKindAliases : List (String × String) :=
  [("deploy", "deployment"), ("deployments", "deployment"), ("svc", "service"),
    ("services", "service"), ("po", "pod"), ("pods", "pod"), ("cm", "configmap"),
    ("configmaps", "configmap"), ("ns", "namespace"), ("namespaces", "namespace"),
    ("secrets", "secret"), ("nodes", "node")]

def canonicalResourceToken (token : String) : String :=
  let (kind, name, hasName) := cut (trimSpace token) '/'
  let kind := u.toLower kind
  let kind := (resourceKindAliases.lookup kind).getD kind
  if hasName then kind ++ "/" ++ u.toLower name else kind

/-! ### Commands -/

/-- The tokens of the words of a command.
Source: `tokenizeCommand` -/
def tokenizeWords : List String → List String
  | [] => []
  | [word] =>
      let w := u.toLower word
      if w = "--namespace" then ["-n"]
      else if hasPrefix w "--namespace=" then ["-n", trimPrefix w "--namespace="]
      else [w]
  | word :: next :: rest =>
      let w := u.toLower word
      if w = "--namespace" then "-n" :: u.toLower next :: tokenizeWords rest
      else if hasPrefix w "--namespace=" then
        "-n" :: trimPrefix w "--namespace=" :: tokenizeWords (next :: rest)
      else w :: tokenizeWords (next :: rest)

def tokenizeCommand (cmd : String) : List String := tokenizeWords u (fields cmd)

/-- Every token of the pattern occurs in the command at least as often.
Source: `commandTokensMatch` -/
def commandTokensMatch (pattern command : String) : Bool :=
  let want := tokenizeCommand u pattern
  let got := tokenizeCommand u command
  decide (want ≠ []) && want.all fun token => decide (want.count token ≤ got.count token)

/-- The verb phrase occurs from here on, each of its tokens within one of the command.
Source: `containsVerbTokens` -/
def startsWithVerb : List String → List String → Bool
  | _, [] => true
  | [], _ :: _ => false
  | token :: command, v :: verb => (token == v || contains token v) && startsWithVerb command verb

def containsVerbTokens (command verb : List String) : Bool :=
  command.tails.any fun rest => startsWithVerb rest verb

/-! ### Resources -/

/-- The token after the first one that introduces a namespace.
Source: `stepResourceIdentity` -/
def namespaceToken : List String → String
  | t :: next :: rest => if t = "-n" ∨ t = "in" then next else namespaceToken (next :: rest)
  | _ => ""

/-- The resource and the namespace that a step acted on.
Source: `stepResourceIdentity` -/
def stepResourceIdentity (step : TimelineStep) : String × String :=
  let tokens := tokenizeCommand u step.command
  let named := tokens.find? fun t => !hasPrefix t "-" && !contains t "=" && contains t "/"
  let resource := (named.map (canonicalResourceToken u)).getD ""
  let resource :=
    if resource = "" ∧ step.resource ≠ "" then
      canonicalResourceToken u (cutAt (u.toLower step.resource) " in ").1
    else resource
  (resource, if step.namespace_ = "" then namespaceToken tokens else step.namespace_)

def resourceTokenPatternMatches (want got : String) : Bool :=
  if want = got then true
  else if want = "*" then decide (got ≠ "")
  else (want.toList.any fun c => c = '*' || c = '?' || c = '[') && matchSlash want got

def resourcePatternMatches (pattern : String) (step : TimelineStep) : Bool :=
  let (resourcePart, namespacePart, hasNamespace) := cutAt pattern " in "
  let want := canonicalResourceToken u resourcePart
  let (gotResource, gotNamespace) := stepResourceIdentity u step
  decide (want ≠ "") && resourceTokenPatternMatches want gotResource &&
    (!hasNamespace || u.equalFold (trimSpace namespacePart) gotNamespace)

def resourceIntentMatches (pattern : Pattern) (step : TimelineStep) : Bool :=
  let want := canonicalResourceToken u pattern.resource
  let (gotResource, gotNamespace) := stepResourceIdentity u step
  decide (want ≠ "") && resourceTokenPatternMatches want gotResource &&
    (decide (trimSpace pattern.namespace_ = "") || u.equalFold pattern.namespace_ gotNamespace) &&
    (decide (trimSpace pattern.verb = "") ||
      containsVerbTokens (tokenizeCommand u step.command) (tokenizeCommand u pattern.verb))

/-! ### Patterns -/

def patternMatchesStep (pattern : Pattern) (step : TimelineStep) : Bool :=
  if pattern.kind = "command_pattern" then commandTokensMatch u pattern.pattern step.command
  else if pattern.kind = "resource_pattern" then resourcePatternMatches u pattern.pattern step
  else if pattern.kind = "resource_intent" then resourceIntentMatches u pattern step
  else false

/-- The first pattern that matches.
Source: `matchingPattern` -/
def matchingPattern (step : TimelineStep) (patterns : List Pattern) : Option Pattern :=
  patterns.find? fun pattern => patternMatchesStep u pattern step

end EvidraBench.Autopsy
