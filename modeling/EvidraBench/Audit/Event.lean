import EvidraBench.Gostd.Unmarshal

/-!
# Audit events and the log they are read from

`pkg/audit/events.go`, first half: the audit event, its key and effective timestamp, and `Parse`,
the tolerant reader of newline-delimited JSON.

`Parse` walks a `bufio.Scanner` whose buffer may grow to `maxTokenSize` octets. A line that does not
fit stops the scanner, and nothing after it is read; `scanLines` models exactly that cut.
-/

namespace EvidraBench.Audit

open EvidraBench.Gostd

/-! ### Stages -/

def stageRequestReceived : String := "RequestReceived"
def stageResponseStarted : String := "ResponseStarted"
def stageResponseComplete : String := "ResponseComplete"
def stagePanic : String := "Panic"

/-- Whether a stage concludes an API operation.
Source: `TerminalStage` -/
def terminalStage (stage : String) : Bool := stage == stageResponseComplete || stage == stagePanic

/-! ### Events -/

structure User where
  /-- The authenticated principal. -/
  username : String
  uid : String := ""
  groups : List String := []
deriving DecidableEq, Repr

structure ObjectRef where
  resource : String := ""
  ns : String := ""
  name : String := ""
  apiGroup : String := ""
  apiVersion : String := ""
  subresource : String := ""
deriving DecidableEq, Repr

structure ResponseStatus where
  code : Int := 0
  reason : String := ""
deriving DecidableEq, Repr

/-- One audit event. Raw JSON members are kept as their text, empty when absent.
Source: `Event` -/
structure Event where
  level : String := ""
  auditID : String
  stage : String := ""
  requestURI : String := ""
  verb : String := ""
  user : Option User := none
  userExtra : String := ""
  sourceIPs : List String := []
  userAgent : String := ""
  objectRef : Option ObjectRef := none
  responseStatus : Option ResponseStatus := none
  /-- Timestamps by stage. -/
  stageTimestamps : List (String × Time) := []
  /-- `requestReceivedTimestamp`. -/
  timestamp : Time := 0
  annotations : List (String × String) := []
  requestObject : String := ""
  responseObject : String := ""
deriving DecidableEq, Repr

namespace Event

/-- The de-duplication identity.
Source: `Event.Key` -/
def key (e : Event) : String := e.auditID ++ "|" ++ e.stage

/-- The stage-specific timestamp when it is set and not the zero time, else the timestamp at which
the request was received.
Source: `Event.EffectiveTimestamp` -/
def effectiveTimestamp (e : Event) : Time :=
  match e.stageTimestamps.lookup e.stage with
  | some ts => if ts = 0 then e.timestamp else ts
  | none => e.timestamp

/-- The user of the event, empty when it carries none. -/
def username (e : Event) : String :=
  match e.user with
  | some u => u.username
  | none => ""

/-! ### Decoding -/

/-- The JSON shape of `User`. -/
def userType : GoType :=
  .struct [("username", .string), ("uid", .string), ("groups", .slice .string)]

/-- The JSON shape of `ObjectRef`. -/
def objectRefType : GoType :=
  .struct [("resource", .string), ("namespace", .string), ("name", .string),
    ("apiGroup", .string), ("apiVersion", .string), ("subresource", .string)]

/-- The JSON shape of `ResponseStatus`. -/
def responseStatusType : GoType := .struct [("code", .int), ("reason", .string)]

/-- The JSON shape of `Event`.
Source: `Event`, its field tags -/
def goType : GoType :=
  .struct [("level", .string), ("auditID", .string), ("stage", .string), ("requestURI", .string),
    ("verb", .string), ("user", .ptr userType), ("userExtra", .raw),
    ("sourceIPs", .slice .string), ("userAgent", .string), ("objectRef", .ptr objectRefType),
    ("responseStatus", .ptr responseStatusType), ("stageTimestamps", .map .time),
    ("requestReceivedTimestamp", .time), ("annotations", .map .string), ("requestObject", .raw),
    ("responseObject", .raw)]

def rawText (v : Value) : String :=
  match v.asRaw with
  | some d => d.raw
  | none => ""

def ofValue (v : Value) : Event where
  level := (v.field "level").asString
  auditID := (v.field "auditID").asString
  stage := (v.field "stage").asString
  requestURI := (v.field "requestURI").asString
  verb := (v.field "verb").asString
  user := (v.field "user").asPtr.map fun u =>
    { username := (u.field "username").asString
      uid := (u.field "uid").asString
      groups := (u.field "groups").asList.map Value.asString }
  userExtra := rawText (v.field "userExtra")
  sourceIPs := (v.field "sourceIPs").asList.map Value.asString
  userAgent := (v.field "userAgent").asString
  objectRef := (v.field "objectRef").asPtr.map fun o =>
    { resource := (o.field "resource").asString
      ns := (o.field "namespace").asString
      name := (o.field "name").asString
      apiGroup := (o.field "apiGroup").asString
      apiVersion := (o.field "apiVersion").asString
      subresource := (o.field "subresource").asString }
  responseStatus := (v.field "responseStatus").asPtr.map fun r =>
    { code := (r.field "code").asInt
      reason := (r.field "reason").asString }
  stageTimestamps := (v.field "stageTimestamps").asMap.map fun kv => (kv.1, kv.2.asTime)
  timestamp := (v.field "requestReceivedTimestamp").asTime
  annotations := (v.field "annotations").asMap.map fun kv => (kv.1, kv.2.asString)
  requestObject := rawText (v.field "requestObject")
  responseObject := rawText (v.field "responseObject")

/-- `json.Unmarshal` of one line into an event. -/
def unmarshalLine (line : List Char) : Option Event := (unmarshal goType line).map ofValue

end Event

/-! ### Parsing a log -/

/-- The largest token the line scanner holds, its newline included.
Source: `Parse`, `sc.Buffer` -/
def maxTokenSize : Nat := 8 * 1024 * 1024

/-- The lines of a log, newline removed. Text after the last newline is a line when there is any. -/
def logLines : Bytes → List Bytes
  | [] => []
  | b :: rest =>
      if b = 0x0A then [] :: logLines rest
      else
        match logLines rest with
        | [] => [[b]]
        | line :: lines => (b :: line) :: lines

/-- The lines `bufio.Scanner` delivers: it gives up for good at the first line that does not fit
its buffer.
Source: `Parse`, the `Scan` loop -/
def scanLines (data : Bytes) : List Bytes :=
  (logLines data).takeWhile fun line => line.length < maxTokenSize

structure ParseStats where
  /-- Non-blank lines. -/
  lines : Nat := 0
  /-- Lines that decode to no event. -/
  bad : Nat := 0
  events : List Event := []
deriving DecidableEq, Repr

/-- One turn of the loop of `Parse`.
Source: `Parse` -/
def parseLine (st : ParseStats) (line : Bytes) : ParseStats :=
  let text := trimChars (decodeUtf8 line)
  if text.isEmpty then st
  else
    let st := { st with lines := st.lines + 1 }
    match Event.unmarshalLine text with
    | some ev =>
        if ev.auditID = "" then { st with bad := st.bad + 1 }
        else { st with events := st.events ++ [ev] }
    | none => { st with bad := st.bad + 1 }

/-- Tolerant newline-delimited decoding.
Source: `Parse` -/
def parse (data : Bytes) : ParseStats := (scanLines data).foldl parseLine {}

end EvidraBench.Audit
