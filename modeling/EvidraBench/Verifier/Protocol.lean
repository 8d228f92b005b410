import EvidraBench.Gostd.Struct

/-!
# The protocol of verifier scripts

`pkg/verifier/protocol.go`, `pkg/verifier/command.go`: an `assert-v2` script prints a JSON document,
among other lines. The check scans the lines backwards for one and classifies the run by it.

Results: `normalizeProtocol_eq_ok`, `last_coherent_decides`.
-/

namespace EvidraBench.Verifier

open EvidraBench.Gostd

/-! ### Documents -/

structure ProtocolAssertion where
  name : String
  passed : Bool
  observed : String := ""
deriving DecidableEq

structure ProtocolError where
  kind : String
  message : String := ""
deriving DecidableEq

structure ProtocolDocument where
  status : String
  assertions : List ProtocolAssertion := []
  error : Option ProtocolError := none
deriving DecidableEq

/-- Source: `ProtocolDocument`, the JSON names -/
def documentType : GoType :=
  .struct [("status", .string),
    ("assertions",
      .slice (.struct [("name", .string), ("passed", .bool), ("observed", .string)])),
    ("error", .ptr (.struct [("kind", .string), ("message", .string)]))]

def documentOf (v : Value) : ProtocolDocument where
  status := (v.field "status").asString
  assertions := (v.field "assertions").asList.map fun a =>
    { name := (a.field "name").asString
      passed := (a.field "passed").asBool
      observed := (a.field "observed").asString }
  error := (v.field "error").asPtr.map fun e =>
    { kind := (e.field "kind").asString, message := (e.field "message").asString }

/-- Source: `ErrorKindTransport`, `ErrorKindTimeout`, `ErrorKindParse`, `ErrorKindRBAC` -/
def errorKinds : List String := ["transport", "timeout", "parse", "rbac"]

def normalizeProtocol (doc : ProtocolDocument) : Except String ProtocolDocument :=
  if doc.status = "pass" ∨ doc.status = "fail" then
    if doc.error.isSome then .error ("status " ++ quote doc.status ++ " with error member")
    else if doc.status = "pass" ∧ doc.assertions = [] then .error "pass with zero assertions"
    else if doc.assertions.any fun a => trimSpace a.name = "" then
      .error "assertion without name"
    else if doc.status = "fail" then
      if doc.assertions.any fun a => !a.passed then .ok doc
      else .error "fail status with no failed assertion"
    else
      match doc.assertions.find? fun a => !a.passed with
      | some a => .error ("pass status with failed assertion " ++ quote a.name)
      | none => .ok doc
  else if doc.status = "error" then
    match doc.error with
    | none => .error "error status without error member"
    | some e =>
        if e.kind ∈ errorKinds then .ok doc else .error ("unknown error kind " ++ quote e.kind)
  else .error ("unknown status " ++ quote doc.status)

/-- The document of a line, if it decodes to an object that has a status.
Source: `ParseProtocolOutput` -/
def candidate (line : Bytes) : Option ProtocolDocument :=
  let t := trimOctets line
  if t.head? = some 0x7B then
    ((unmarshal documentType (decodeUtf8 t)).map documentOf).filter (·.status ≠ "")
  else none

def linesOf (out : Bytes) : List Bytes := out.splitOn 0x0A

def parseProtocolOutput (out : Bytes) : Option ProtocolDocument :=
  (linesOf out).reverse.findSome? fun line =>
    (candidate line).bind fun doc => (normalizeProtocol doc).toOption

/-! ### The check -/

/-- Source: `pkg/verifier/types.go` `Verdict` -/
inductive Verdict
  | pass
  | fail
  | error
deriving DecidableEq

/-- Source: `pkg/verifier/types.go` `CheckError` -/
structure CheckError where
  kind : String
  message : Bytes
deriving DecidableEq

/-- Source: `pkg/verifier/types.go` `CheckResult` -/
structure CheckResult where
  name : String
  type : String
  verdict : Verdict
  message : Bytes
  error : Option CheckError := none
deriving DecidableEq

/-- A script that was run: what it printed, its exit code (below zero when it was killed or could
not be started), the text of the error, and whether the context was done.
Source: `pkg/verifier/command.go` `runScript`, `errText` -/
structure ScriptRun where
  out : Bytes
  exitCode : Int := 0
  errText : String := ""
  done : Bool := false

/-- Source: `pkg/verifier/command.go` `truncateTail` -/
def truncateTail (s : Bytes) (max : Nat) : Bytes :=
  if s.length ≤ max then s else bytes "…" ++ s.drop (s.length - max)

/-- Source: `pkg/verifier/command.go` `errorResult` -/
def errorResult (name type : String) (verdict : Verdict) (e : CheckError) (detail : Bytes) :
    CheckResult :=
  let e := if detail = [] then e else
    { e with message := trimOctets (e.message ++ bytes "\n" ++ detail) }
  { name := name, type := type, verdict := verdict, message := e.message, error := some e }

/-- Source: `pkg/verifier/command.go` `renderAssertions` -/
def renderAssertions (doc : ProtocolDocument) : Bytes :=
  List.intercalate (bytes "\n") <| doc.assertions.map fun a =>
    bytes ((if a.passed then "PASS" else "FAIL") ++ " " ++ a.name) ++
      if a.observed = "" then []
      else bytes " (observed: " ++ truncateTail (bytes a.observed) 200 ++ bytes ")"

/-- Source: `pkg/verifier/command.go` `AssertV2Check` -/
structure AssertV2Check where
  name : String
  command : String

/-- The context was done before the script could end.
Source: `pkg/verifier/command.go` `AssertV2Check.Check` -/
def ScriptRun.timedOut (run : ScriptRun) : Bool := run.done && decide (run.exitCode < 0)

/-- The check of a script that was run.
Source: `pkg/verifier/command.go` `AssertV2Check.Check` -/
def AssertV2Check.check (c : AssertV2Check) (run : ScriptRun) : CheckResult :=
  let name := "assert-v2/" ++ c.name
  if run.timedOut then
    errorResult name "assert-v2" .error ⟨"timeout", bytes "assert-v2 script timed out"⟩
      (truncateTail run.out 2048)
  else
    match parseProtocolOutput run.out with
    | none =>
        let e : CheckError :=
          if run.exitCode < 0 ∨ run.exitCode = 127 then
            ⟨"transport", bytes ("assert-v2 script could not run (exit " ++ toString run.exitCode ++
              "): " ++ run.errText)⟩
          else ⟨"parse", bytes "no parseable protocol document on stdout"⟩
        errorResult name "assert-v2" .error e (truncateTail run.out 2048)
    | some doc =>
        if doc.status = "error" then
          let e := doc.error.getD ⟨"", ""⟩
          errorResult name "assert-v2" .error ⟨e.kind, bytes e.message⟩ []
        else if doc.status = "pass" then
          { name := name, type := "assert-v2", verdict := .pass, message := renderAssertions doc }
        else
          { name := name, type := "assert-v2", verdict := .fail, message := renderAssertions doc }

/-! ### Coherent documents -/

/-- A document that passes: at least one assertion, all with a name and all passed, and no error. -/
structure Passing (doc : ProtocolDocument) : Prop where
  status : doc.status = "pass"
  error : doc.error = none
  some : doc.assertions ≠ []
  named : ∀ a ∈ doc.assertions, trimSpace a.name ≠ ""
  passed : ∀ a ∈ doc.assertions, a.passed = true

/-- A document that fails: assertions with names, one of them failed, and no error. -/
structure Failing (doc : ProtocolDocument) : Prop where
  status : doc.status = "fail"
  error : doc.error = none
  named : ∀ a ∈ doc.assertions, trimSpace a.name ≠ ""
  failed : ∃ a ∈ doc.assertions, a.passed = false

/-- A document that reports an error of a known kind. -/
structure Erring (doc : ProtocolDocument) : Prop where
  status : doc.status = "error"
  error : ∃ e, doc.error = some e ∧ e.kind ∈ errorKinds

def Coherent (doc : ProtocolDocument) : Prop := Passing doc ∨ Failing doc ∨ Erring doc

theorem normalizeProtocol_eq_ok {doc doc' : ProtocolDocument} :
    normalizeProtocol doc = .ok doc' ↔ doc' = doc ∧ Coherent doc := by
  have hpf : ¬ "pass" = "fail" := by decide
  have hpe : ¬ "pass" = "error" := by decide
  have hfe : ¬ "fail" = "error" := by decide
  constructor
  · intro h
    unfold normalizeProtocol at h
    split_ifs at h with hstatus herror hzero hname hfail hfailed hstatus'
    · simp only [Except.ok.injEq] at h
      refine ⟨h.symm, Or.inr (Or.inl ⟨hfail, by simpa using herror, ?_, ?_⟩)⟩
      · simpa using hname
      · simpa using hfailed
    · have hpass : doc.status = "pass" := hstatus.resolve_right hfail
      split at h
      next a ha => cases h
      next hnone =>
        simp only [Except.ok.injEq] at h
        refine ⟨h.symm, Or.inl ⟨hpass, by simpa using herror, ?_, by simpa using hname, ?_⟩⟩
        · exact fun hnil => hzero ⟨hpass, hnil⟩
        · simpa using List.find?_eq_none.mp hnone
    · split at h
      next hnone => cases h
      next e he =>
        split_ifs at h with hkind
        simp only [Except.ok.injEq] at h
        exact ⟨h.symm, Or.inr (Or.inr ⟨hstatus', e, he, hkind⟩)⟩
  · rintro ⟨rfl, h | h | h⟩
    · have hname : (doc'.assertions.any fun a => decide (trimSpace a.name = "")) = false := by
        simpa using h.named
      have hfind : (doc'.assertions.find? fun a => !a.passed) = none := by
        simpa using h.passed
      simp [normalizeProtocol, h.status, h.error, h.some, hname, hfind, hpf]
    · have hname : (doc'.assertions.any fun a => decide (trimSpace a.name = "")) = false := by
        simpa using h.named
      have hfailed : (doc'.assertions.any fun a => !a.passed) = true := by
        simpa using h.failed
      simp [normalizeProtocol, h.status, h.error, hname, hfailed]
    · obtain ⟨e, he, hkind⟩ := h.error
      simp [normalizeProtocol, h.status, he, hkind]

def Holds (line : Bytes) (doc : ProtocolDocument) : Prop :=
  candidate line = some doc ∧ Coherent doc

/-- The last document of an output that is coherent: no line behind it holds one. -/
def Last (out : Bytes) (doc : ProtocolDocument) : Prop :=
  ∃ before line after, linesOf out = before ++ line :: after ∧ Holds line doc ∧
    ∀ l ∈ after, ∀ d, ¬ Holds l d

theorem accepted_iff {line : Bytes} {doc : ProtocolDocument} :
    ((candidate line).bind fun d => (normalizeProtocol d).toOption) = some doc ↔
      Holds line doc := by
  have hoption {d : ProtocolDocument} :
      (normalizeProtocol d).toOption = some doc ↔ normalizeProtocol d = .ok doc := by
    cases normalizeProtocol d <;> simp [Except.toOption]
  rw [Option.bind_eq_some_iff]
  constructor
  · rintro ⟨d, hd, hok⟩
    obtain ⟨rfl, hcoherent⟩ := normalizeProtocol_eq_ok.mp (hoption.mp hok)
    exact ⟨hd, hcoherent⟩
  · rintro ⟨hd, hcoherent⟩
    exact ⟨doc, hd, hoption.mpr (normalizeProtocol_eq_ok.mpr ⟨rfl, hcoherent⟩)⟩

/-- **The scan.** What is found is the last coherent document. -/
theorem parseProtocolOutput_eq_some {out : Bytes} {doc : ProtocolDocument} :
    parseProtocolOutput out = some doc ↔ Last out doc := by
  have hnone (l : Bytes) : ((candidate l).bind fun d => (normalizeProtocol d).toOption) = none ↔
      ∀ d, ¬ Holds l d := by
    rw [Option.eq_none_iff_forall_ne_some]
    exact forall_congr' fun d => not_congr accepted_iff
  rw [parseProtocolOutput, List.findSome?_eq_some_iff]
  constructor
  · rintro ⟨after, line, before, hlines, hline, hafter⟩
    refine ⟨before.reverse, line, after.reverse, ?_, accepted_iff.mp hline, ?_⟩
    · rw [← List.reverse_reverse (linesOf out), hlines]
      simp
    · intro l hl
      exact (hnone l).mp (hafter l (List.mem_reverse.mp hl))
  · rintro ⟨before, line, after, hlines, hline, hafter⟩
    refine ⟨after.reverse, line, before.reverse, ?_, accepted_iff.mpr hline, ?_⟩
    · rw [hlines]
      simp
    · intro l hl
      exact (hnone l).mpr (hafter l (List.mem_reverse.mp hl))

theorem Last.unique {out : Bytes} {doc doc' : ProtocolDocument} (h : Last out doc)
    (h' : Last out doc') : doc = doc' := by
  rw [← parseProtocolOutput_eq_some] at h h'
  exact Option.some.inj (h.symm.trans h')

/-! ### Verdicts -/

theorem Coherent.verdict_iff {doc : ProtocolDocument} (h : Coherent doc) :
    (doc.status = "pass" ↔ Passing doc) ∧ (doc.status = "fail" ↔ Failing doc) ∧
      (doc.status = "error" ↔ Erring doc) := by
  have hne : "pass" ≠ "fail" ∧ "pass" ≠ "error" ∧ "fail" ≠ "error" := by decide
  refine ⟨⟨fun hs => ?_, Passing.status⟩, ⟨fun hs => ?_, Failing.status⟩,
    ⟨fun hs => ?_, Erring.status⟩⟩
  · rcases h with h | h | h
    · exact h
    · exact absurd (hs.symm.trans h.status) hne.1
    · exact absurd (hs.symm.trans h.status) hne.2.1
  · rcases h with h | h | h
    · exact absurd (h.status.symm.trans hs) hne.1
    · exact h
    · exact absurd (hs.symm.trans h.status) hne.2.2
  · rcases h with h | h | h
    · exact absurd (h.status.symm.trans hs) hne.2.1
    · exact absurd (h.status.symm.trans hs) hne.2.2
    · exact h

theorem Last.coherent {out : Bytes} {doc : ProtocolDocument} (h : Last out doc) :
    Coherent doc := by
  obtain ⟨_, _, _, _, hholds, _⟩ := h
  exact hholds.2

theorem Last.exists_iff {out : Bytes} {doc : ProtocolDocument} (h : Last out doc)
    (P : ProtocolDocument → Prop) : (∃ d, Last out d ∧ P d) ↔ P doc := by
  constructor
  · rintro ⟨d, hd, hP⟩
    rwa [hd.unique h] at hP
  · exact fun hP => ⟨doc, h, hP⟩

theorem verdict_of_last {c : AssertV2Check} {run : ScriptRun} (hrun : run.timedOut = false)
    {doc : ProtocolDocument} (h : Last run.out doc) :
    (c.check run).verdict =
      if doc.status = "error" then .error else if doc.status = "pass" then .pass else .fail := by
  rw [AssertV2Check.check, hrun, parseProtocolOutput_eq_some.mpr h]
  simp only [Bool.false_eq_true, if_false]
  split_ifs
  · rfl
  · rfl
  · rfl

theorem check_of_none {c : AssertV2Check} {run : ScriptRun} (hrun : run.timedOut = false)
    (h : ¬ ∃ doc, Last run.out doc) :
    (c.check run).verdict = .error ∧
      ∃ e, (c.check run).error = some e ∧ (e.kind = "parse" ∨ e.kind = "transport") := by
  have hnone : parseProtocolOutput run.out = none :=
    Option.eq_none_iff_forall_ne_some.mpr fun doc hdoc =>
      h ⟨doc, parseProtocolOutput_eq_some.mp hdoc⟩
  rw [AssertV2Check.check, hrun, hnone]
  simp only [Bool.false_eq_true, if_false, errorResult, true_and]
  refine ⟨_, rfl, ?_⟩
  split_ifs <;> simp

/-- **The last coherent document decides.** A check passes, fails or reports an error as the last
line with a coherent document says; without one, or when the script timed out, it is an error.
Source: `pkg/verifier/command.go` `AssertV2Check.Check` -/
theorem last_coherent_decides (c : AssertV2Check) (run : ScriptRun) :
    ((c.check run).verdict = .pass ↔
      run.timedOut = false ∧ ∃ doc, Last run.out doc ∧ Passing doc) ∧
    ((c.check run).verdict = .fail ↔
      run.timedOut = false ∧ ∃ doc, Last run.out doc ∧ Failing doc) ∧
    ((c.check run).verdict = .error ↔
      run.timedOut = true ∨ (¬ ∃ doc, Last run.out doc) ∨ ∃ doc, Last run.out doc ∧ Erring doc) ∧
    (run.timedOut = false → (¬ ∃ doc, Last run.out doc) →
      ∃ e, (c.check run).error = some e ∧ (e.kind = "parse" ∨ e.kind = "transport")) := by
  cases hrun : run.timedOut with
  | true =>
    have herror : (c.check run).verdict = .error := by
      rw [AssertV2Check.check, hrun]
      rfl
    simp [herror]
  | false =>
    by_cases hlast : ∃ doc, Last run.out doc
    · obtain ⟨doc, hdoc⟩ := hlast
      obtain ⟨hpass, hfail, herror⟩ := hdoc.coherent.verdict_iff
      have hsome : ∃ d, Last run.out d := ⟨doc, hdoc⟩
      rw [hdoc.exists_iff, hdoc.exists_iff, hdoc.exists_iff, verdict_of_last hrun hdoc, ← hpass,
        ← hfail, ← herror]
      rcases hdoc.coherent with h | h | h
      · simp [h.status, hsome]
      · simp [h.status, hsome]
      · simp [h.status, hsome]
    · obtain ⟨hverdict, he⟩ := check_of_none (c := c) hrun hlast
      have hno (P : ProtocolDocument → Prop) : ¬ ∃ d, Last run.out d ∧ P d :=
        fun ⟨d, hd, _⟩ => hlast ⟨d, hd⟩
      refine ⟨?_, ?_, ?_, fun _ _ => he⟩
      · simp [hverdict, hno]
      · simp [hverdict, hno]
      · simp [hverdict, hlast]

/-- A script that prints nothing gives an error of kind parse. -/
theorem last_coherent_decides_silent :
    ∃ e, ((⟨"v", "verify.sh"⟩ : AssertV2Check).check { out := [] }).error = some e ∧
      (e.kind = "parse" ∨ e.kind = "transport") := by
  refine (last_coherent_decides ⟨"v", "verify.sh"⟩ { out := [] }).2.2.2 (by decide) ?_
  rintro ⟨doc, hdoc⟩
  have hnone : parseProtocolOutput [] = none := by decide
  rw [parseProtocolOutput_eq_some.mpr hdoc] at hnone
  cases hnone

/-- A coherent document that passes, and behind it one that fails without a failed assertion. -/
def passThenIncoherent : Bytes :=
  bytesOf
    ("\x7b\"status\":\"pass\",\"assertions\":[\x7b\"name\":\"a\",\"passed\":true\x7d]\x7d\n" ++
    "\x7b\"status\":\"fail\",\"assertions\":[\x7b\"name\":\"a\",\"passed\":true\x7d]\x7d\n")

/-- **An earlier document decides.** The last document with a status is incoherent, and the check
passes by the one before it.
Source: `ParseProtocolOutput` -/
theorem earlier_document_decides :
    (linesOf passThenIncoherent).map candidate =
        [some { status := "pass", assertions := [{ name := "a", passed := true }] },
          some { status := "fail", assertions := [{ name := "a", passed := true }] }, none] ∧
      normalizeProtocol { status := "fail", assertions := [{ name := "a", passed := true }] } =
        .error "fail status with no failed assertion" ∧
      ((⟨"v", "verify.sh"⟩ : AssertV2Check).check { out := passThenIncoherent }).verdict =
        .pass := by
  refine ⟨?_, ?_, ?_⟩
  · decide +kernel
  · decide +kernel
  · decide +kernel

end EvidraBench.Verifier
