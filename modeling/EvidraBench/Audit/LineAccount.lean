import EvidraBench.Audit.Collect

/-!
# Which lines `Parse` accounts for

`Parse` counts a non-blank line as an event or as a bad line. The count is meant to cover the whole
read, because `Collect` takes a read without bad lines for a clean one.

Results: `parse_counts`, `parse_accounts_iff`, `collect_reads_all`.

Source: `pkg/audit/events.go`
-/

namespace EvidraBench.Audit

open EvidraBench.Gostd EvidraBench.Lib

/-! ### The lines of a read -/

def blank (line : Bytes) : Bool := (trimChars (decodeUtf8 line)).isEmpty

/-- The number of non-blank lines of a read, whatever their length. -/
def nonBlank (data : Bytes) : Nat := (logLines data).countP fun line => !blank line

/-- The lines the scanner does not deliver: the first one that does not fit and all that follow. -/
def unread (data : Bytes) : List Bytes :=
  (logLines data).dropWhile fun line => line.length < maxTokenSize

theorem scanLines_append_unread (data : Bytes) : scanLines data ++ unread data = logLines data :=
  List.takeWhile_append_dropWhile

theorem logLines_ne_nil {data : Bytes} (h : data ≠ []) : logLines data ≠ [] := by
  cases data with
  | nil => exact absurd rfl h
  | cons b rest =>
      unfold logLines
      split_ifs
      · exact List.cons_ne_nil _ _
      · split <;> exact List.cons_ne_nil _ _

theorem logLines_append (first rest : Bytes) :
    logLines (first ++ 0x0A :: rest) = logLines (first ++ [0x0A]) ++ logLines rest := by
  induction first with
  | nil => rfl
  | cons b first ih =>
      rw [List.cons_append, List.cons_append, logLines, logLines, ih]
      by_cases hb : b = 0x0A
      · rw [if_pos hb, if_pos hb, List.cons_append]
      · rw [if_neg hb, if_neg hb]
        -- the line `b` belongs to is the first of the lines up to the newline
        obtain ⟨line, lines, hlines⟩ :=
          List.exists_cons_of_ne_nil (logLines_ne_nil (by simp : first ++ [0x0A] ≠ []))
        rw [hlines]
        rfl

example : logLines [0x61, 0x0A, 0x0A, 0x62] = [[0x61], [], [0x62]] := by decide +kernel

theorem logLines_replicate {b : UInt8} (hb : b ≠ 0x0A) (n : Nat) :
    logLines (List.replicate (n + 1) b) = [List.replicate (n + 1) b] := by
  induction n with
  | zero => simp [logLines, hb]
  | succ n ih => rw [List.replicate_succ, logLines, if_neg hb, ih]

/-! ### The count -/

theorem parseLine_counts (st : ParseStats) (line : Bytes) :
    (parseLine st line).events.length + (parseLine st line).bad =
      st.events.length + st.bad + if blank line then 0 else 1 := by
  unfold parseLine blank
  dsimp only
  split_ifs
  · rfl
  · split
    · split_ifs
      · rfl
      · rw [List.length_append, List.length_singleton]
        exact Nat.add_right_comm _ _ _
    · rfl

theorem parse_counts (data : Bytes) :
    (parse data).events.length + (parse data).bad =
      (scanLines data).countP fun line => !blank line := by
  have fold : ∀ (lines : List Bytes) (st : ParseStats),
      (lines.foldl parseLine st).events.length + (lines.foldl parseLine st).bad =
        st.events.length + st.bad + lines.countP fun line => !blank line := by
    intro lines
    induction lines with
    | nil => intro st; rfl
    | cons line lines ih =>
        intro st
        rw [List.foldl_cons, ih, parseLine_counts, List.countP_cons]
        by_cases hblank : blank line
        · simp [hblank]
        · simp only [hblank, Bool.not_false, if_true, Bool.false_eq_true, if_false]
          omega
  unfold parse
  rw [fold]
  exact Nat.zero_add _

theorem nonBlank_eq (data : Bytes) :
    nonBlank data = (parse data).events.length + (parse data).bad +
      (unread data).countP fun line => !blank line := by
  unfold nonBlank
  rw [← scanLines_append_unread, List.countP_append, parse_counts]

theorem countP_nonBlank_eq_zero {lines : List Bytes} :
    (lines.countP fun line => !blank line) = 0 ↔ ∀ line ∈ lines, blank line := by
  simp

/-- The non-blank lines of a read are counted exactly when no non-blank line is left unread.
Source: `Parse` -/
theorem parse_accounts_iff (data : Bytes) :
    (parse data).events.length + (parse data).bad = nonBlank data ↔
      ∀ line ∈ unread data, blank line := by
  rw [nonBlank_eq, left_eq_add]
  exact countP_nonBlank_eq_zero

/-- Under complete coverage a reading of which only blank lines are left unread was decoded line
by line. -/
theorem collect_reads_all {req : CollectRequest} {polls : List Poll} {res : Result}
    (hres : collect req polls = some res) (hc : res.coverage = .complete) {x : Reading}
    (hx : x ∈ readings req (pollsMade req polls)) {data : Bytes} (hdata : x.outcome = .ok data)
    (hunread : ∀ line ∈ unread data, blank line) :
    (parse data).events.length = nonBlank data := by
  have htracks := tracks_polls req (pollsMade req polls)
  obtain rfl := conclude_of_collect hres hc
  obtain ⟨-, -, -, hbad, -⟩ := conclude_complete_iff.mp hc
  have hclean : (parse data).bad = 0 := by
    simpa [Reading.stats, hdata] using htracks.decoded.mp hbad x hx
  rw [nonBlank_eq, hclean, countP_nonBlank_eq_zero.mpr hunread, Nat.add_zero]

/-! ### A line that does not fit -/

def markedText : Bytes :=
  bytesOf (markerLine "a" "get" "ResponseComplete" "/m-start" "2026-01-01T00:00:01Z" ++
    markerLine "b" "get" "ResponseComplete" "/m-end" "2026-01-01T00:00:02Z")

/-- The log goes on with one line of `maxTokenSize` octets. -/
def oversizedLog : Bytes := markedText ++ List.replicate maxTokenSize 0x78

theorem logLines_oversizedLog :
    logLines oversizedLog = logLines markedText ++ [List.replicate maxTokenSize 0x78] := by
  have hend : markedText = markedText.dropLast ++ [0x0A] := by decide +kernel
  unfold oversizedLog
  nth_rewrite 1 [hend]
  rw [List.append_assoc, List.singleton_append, logLines_append, ← hend]
  exact congrArg (logLines markedText ++ ·) (logLines_replicate (by decide) (maxTokenSize - 1))

theorem scanLines_oversizedLog : scanLines oversizedLog = scanLines markedText := by
  have hfit : ∀ line ∈ logLines markedText, decide (line.length < maxTokenSize) = true := by
    decide +kernel
  unfold scanLines
  rw [logLines_oversizedLog, List.takeWhile_append_of_pos hfit,
    List.takeWhile_cons_of_neg (by simp), List.append_nil, List.takeWhile_eq_self_iff.mpr hfit]

theorem not_blank_cons (rest : Bytes) : blank (0x78 :: rest) = false := by
  have hdecode : decodeUtf8 (0x78 :: rest) = 'x' :: decodeUtf8 rest := by
    rw [decodeUtf8.eq_def]
    exact if_pos (by decide)
  obtain ⟨rest', hrest⟩ := @trimChars_of_blanks [] 'x' (by simp) (by decide) (decodeUtf8 rest)
  unfold blank
  rw [hdecode]
  exact congrArg List.isEmpty hrest

/-- What one poll of the marker request concludes depends on the read only through what it decodes
to. -/
theorem coverage_of_parse_eq {data data' : Bytes} (h : parse data = parse data') :
    (collect sampleRequest [⟨fun _ => .ok data, false⟩]).map Result.coverage =
      (collect sampleRequest [⟨fun _ => .ok data', false⟩]).map Result.coverage := by
  -- the two runs of the loop differ in the remembered read only
  have hstep : pollStep sampleRequest {} ⟨fun _ => .ok data, false⟩ =
      { pollStep sampleRequest {} ⟨fun _ => .ok data', false⟩ with
        seen := Function.update (fun _ => []) "node" data } := by
    simp [pollStep, pollReads, sampleRequest, readStep, findMarkers, replaced, h]
  unfold collect
  simp only [poll, hstep]
  generalize pollStep sampleRequest {} ⟨fun _ => .ok data', false⟩ = d
  by_cases hdrained : d.start.isSome && d.finish.isSome
  · simp only [drained, hdrained, Bool.true_or, if_true]
    rfl
  · simp only [drained, hdrained, Bool.or_self, Bool.false_eq_true, if_false]

/-- The oversized line is neither an event nor a bad line, and `Collect` takes the read for a
clean and complete one. -/
theorem parse_loses_oversized :
    (parse oversizedLog).events.length + (parse oversizedLog).bad = 2 ∧
      nonBlank oversizedLog = 3 ∧
      (collect sampleRequest [⟨fun _ => .ok oversizedLog, false⟩]).map Result.coverage =
        some .complete := by
  have hparse : parse oversizedLog = parse markedText := by
    unfold parse
    rw [scanLines_oversizedLog]
  refine ⟨?_, ?_, ?_⟩
  · rw [hparse]
    decide +kernel
  · unfold nonBlank
    rw [logLines_oversizedLog, List.countP_append, List.countP_singleton,
      show maxTokenSize = maxTokenSize - 1 + 1 from rfl, List.replicate_succ, not_blank_cons]
    decide +kernel
  · rw [coverage_of_parse_eq hparse]
    decide +kernel

end EvidraBench.Audit
