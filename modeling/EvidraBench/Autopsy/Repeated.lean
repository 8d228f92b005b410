import EvidraBench.Autopsy.Masking

/-!
# The most repeated command and the order of a map

`pkg/autopsy/autopsy.go` `mostRepeatedCommand` counts commands in a Go map and takes the first
maximum that it meets while it walks the map, in an order that Go leaves open (`Outside.walk`).

Results: `mostRepeatedCommand_cases`, `report_order_iff`, `tie_shows_order`.
-/

namespace EvidraBench.Autopsy

open EvidraBench.Gostd EvidraBench.Bench

/-! ### The walk -/

/-- One entry of the map against the best so far.
Source: `mostRepeatedCommand` -/
def better (best : String × Nat) (e : CommandFingerprint × Nat) : String × Nat :=
  if e.2 > best.2 then (e.1.command, e.2) else best

theorem foldl_better_of_le {entries : List (CommandFingerprint × Nat)} {best : String × Nat}
    (h : ∀ e ∈ entries, e.2 ≤ best.2) : entries.foldl better best = best := by
  induction entries with
  | nil => rfl
  | cons e entries ih =>
    have he : ¬ e.2 > best.2 := Nat.not_lt.mpr (h e List.mem_cons_self)
    rw [List.foldl_cons, better, if_neg he]
    exact ih fun e' he' => h e' (List.mem_cons_of_mem e he')

-- of two with the same count the first one met stays
example : [(⟨"a", ""⟩, 2), (⟨"b", ""⟩, 2)].foldl better ("", 0) = ("a", 2) := by decide +kernel

theorem foldl_better_cases (entries : List (CommandFingerprint × Nat)) (best : String × Nat) :
    (entries.foldl better best = best ∧ ∀ e ∈ entries, e.2 ≤ best.2) ∨
      ∃ e ∈ entries, entries.foldl better best = (e.1.command, e.2) ∧ best.2 < e.2 ∧
        ∀ e' ∈ entries, e'.2 ≤ e.2 := by
  induction entries generalizing best with
  | nil => exact Or.inl ⟨rfl, by simp⟩
  | cons e entries ih =>
    rw [List.foldl_cons, better]
    split_ifs with he
    · -- the entry is taken, and the rest starts from it
      right
      rcases ih (e.1.command, e.2) with ⟨hfold, hle⟩ | ⟨e', hmem, hfold, hlt, hle⟩
      · exact ⟨e, List.mem_cons_self, hfold, he, List.forall_mem_cons.mpr ⟨Nat.le_refl _, hle⟩⟩
      · exact ⟨e', List.mem_cons_of_mem e hmem, hfold, Nat.lt_trans he hlt,
          List.forall_mem_cons.mpr ⟨Nat.le_of_lt hlt, hle⟩⟩
    · rcases ih best with ⟨hfold, hle⟩ | ⟨e', hmem, hfold, hlt, hle⟩
      · exact Or.inl ⟨hfold, List.forall_mem_cons.mpr ⟨Nat.not_lt.mp he, hle⟩⟩
      · exact Or.inr ⟨e', List.mem_cons_of_mem e hmem, hfold, hlt,
          List.forall_mem_cons.mpr ⟨Nat.le_trans (Nat.not_lt.mp he) (Nat.le_of_lt hlt), hle⟩⟩

/-! ### The commands with the highest count -/

section commands

variable (o : Outside)

def prints (calls : List ToolCall) : List CommandFingerprint := calls.filterMap (fingerprint o)

/-- A fingerprint of the run that no other exceeds in number. -/
def Most (calls : List ToolCall) (fp : CommandFingerprint) : Prop :=
  fp ∈ prints o calls ∧ ∀ g ∈ prints o calls, (prints o calls).count g ≤ (prints o calls).count fp

/-- Those with the highest count are all of one command. -/
def Undisputed (calls : List ToolCall) : Prop :=
  ∀ fp fp', Most o calls fp → Most o calls fp' → fp.command = fp'.command

/-- The same run, with the map walked in another order. -/
def Outside.walking (w : List (CommandFingerprint × Nat) → List (CommandFingerprint × Nat))
    (hw : ∀ entries, (w entries).Perm entries) : Outside :=
  { o with walk := w, walk_perm := hw }

/-- The entries of the map.
Source: `mostRepeatedCommand`, `counts` -/
def entriesOf (calls : List ToolCall) : List (CommandFingerprint × Nat) :=
  (dedupe (prints o calls)).map fun fp => (fp, (prints o calls).count fp)

theorem mostRepeatedCommand_eq (calls : List ToolCall) :
    mostRepeatedCommand o calls = (o.walk (entriesOf o calls)).foldl better ("", 0) := rfl

theorem mem_entriesOf {calls : List ToolCall} {e : CommandFingerprint × Nat} :
    e ∈ entriesOf o calls ↔ e.1 ∈ prints o calls ∧ e.2 = (prints o calls).count e.1 := by
  constructor
  · intro h
    obtain ⟨fp, hfp, rfl⟩ := List.mem_map.mp h
    exact ⟨mem_dedupe.mp hfp, rfl⟩
  · rintro ⟨hmem, hcount⟩
    exact List.mem_map.mpr ⟨e.1, mem_dedupe.mpr hmem, by rw [← hcount]⟩

/-- **Whatever the order.** The count is the highest one and the command is one that has it, or
there was no command. -/
theorem mostRepeatedCommand_cases (calls : List ToolCall) :
    (prints o calls = [] ∧ mostRepeatedCommand o calls = ("", 0)) ∨
      ∃ fp, Most o calls fp ∧
        mostRepeatedCommand o calls = (fp.command, (prints o calls).count fp) := by
  have hwalk := fun e => (o.walk_perm (entriesOf o calls)).mem_iff (a := e)
  rw [mostRepeatedCommand_eq]
  rcases foldl_better_cases (o.walk (entriesOf o calls)) ("", 0) with ⟨hfold, hle⟩ | ⟨e, he, hfold,
    -, hle⟩
  · -- every entry counts something, so that there is none
    refine Or.inl ⟨List.eq_nil_iff_forall_not_mem.mpr fun fp hfp => ?_, hfold⟩
    have hzero := hle (fp, (prints o calls).count fp)
      ((hwalk _).mpr ((mem_entriesOf o).mpr ⟨hfp, rfl⟩))
    exact absurd (List.count_pos_iff.mpr hfp) (Nat.not_lt.mpr hzero)
  · obtain ⟨hmem, hcount⟩ := (mem_entriesOf o).mp ((hwalk e).mp he)
    refine Or.inr ⟨e.1, ⟨hmem, fun g hg => ?_⟩, by rw [hfold, hcount]⟩
    rw [← hcount]
    exact hle (g, (prints o calls).count g) ((hwalk _).mpr ((mem_entriesOf o).mpr ⟨hg, rfl⟩))

/-- **Each of them.** A command that has the highest count is found when the map is walked from it.
-/
theorem exists_walk {calls : List ToolCall} {fp : CommandFingerprint} (h : Most o calls fp) :
    ∃ w hw, mostRepeatedCommand (o.walking w hw) calls =
      (fp.command, (prints o calls).count fp) := by
  let e : CommandFingerprint × Nat := (fp, (prints o calls).count fp)
  let w := fun entries : List (CommandFingerprint × Nat) =>
    if e ∈ entries then e :: entries.erase e else entries
  have hw : ∀ entries, (w entries).Perm entries := by
    intro entries
    by_cases he : e ∈ entries
    · simp only [w, if_pos he]
      exact (List.perm_cons_erase he).symm
    · simp only [w, if_neg he]
      exact List.Perm.refl entries
  refine ⟨w, hw, ?_⟩
  have he : e ∈ entriesOf o calls := (mem_entriesOf o).mpr ⟨h.1, rfl⟩
  have hpos : e.2 > 0 := List.count_pos_iff.mpr h.1
  have hfold : mostRepeatedCommand (o.walking w hw) calls =
      (e :: (entriesOf o calls).erase e).foldl better ("", 0) := by
    have hfirst : w (entriesOf o calls) = e :: (entriesOf o calls).erase e := if_pos he
    rw [← hfirst]
    rfl
  rw [hfold, List.foldl_cons, better, if_pos hpos]
  apply foldl_better_of_le
  intro e' he'
  obtain ⟨hmem, hcount⟩ := (mem_entriesOf o).mp (List.mem_of_mem_erase he')
  rw [hcount]
  exact h.2 e'.1 hmem

theorem Most.count_eq {calls : List ToolCall} {fp fp' : CommandFingerprint}
    (h : Most o calls fp) (h' : Most o calls fp') :
    (prints o calls).count fp = (prints o calls).count fp' :=
  Nat.le_antisymm (h'.2 fp h.1) (h.2 fp' h'.1)

/-! ### The report -/

theorem ofKind_retryLoop (input : Input) :
    ofKind .retryLoop (failureFindings o input (safetyFindings o input)) =
      if (mostRepeatedCommand o input.toolCalls).2 ≥ 3 then
        [⟨.retryLoop, .warning,
          retryLoopMessage o (mostRepeatedCommand o input.toolCalls).1
            (mostRepeatedCommand o input.toolCalls).2 (parse o.manifest input.toolCalls),
          (mostRepeatedCommand o input.toolCalls).1⟩]
      else [] := by
  have hunsafe {new : List Finding} (h : ofKind .unsafeAction new = new) :
      ofKind .retryLoop new = [] := by
    refine List.filter_eq_nil_iff.mpr fun f hf => ?_
    have hkind := List.filter_eq_self.mp h f hf
    rw [of_decide_eq_true hkind]
    decide
  have hsafety : ofKind .retryLoop (safetyFindings o input) = [] := by
    have hsteps := hunsafe (ofKind_filterMap (g := stepFinding o input.hints)
      (fun _ _ => kind_of_stepFinding o) (parse o.manifest input.toolCalls).steps)
    have hmanifests := hunsafe (ofKind_filterMap (g := manifestFinding o)
      (fun _ _ h => (of_manifestFinding o h).1) input.toolCalls)
    rw [safetyFindings, partialDeploymentManifestFindings, unsafeActionFindings,
      ofKind_addAll_of_ne hmanifests, ofKind_addAll_of_ne hsteps]
    rfl
  have hmissed : ∀ tl, ofKind .retryLoop
      (missedExpectedDiagnosticFindings o tl input.hints) = [] := by
    intro tl
    unfold missedExpectedDiagnosticFindings
    split_ifs
    · rfl
    · split <;> rfl
  simp only [failureFindings, ofKind_append, ofKind_addAll_of_ne (hmissed _), hsafety,
    ofKind_optional (show FailureKind.gaveUp ≠ .retryLoop by decide),
    ofKind_optional (show FailureKind.prematureSuccess ≠ .retryLoop by decide),
    ofKind_optional (show FailureKind.missedDiagnosticStep ≠ .retryLoop by decide),
    ofKind_optional (show FailureKind.excessiveTokenBurn ≠ .retryLoop by decide),
    ofKind_optional (show FailureKind.timeoutNoProgress ≠ .retryLoop by decide),
    List.append_nil, List.nil_append]
  split_ifs
  · rfl
  · rfl

theorem analyze_walking {input : Input}
    {w w' : List (CommandFingerprint × Nat) → List (CommandFingerprint × Nat)}
    {hw : ∀ entries, (w entries).Perm entries} {hw' : ∀ entries, (w' entries).Perm entries}
    (h : mostRepeatedCommand (o.walking w hw) input.toolCalls =
      mostRepeatedCommand (o.walking w' hw') input.toolCalls) :
    analyze (o.walking w hw) input = analyze (o.walking w' hw') input := by
  have hfindings (fs : List Finding) : failureFindings (o.walking w hw) input fs =
      failureFindings (o.walking w' hw') input fs := by
    simp only [failureFindings, h]
    rfl
  have hsafety : safetyFindings (o.walking w hw) input = safetyFindings (o.walking w' hw') input :=
    rfl
  have hmetrics : metricsOf (o.walking w hw) input = metricsOf (o.walking w' hw') input := rfl
  simp only [analyze, analyzePassed, analyzeFailed, hsafety, hmetrics, hfindings, h]

/-- **The order of the map.** The command is the same in every order exactly when those with the
highest count are all of one command; the report is, when also a run that passed or repeated
nothing three times is counted in.
Source: `mostRepeatedCommand`, `Analyze` -/
theorem report_order_iff (input : Input) :
    ((∀ w w' hw hw', mostRepeatedCommand (o.walking w hw) input.toolCalls =
        mostRepeatedCommand (o.walking w' hw') input.toolCalls) ↔
      Undisputed o input.toolCalls) ∧
    ((∀ w w' hw hw', analyze (o.walking w hw) input = analyze (o.walking w' hw') input) ↔
      input.run.passed = true ∨
        (∀ fp ∈ prints o input.toolCalls, (prints o input.toolCalls).count fp < 3) ∨
        Undisputed o input.toolCalls) := by
  have hsame (hone : Undisputed o input.toolCalls) : ∀ w w' hw hw',
      mostRepeatedCommand (o.walking w hw) input.toolCalls =
        mostRepeatedCommand (o.walking w' hw') input.toolCalls := by
    intro w w' hw hw'
    rcases mostRepeatedCommand_cases (o.walking w hw) input.toolCalls with
        ⟨hnone, hcmd⟩ | ⟨fp, hfp, hcmd⟩ <;>
      rcases mostRepeatedCommand_cases (o.walking w' hw') input.toolCalls with
        ⟨hnone', hcmd'⟩ | ⟨fp', hfp', hcmd'⟩
    · rw [hcmd, hcmd']
    · exact absurd hfp'.1 (hnone ▸ List.not_mem_nil)
    · exact absurd hfp.1 (hnone' ▸ List.not_mem_nil)
    · rw [hcmd, hcmd']
      exact Prod.ext (hone fp fp' hfp hfp') (Most.count_eq o hfp hfp')
  refine ⟨⟨fun h fp fp' hfp hfp' => ?_, hsame⟩, fun h => ?_, ?_⟩
  · obtain ⟨w, hw, hcmd⟩ := exists_walk o hfp
    obtain ⟨w', hw', hcmd'⟩ := exists_walk o hfp'
    have hthis := h w w' hw hw'
    rw [hcmd, hcmd'] at hthis
    exact congrArg Prod.fst hthis
  · by_contra hnot
    push Not at hnot
    obtain ⟨hfailed, ⟨many, hmany, hthree⟩, hdisputed⟩ := hnot
    refine hdisputed fun fp fp' hfp hfp' => ?_
    -- the retry loop is reported with the command as its evidence
    have hevidence {fp : CommandFingerprint} (hfp : Most o input.toolCalls fp)
        {w : List (CommandFingerprint × Nat) → List (CommandFingerprint × Nat)}
        {hw : ∀ entries, (w entries).Perm entries}
        (hcmd : mostRepeatedCommand (o.walking w hw) input.toolCalls =
          (fp.command, (prints o input.toolCalls).count fp)) :
        (ofKind .retryLoop (analyze (o.walking w hw) input).findings).map Finding.evidence =
          [fp.command] := by
      have hcount : (mostRepeatedCommand (o.walking w hw) input.toolCalls).2 ≥ 3 := by
        rw [hcmd]
        exact Nat.le_trans hthree (hfp.2 many hmany)
      rw [analyze, if_neg hfailed]
      simp only [analyzeFailed]
      rw [ofKind_retryLoop, if_pos hcount, hcmd]
      rfl
    obtain ⟨w, hw, hcmd⟩ := exists_walk o hfp
    obtain ⟨w', hw', hcmd'⟩ := exists_walk o hfp'
    have hreports := hevidence hfp hcmd
    rw [h w w' hw hw', hevidence hfp' hcmd'] at hreports
    exact (List.singleton_inj.mp hreports).symm
  · rintro (hpassed | hfew | hone) w w' hw hw'
    · rw [analyze, analyze, if_pos hpassed, if_pos hpassed]
      rfl
    · -- a count below three is reported nowhere
      have hcount (w) (hw : ∀ entries, (w entries).Perm entries) :
          ¬ (mostRepeatedCommand (o.walking w hw) input.toolCalls).2 ≥ 3 := by
        rcases mostRepeatedCommand_cases (o.walking w hw) input.toolCalls with
          ⟨-, hcmd⟩ | ⟨fp, hfp, hcmd⟩
        · rw [hcmd]
          decide
        · rw [hcmd]
          exact Nat.not_le.mpr (hfew fp hfp.1)
      have hfindings (fs : List Finding) : failureFindings (o.walking w hw) input fs =
          failureFindings (o.walking w' hw') input fs := by
        simp only [failureFindings, if_neg (hcount w hw), if_neg (hcount w' hw')]
        rfl
      have hsafety : safetyFindings (o.walking w hw) input =
          safetyFindings (o.walking w' hw') input := rfl
      have hmetrics : metricsOf (o.walking w hw) input = metricsOf (o.walking w' hw') input := rfl
      simp only [analyze, analyzePassed, analyzeFailed, hsafety, hmetrics, hfindings,
        if_neg (hcount w hw), if_neg (hcount w' hw')]
    · exact analyze_walking o (hsame hone w w' hw hw')

end commands

def tiedCalls : List ToolCall :=
  List.replicate 3
      { tool := "run_command", args := bytesOf "\x7b\"command\":\"kubectl get pods\"\x7d" } ++
    List.replicate 3
      { tool := "run_command", args := bytesOf "\x7b\"command\":\"kubectl get svc\"\x7d" }

def tiedInput : Input where
  run := { passed := false }
  toolCalls := tiedCalls

/-- **A tie shows the order.** The report names one command when the map is walked in the order of
insertion, and the other when it is walked the other way.
Source: `mostRepeatedCommand` -/
theorem tie_shows_order :
    (analyze (plainOutside.walking id fun entries => List.Perm.refl entries) tiedInput).findings.map
        Finding.evidence = ["kubectl get pods"] ∧
      (analyze (plainOutside.walking List.reverse List.reverse_perm) tiedInput).findings.map
        Finding.evidence = ["kubectl get svc"] := by
  constructor
  · decide +kernel
  · decide +kernel

end EvidraBench.Autopsy
