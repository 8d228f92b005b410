import EvidraBench.Autopsy.Spelling
import EvidraBench.Bench.Segments

/-!
# When hints treat two spellings alike

`pkg/autopsy/autopsy.go` `patternMatchesStep`, on the steps of two commands that act on the same
resource in the same namespace with the same verb.

Results: `patterns_agree_iff`, `intents_agree_iff`, `spellings_agree_iff`, `words_miss_pattern`.
-/

namespace EvidraBench.Autopsy

open EvidraBench.Gostd EvidraBench.Bench

/-! ### Hints that tell two steps apart -/

theorem canonicalKind_valid (w : Word) : isWord (canonicalKind w) = true := by
  have hall : ∀ p ∈ resourceKindAliases, isWord p.2 = true := by decide +kernel
  rcases canonicalKind_cases w with ⟨-, hkind⟩ | ⟨p, hp, hkind⟩
  · rw [hkind]
    exact w.lower.valid
  · rw [hkind]
    exact hall p hp

def Word.canonical (w : Word) : Word := ⟨canonicalKind w, canonicalKind_valid w⟩

theorem Word.lower_canonical (w : Word) : w.canonical.lower.text = canonicalKind w := by
  have hall : ∀ p ∈ resourceKindAliases,
      String.ofList (p.2.toList.map Char.toLower) = p.2 := by decide +kernel
  simp only [Word.lower, Word.canonical]
  rcases canonicalKind_cases w with ⟨-, hkind⟩ | ⟨p, hp, hkind⟩
  · rw [hkind]
    exact w.lower_lower
  · rw [hkind]
    exact hall p hp

theorem canonicalKind_canonical (w : Word) : canonicalKind w.canonical = canonicalKind w := by
  have hall : ∀ p ∈ resourceKindAliases, resourceKindAliases.lookup p.2 = none := by
    decide +kernel
  have hlookup : resourceKindAliases.lookup (canonicalKind w) = none := by
    rcases canonicalKind_cases w with ⟨hnone, hkind⟩ | ⟨p, hp, hkind⟩
    · rw [hkind]
      exact hnone
    · rw [hkind]
      exact hall p hp
  rw [canonicalKind, w.lower_canonical, hlookup, Option.getD_none]

section hints

variable {u : Case}

theorem resource_unspaced (a : Spelling) (t : Target) : Unspaced (a.resource t) := by
  unfold Spelling.resource
  split
  · exact unspaced_slash a.kind.canonical t.name.lower
  · exact (a.resourceWord t).canonical.unspaced

theorem canonicalResourceToken_resource (hu : u.Ascii) (a : Spelling) (t : Target) :
    canonicalResourceToken u (a.resource t) = a.resource t := by
  unfold Spelling.resource
  split
  · have htoken := canonicalResourceToken_slash hu a.kind.canonical t.name.lower
    rwa [a.kind.lower_canonical, t.name.lower_lower, canonicalKind_canonical] at htoken
  · have htoken := canonicalResourceToken_word hu (a.resourceWord t).canonical
    rwa [(a.resourceWord t).lower_canonical, canonicalKind_canonical] at htoken

theorem not_mem_resource {a : Spelling} {t : Target} {c : Char} (hc : isWordChar c = false)
    (hslash : c ≠ '/') : c ∉ (a.resource t).toList := by
  unfold Spelling.resource
  have hchars : "/".toList = ['/'] := rfl
  split
  · simp only [String.toList_append, hchars, List.mem_append, List.mem_singleton]
    rintro ((hmem | hmem) | hmem)
    · exact a.kind.canonical.not_mem hc hmem
    · exact hslash hmem
    · exact t.name.lower.not_mem hc hmem
  · exact (a.resourceWord t).canonical.not_mem hc

theorem resourceTokenPatternMatches_resource {a : Spelling} {t : Target} {got : String} :
    resourceTokenPatternMatches (a.resource t) got = true ↔ a.resource t = got := by
  have hany : ((a.resource t).toList.any fun c => c = '*' || c = '?' || c = '[') = false := by
    rw [List.any_eq_false]
    intro c hc h
    simp only [Bool.or_eq_true, decide_eq_true_eq] at h
    rcases h with (rfl | rfl) | rfl
    · exact not_mem_resource (by decide) (by decide) hc
    · exact not_mem_resource (by decide) (by decide) hc
    · exact not_mem_resource (by decide) (by decide) hc
  have hstar : a.resource t ≠ "*" := by
    intro h
    exact not_mem_resource (a := a) (t := t) (c := '*') (by decide) (by decide) (by rw [h]; decide)
  rw [resourceTokenPatternMatches, if_neg hstar, hany, Bool.false_and]
  split <;> simp_all

theorem resource_ne_empty (a : Spelling) (t : Target) : a.resource t ≠ "" := by
  intro h
  apply (resource_unspaced a t).1
  rw [h]
  rfl

theorem canonicalResourceToken_star (hu : u.Ascii) : canonicalResourceToken u "*" = "*" := by
  have htrim : trimSpace "*" = "*" := by decide
  have hcut : cut "*" '/' = ("*", "", false) := by decide
  have hlookup : resourceKindAliases.lookup "*" = none := by decide
  rw [canonicalResourceToken, htrim, hcut]
  simp only [toLower_literal hu (s := "*") (by decide), hlookup]
  rfl

theorem resourceTokenPatternMatches_star {got : String} (h : got ≠ "") :
    resourceTokenPatternMatches "*" got = true := by
  rw [resourceTokenPatternMatches]
  split
  · rfl
  · rw [if_pos rfl]
    exact decide_eq_true h

theorem cutAt_star (ns : String) : cutAt ("* in " ++ ns) " in " = ("*", ns, true) := by
  have htext : ("* in " ++ ns).toList = '*' :: ' ' :: 'i' :: 'n' :: ' ' :: ns.toList := by
    rw [String.toList_append]
    rfl
  have hsep : " in ".toList = [' ', 'i', 'n', ' '] := rfl
  rw [cutAt, htext, hsep]
  simp [cutChars, List.isPrefixOf]

theorem equalFold_iff {s r : String} :
    u.equalFold s r = true ↔ s.toList.map u.fold = r.toList.map u.fold := by
  rw [Case.equalFold, beq_iff_eq]

theorem trimSpace_namespaceText (a : Spelling) (t : Target) :
    trimSpace (a.namespaceText t) = a.namespaceText t := by
  have hshort : Unspaced "-n" := by decide
  have hshortEq : Unspaced ("-n=" ++ t.ns.text) := t.ns.unspaced.append (by decide)
  unfold Spelling.namespaceText
  cases a.flag with
  | short => exact t.ns.unspaced.trimSpace_eq
  | long => exact t.ns.unspaced.trimSpace_eq
  | shortEq =>
    cases a.misread t with
    | true => exact hshortEq.trimSpace_eq
    | false => rfl
  | longEq =>
    cases a.misread t with
    | true => exact hshort.trimSpace_eq
    | false => exact t.ns.unspaced.trimSpace_eq

theorem patterns_agree_iff (hu : u.Ascii) {s s' : TimelineStep} {a b : Spelling} {t : Target}
    (ha : Spells s a t) (hb : Spells s' b t) :
    (∀ pattern, resourcePatternMatches u pattern s = resourcePatternMatches u pattern s') ↔
      a.resource t = b.resource t ∧
        (a.namespaceText t).toList.map u.fold = (b.namespaceText t).toList.map u.fold := by
  obtain ⟨hresource, hns⟩ := stepResourceIdentity_spelled hu ha
  obtain ⟨hresource', hns'⟩ := stepResourceIdentity_spelled hu hb
  constructor
  · intro h
    constructor
    · -- the hint that names what is read off the first
      have hcut : cutAt (a.resource t) " in " = (a.resource t, "", false) := by
        rw [cutAt, cutChars_of_not_mem (c := ' ') (by decide)
          (not_mem_resource (by decide) (by decide))]
      have hthis := h (a.resource t)
      simp only [resourcePatternMatches, hcut, canonicalResourceToken_resource hu, hresource,
        hresource', resourceTokenPatternMatches_resource.mpr rfl] at hthis
      apply resourceTokenPatternMatches_resource.mp
      simpa [resource_ne_empty] using hthis.symm
    · have hthis := h ("* in " ++ a.namespaceText t)
      simp only [resourcePatternMatches, cutAt_star, canonicalResourceToken_star hu, hresource,
        hresource', resourceTokenPatternMatches_star (resource_ne_empty _ t),
        trimSpace_namespaceText, equalFold_iff.mpr hns.symm] at hthis
      rw [← hns']
      apply equalFold_iff.mp
      simpa using hthis.symm
  · rintro ⟨hr, hn⟩ pattern
    have hfold (x : String) : u.equalFold x (stepResourceIdentity u s).2 =
        u.equalFold x (stepResourceIdentity u s').2 := by
      rw [Case.equalFold, Case.equalFold, hns, hns', hn]
    simp only [resourcePatternMatches, hresource, hresource', hr, hfold]

/-! ### Verb phrases -/

theorem startsWithVerb_self (tokens : List String) : startsWithVerb tokens tokens = true := by
  induction tokens with
  | nil => rfl
  | cons token tokens ih => simp [startsWithVerb, ih]

theorem length_le_of_startsWithVerb {command verb : List String}
    (h : startsWithVerb command verb = true) : verb.length ≤ command.length := by
  induction verb generalizing command with
  | nil => exact Nat.zero_le _
  | cons v verb ih =>
    cases command with
    | nil => cases h
    | cons token command =>
      exact Nat.succ_le_succ (ih (Bool.and_eq_true_iff.mp h).2)

theorem infix_of_verbToken {token v : String} (h : (token == v || contains token v) = true) :
    v.toList <:+: token.toList := by
  rcases Bool.or_eq_true_iff.mp h with h | h
  · rw [beq_iff_eq.mp h]
  · exact containsChars_iff.mp h

theorem eq_of_startsWithVerb {xs ys : List String} (hxy : startsWithVerb xs ys = true)
    (hyx : startsWithVerb ys xs = true) : xs = ys := by
  induction xs generalizing ys with
  | nil =>
    cases ys with
    | nil => rfl
    | cons y ys => cases hxy
  | cons x xs ih =>
    cases ys with
    | nil => cases hyx
    | cons y ys =>
      obtain ⟨hx, hxs⟩ := Bool.and_eq_true_iff.mp hxy
      obtain ⟨hy, hys⟩ := Bool.and_eq_true_iff.mp hyx
      have hyx' := infix_of_verbToken hx
      have hxy' := infix_of_verbToken hy
      have htext : x.toList = y.toList :=
        hxy'.eq_of_length (Nat.le_antisymm hxy'.length_le hyx'.length_le)
      rw [String.toList_inj.mp htext, ih hxs hys]

theorem containsVerbTokens_self (tokens : List String) :
    containsVerbTokens tokens tokens = true :=
  List.any_eq_true.mpr ⟨tokens, (List.mem_tails _ _).mpr List.suffix_rfl,
    startsWithVerb_self tokens⟩

theorem eq_of_containsVerbTokens {xs ys : List String} (hxy : containsVerbTokens xs ys = true)
    (hyx : containsVerbTokens ys xs = true) : xs = ys := by
  obtain ⟨xrest, hx, hxy⟩ := List.any_eq_true.mp hxy
  obtain ⟨yrest, hy, hyx⟩ := List.any_eq_true.mp hyx
  have hx := (List.mem_tails _ _).mp hx
  have hy := (List.mem_tails _ _).mp hy
  have hlen := length_le_of_startsWithVerb hxy
  have hlen' := length_le_of_startsWithVerb hyx
  have hle := hx.length_le
  have hle' := hy.length_le
  rw [hx.eq_of_length (by omega)] at hxy
  rw [hy.eq_of_length (by omega)] at hyx
  exact eq_of_startsWithVerb hxy hyx

theorem trimSpace_ne_empty {s : String} (h : fields s ≠ []) : trimSpace s ≠ "" := by
  intro hempty
  rw [← fields_trimSpace, hempty] at h
  exact h rfl

theorem intents_agree_iff (hu : u.Ascii) {s s' : TimelineStep} {a b : Spelling} {t : Target}
    (ha : Spells s a t) (hb : Spells s' b t) :
    (∀ pattern, resourceIntentMatches u pattern s = resourceIntentMatches u pattern s') ↔
      (a.resource t = b.resource t ∧
        (a.namespaceText t).toList.map u.fold = (b.namespaceText t).toList.map u.fold) ∧
      a.tokens t = b.tokens t := by
  obtain ⟨hresource, hns⟩ := stepResourceIdentity_spelled hu ha
  obtain ⟨hresource', hns'⟩ := stepResourceIdentity_spelled hu hb
  have htokens {step : TimelineStep} {c : Spelling} (h : Spells step c t) :
      tokenizeCommand u step.command = c.tokens t := by
    rw [tokenizeCommand, h.words, tokenizeWords_spelling hu]
  have hcommand {step : TimelineStep} {c : Spelling} (h : Spells step c t) :
      trimSpace step.command ≠ "" :=
    trimSpace_ne_empty (by rw [h.words]; exact List.cons_ne_nil _ _)
  have hempty : trimSpace "" = "" := rfl
  constructor
  · intro h
    refine ⟨⟨?_, ?_⟩, ?_⟩
    · have hthis := h { kind := "resource_intent", resource := a.resource t }
      simp only [resourceIntentMatches, canonicalResourceToken_resource hu, hresource, hresource',
        resourceTokenPatternMatches_resource.mpr rfl, hempty] at hthis
      apply resourceTokenPatternMatches_resource.mp
      simpa [resource_ne_empty] using hthis.symm
    · -- an empty namespace asks for nothing, so that each of the two is tried
      have hask {x : String} (hx : x ≠ "") (htrim : trimSpace x = x) :
          u.equalFold x (stepResourceIdentity u s).2 =
            u.equalFold x (stepResourceIdentity u s').2 := by
        have hthis := h { kind := "resource_intent", resource := "*", namespace_ := x }
        simpa [resourceIntentMatches, canonicalResourceToken_star hu, hresource, hresource',
          resourceTokenPatternMatches_star (resource_ne_empty _ t), hempty, htrim, hx] using hthis
      by_cases hax : a.namespaceText t = ""
      · by_cases hbx : b.namespaceText t = ""
        · rw [hax, hbx]
        · have hthis := hask hbx (trimSpace_namespaceText b t)
          rw [equalFold_iff.mpr hns'.symm, equalFold_iff] at hthis
          rw [hthis, hns]
      · have hthis := hask hax (trimSpace_namespaceText a t)
        rw [equalFold_iff.mpr hns.symm] at hthis
        rw [equalFold_iff.mp hthis.symm, hns']
    · have hphrase {x : TimelineStep} {c : Spelling} (hx : Spells x c t) :
          containsVerbTokens (a.tokens t) (c.tokens t) =
            containsVerbTokens (b.tokens t) (c.tokens t) := by
        have hthis := h { kind := "resource_intent", resource := "*", verb := x.command }
        simpa [resourceIntentMatches, canonicalResourceToken_star hu, hresource, hresource',
          resourceTokenPatternMatches_star (resource_ne_empty _ t), hempty, hcommand hx,
          htokens ha, htokens hb, htokens hx] using hthis
      have hab := (hphrase ha).symm.trans (containsVerbTokens_self _)
      have hba := (hphrase hb).trans (containsVerbTokens_self _)
      exact eq_of_containsVerbTokens hba hab
  · rintro ⟨⟨hr, hn⟩, ht⟩ pattern
    have hfold (x : String) : u.equalFold x (stepResourceIdentity u s).2 =
        u.equalFold x (stepResourceIdentity u s').2 := by
      rw [Case.equalFold, Case.equalFold, hns, hns', hn]
    simp only [resourceIntentMatches, hresource, hresource', hr, hfold, htokens ha, htokens hb, ht]

end hints

/-! ### How the two are spelled -/

/-- The same resource and the same namespace are read off the two. -/
structure ReadAlike (a b : Spelling) (t : Target) : Prop where
  resource : a.resource t = b.resource t
  namespaceText : a.namespaceText t = b.namespaceText t

/-- The two have the same words in the same order, up to letter case and up to `-n ns`,
`--namespace ns` and `--namespace=ns`. -/
structure WordedAlike (a b : Spelling) : Prop where
  shape : a.shape = b.shape
  kind : a.kind.lower.text = b.kind.lower.text
  shortEq : a.flag = .shortEq ↔ b.flag = .shortEq

inductive Mark
  | joined
  | dashed
  | slashed
  | plain
deriving DecidableEq

def Mark.of (token : String) : Mark :=
  if hasPrefix token "-" then if contains token "=" then .joined else .dashed
  else if contains token "/" then .slashed
  else .plain

theorem Mark.of_word (w : Word) : Mark.of w.text = .plain := by
  rw [Mark.of, w.hasPrefix_dash, w.contains_slash]
  rfl

theorem Mark.of_slash (k n : Word) : Mark.of (k.text ++ "/" ++ n.text) = .slashed := by
  have hdash : hasPrefix (k.text ++ "/" ++ n.text) "-" = false := by
    rw [String.append_assoc]
    exact hasPrefix_append_left k _
  have hslash : contains (k.text ++ "/" ++ n.text) "/" = true :=
    contains_char.mpr (by rw [String.toList_append, String.toList_append]; simp)
  rw [Mark.of, hdash, hslash]
  rfl

theorem Mark.of_shortEq (ns : String) : Mark.of ("-n=" ++ ns) = .joined := by
  have hdash : hasPrefix ("-n=" ++ ns) "-" = true := by
    rw [hasPrefix, String.toList_append, List.isPrefixOf_iff_prefix]
    exact List.IsPrefix.trans (by decide) (List.prefix_append "-n=".toList _)
  have heq : contains ("-n=" ++ ns) "=" = true :=
    contains_char.mpr (by rw [String.toList_append]; simp)
  rw [Mark.of, hdash, heq]
  rfl

def marks (joined : Bool) : Shape → List Mark
  | .slashBefore => (if joined then [.joined] else [.dashed, .plain]) ++ [.slashed]
  | .slashAfter => .slashed :: if joined then [.joined] else [.dashed, .plain]
  | .wordsBefore => (if joined then [.joined] else [.dashed, .plain]) ++ [.plain, .plain]
  | .wordsBetween => .plain :: ((if joined then [.joined] else [.dashed, .plain]) ++ [.plain])
  | .wordsAfter => .plain :: .plain :: if joined then [.joined] else [.dashed, .plain]

theorem marks_injective {shape shape' : Shape} {joined joined' : Bool}
    (h : marks joined shape = marks joined' shape') : shape = shape' ∧ joined = joined' := by
  revert joined joined'
  cases shape <;> cases shape' <;> decide

theorem map_mark_args (shape : Shape) (flag : Flag) (k n ns : Word) :
    (shape.args (flag.tokens ns.text) k.text n.text).map Mark.of =
      marks (decide (flag = .shortEq)) shape := by
  have hdash : Mark.of "-n" = .dashed := by decide
  cases shape <;> cases flag <;>
    simp [Shape.args, Flag.tokens, marks, Mark.of_word, Mark.of_slash, Mark.of_shortEq, hdash]

theorem tokens_eq_iff (a b : Spelling) (t : Target) :
    a.tokens t = b.tokens t ↔ WordedAlike a b := by
  constructor
  · intro h
    have hargs := List.append_cancel_left (List.cons.inj h).2
    have hmarks := congrArg (List.map Mark.of) hargs
    rw [map_mark_args, map_mark_args] at hmarks
    obtain ⟨hshape, hflag⟩ := marks_injective hmarks
    have hflag : a.flag = .shortEq ↔ b.flag = .shortEq := by
      rwa [decide_eq_decide] at hflag
    have htokens : a.flag.tokens t.ns.lower.text = b.flag.tokens t.ns.lower.text := by
      cases ha : a.flag <;> cases hb : b.flag <;> simp [Flag.tokens] <;> simp [ha, hb] at hflag
    rw [hshape, htokens] at hargs
    refine ⟨hshape, ?_, hflag⟩
    cases hb : b.shape <;> rw [hb] at hargs <;> simpa [Shape.args] using hargs
  · rintro ⟨hshape, hkind, hflag⟩
    have htokens : a.flag.tokens t.ns.lower.text = b.flag.tokens t.ns.lower.text := by
      cases ha : a.flag <;> cases hb : b.flag <;> simp [Flag.tokens] <;> simp [ha, hb] at hflag
    rw [Spelling.tokens, Spelling.tokens, hshape, hkind, htokens]

section runs

variable {u : Case}

theorem namespaceText_cases (a : Spelling) (t : Target) :
    a.namespaceText t = t.ns.text ∨ a.namespaceText t = "-n" ∨
      a.namespaceText t = "-n=" ++ t.ns.text ∨ a.namespaceText t = "" := by
  unfold Spelling.namespaceText
  cases a.flag <;> cases a.misread t <;> simp

theorem namespaceText_eq_of_fold (hu : u.Ascii) {a b : Spelling} {t : Target}
    (h : (a.namespaceText t).toList.map u.fold = (b.namespaceText t).toList.map u.fold) :
    a.namespaceText t = b.namespaceText t := by
  obtain ⟨c, rest, htext, hc⟩ := t.ns.exists_cons
  have hshort : "-n".toList = ['-', 'n'] := rfl
  have hjoined : ("-n=" ++ t.ns.text).toList = '-' :: 'n' :: '=' :: t.ns.text.toList := by
    rw [String.toList_append]
    rfl
  have hfold : u.fold c ≠ u.fold '-' := fun heq => hc (hu.dash c heq)
  have hlen := congrArg List.length h
  rw [List.length_map, List.length_map] at hlen
  rcases namespaceText_cases a t with ha | ha | ha | ha <;>
    rcases namespaceText_cases b t with hb | hb | hb | hb <;>
    rw [ha, hb] at h hlen ⊢ <;>
    simp [htext, hshort, hjoined, hfold, Ne.symm hfold] at h hlen

theorem run_concat (yaml : ManifestDecoder) (call : ToolCall) (calls : List ToolCall) :
    ∀ (p : Progress) (index : Nat), Progress.run yaml p index (calls ++ [call]) =
      (Progress.run yaml p index calls).advance yaml (index + calls.length) call := by
  induction calls with
  | nil =>
    intro p index
    rfl
  | cons first calls ih =>
    intro p index
    rw [List.cons_append, Progress.run, ih, Progress.run, List.length_cons]
    congr 1
    omega

theorem spells_of_parse {yaml : ManifestDecoder} {calls : List ToolCall} {call : ToolCall}
    {step : TimelineStep} {a : Spelling} {t : Target}
    (hstep : (parse yaml (calls ++ [call])).steps.getLast? = some step)
    (htool : call.tool = "run_command") (hwords : fields (extractCommand call.args) = a.words t) :
    Spells step a t := by
  have hcommand (index : Nat) (phase : Phase) : Spells (commandStep index call phase) a t :=
    ⟨by simp only [commandStep, hwords], by simp only [commandStep], by simp only [commandStep]⟩
  have hrun := run_concat yaml call calls {} 0
  have hsteps : ∃ index phase, step = commandStep index call phase := by
    simp only [parse, hrun, Progress.advance, if_pos htool] at hstep
    split at hstep
    · simp only [Timeline.add, List.getLast?_concat, Option.some.injEq] at hstep
      exact ⟨_, _, hstep.symm⟩
    · simp only [Timeline.add, List.getLast?_concat, Option.some.injEq] at hstep
      exact ⟨_, _, hstep.symm⟩
  obtain ⟨index, phase, rfl⟩ := hsteps
  exact hcommand index phase

/-- **Spellings of one command.** All hints on resources agree exactly when the two spellings are
worded alike and the same is read off them; for hints that are patterns, what is read is enough.
Source: `patternMatchesStep` -/
theorem spellings_agree_iff (hu : u.Ascii) (t : Target) (a b : Spelling)
    {yaml : ManifestDecoder} {calls calls' : List ToolCall} {call call' : ToolCall}
    {step step' : TimelineStep}
    (htool : call.tool = "run_command") (htool' : call'.tool = "run_command")
    (hwords : fields (extractCommand call.args) = a.words t)
    (hwords' : fields (extractCommand call'.args) = b.words t)
    (hstep : (parse yaml (calls ++ [call])).steps.getLast? = some step)
    (hstep' : (parse yaml (calls' ++ [call'])).steps.getLast? = some step') :
    ((∀ p : Pattern, p.kind = "resource_pattern" ∨ p.kind = "resource_intent" →
        patternMatchesStep u p step = patternMatchesStep u p step') ↔
      ReadAlike a b t ∧ WordedAlike a b) ∧
    ((∀ p : Pattern, p.kind = "resource_pattern" →
        patternMatchesStep u p step = patternMatchesStep u p step') ↔ ReadAlike a b t) := by
  have ha := spells_of_parse hstep htool hwords
  have hb := spells_of_parse hstep' htool' hwords'
  have hread : (a.resource t = b.resource t ∧
      (a.namespaceText t).toList.map u.fold = (b.namespaceText t).toList.map u.fold) ↔
      ReadAlike a b t := by
    constructor
    · exact fun h => ⟨h.1, namespaceText_eq_of_fold hu h.2⟩
    · exact fun h => ⟨h.resource, by rw [h.namespaceText]⟩
  have hpattern {p : Pattern} (hp : p.kind = "resource_pattern") (s : TimelineStep) :
      patternMatchesStep u p s = resourcePatternMatches u p.pattern s := by
    simp [patternMatchesStep, hp]
  have hintent {p : Pattern} (hp : p.kind = "resource_intent") (s : TimelineStep) :
      patternMatchesStep u p s = resourceIntentMatches u p s := by
    simp [patternMatchesStep, hp]
  have hkind (p : Pattern) (s : TimelineStep) :
      resourceIntentMatches u { p with kind := "resource_intent" } s =
        resourceIntentMatches u p s := rfl
  have hpatterns : (∀ p : Pattern, p.kind = "resource_pattern" →
      patternMatchesStep u p step = patternMatchesStep u p step') ↔ ReadAlike a b t := by
    rw [← hread, ← patterns_agree_iff hu ha hb]
    constructor
    · intro h text
      have hthis := h { kind := "resource_pattern", pattern := text } rfl
      rwa [hpattern rfl, hpattern rfl] at hthis
    · intro h p hp
      rw [hpattern hp, hpattern hp, h]
  refine ⟨?_, hpatterns⟩
  constructor
  · intro h
    rw [← hread, ← tokens_eq_iff a b t, ← intents_agree_iff hu ha hb]
    intro p
    have hthis := h { p with kind := "resource_intent" } (Or.inr rfl)
    rwa [hintent rfl, hintent rfl, hkind, hkind] at hthis
  · rintro ⟨hr, hw⟩ p (hp | hp)
    · exact hpatterns.mpr hr p hp
    · have hall := (intents_agree_iff hu ha hb).mpr ⟨hread.mpr hr, (tokens_eq_iff a b t).mpr hw⟩
      rw [hintent hp, hintent hp, hall]

end runs

/-! ### Deleting a pod -/

def asciiCase : Case where
  lower := Char.toLower
  fold := Char.toLower

theorem asciiCase_ascii : asciiCase.Ascii where
  lower := fun _ _ => rfl
  fold := fun c hc => by
    have hall : ∀ n, n < 128 → (Char.ofNat n).toLower.toLower = (Char.ofNat n).toLower := by
      decide +kernel
    have hthis := hall c.toNat hc
    rwa [Char.ofNat_toNat] at hthis
  dash := fun c hc => by
    by_cases hascii : c.toNat < 128
    · have hall : ∀ n, n < 128 → (Char.ofNat n).toLower = '-' → Char.ofNat n = '-' := by
        decide +kernel
      have hthis := hall c.toNat hascii
      rw [Char.ofNat_toNat] at hthis
      exact hthis hc
    · -- only ASCII letters have another lower case
      have hsame : c.toLower = c := by
        unfold Char.toLower
        refine dif_neg fun h => hascii ?_
        have hle : c.val.toNat ≤ 90 := h.2
        exact Nat.lt_of_le_of_lt hle (by decide)
      exact hsame.symm.trans hc

/-- Deleting the pod `web` in the namespace `bench`. -/
def deleteWeb : Target where
  verb := ⟨"delete", by decide⟩
  more := []
  name := ⟨"web", by decide⟩
  ns := ⟨"bench", by decide⟩
  verb_ne_in := by decide

def podSpelling (shape : Shape) (flag : Flag) : Spelling where
  kind := ⟨"pod", by decide⟩
  shape := shape
  flag := flag
  kind_ne_in := by decide

/-- The call of a command, for the commands below. -/
def callOf (command : String) : ToolCall :=
  runCommand ("\x7b\"command\":\"" ++ command ++ "\"\x7d")

theorem getLast_parse_mutation (call : ToolCall) (htool : call.tool = "run_command")
    (hmut : isMutationCall call = true) :
    (parse noManifest ([] ++ [call])).steps.getLast? = some (commandStep 0 call .act) := by
  simp [parse, Progress.run, Progress.advance, htool, hmut, Timeline.add]

/-- A pod that is named with a slash is read alike wherever the flag stands. -/
theorem spellings_agree_iff_slash :
    fields (extractCommand (callOf "kubectl delete -n bench pod/web").args) =
        (podSpelling .slashBefore .short).words deleteWeb ∧
      fields (extractCommand (callOf "kubectl delete pod/web --namespace=bench").args) =
        (podSpelling .slashAfter .longEq).words deleteWeb ∧
      ∀ p : Pattern, p.kind = "resource_pattern" →
        patternMatchesStep asciiCase p
            (commandStep 0 (callOf "kubectl delete -n bench pod/web") .act) =
          patternMatchesStep asciiCase p
            (commandStep 0 (callOf "kubectl delete pod/web --namespace=bench") .act) := by
  have hwords : fields (extractCommand (callOf "kubectl delete -n bench pod/web").args) =
      (podSpelling .slashBefore .short).words deleteWeb := by decide +kernel
  have hwords' : fields (extractCommand (callOf "kubectl delete pod/web --namespace=bench").args) =
      (podSpelling .slashAfter .longEq).words deleteWeb := by decide +kernel
  have hstep := getLast_parse_mutation (callOf "kubectl delete -n bench pod/web") rfl
    (by decide +kernel)
  have hstep' := getLast_parse_mutation
    (callOf "kubectl delete pod/web --namespace=bench") rfl (by decide +kernel)
  exact ⟨hwords, hwords', (spellings_agree_iff asciiCase_ascii deleteWeb _ _ rfl rfl hwords hwords'
    hstep hstep').2.mpr ⟨rfl, rfl⟩⟩

def podPattern : Pattern where
  kind := "resource_pattern"
  pattern := "Pod/web in bench"

/-- **A hint misses spellings.** The hint matches the pod with a slash. It does not match the kind
and the name as words, nor the namespace behind `-n=`.
Source: `resourcePatternMatches` -/
theorem words_miss_pattern :
    (fields (extractCommand (callOf "kubectl delete pod/web -n bench").args) =
        (podSpelling .slashAfter .short).words deleteWeb ∧
      (parse noManifest [callOf "kubectl delete pod/web -n bench"]).steps.map
        (patternMatchesStep asciiCase podPattern) = [true]) ∧
    (fields (extractCommand (callOf "kubectl delete pod web -n bench").args) =
        (podSpelling .wordsAfter .short).words deleteWeb ∧
      (parse noManifest [callOf "kubectl delete pod web -n bench"]).steps.map
        (patternMatchesStep asciiCase podPattern) = [false]) ∧
    (fields (extractCommand (callOf "kubectl delete pod/web -n=bench").args) =
        (podSpelling .slashAfter .shortEq).words deleteWeb ∧
      (parse noManifest [callOf "kubectl delete pod/web -n=bench"]).steps.map
        (patternMatchesStep asciiCase podPattern) = [false]) := by
  refine ⟨⟨?_, ?_⟩, ⟨?_, ?_⟩, ⟨?_, ?_⟩⟩
  all_goals decide +kernel

end EvidraBench.Autopsy
