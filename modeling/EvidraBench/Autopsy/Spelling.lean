import EvidraBench.Autopsy.Matching
import EvidraBench.Gostd.Words

/-!
# How a resource and its namespace are spelled

`pkg/autopsy/autopsy.go` matches a step against hints by the resource and the namespace that the
step acted on. Both are taken from the words of the command, which kubectl lets one spell in many
ways: `kind/name` or `kind name`, and four forms of the namespace flag at any place.

Results: `tokenizeWords_spelling`, `stepResourceIdentity_spelled`.

Source: `pkg/bench/timeline_parse.go`
-/

namespace EvidraBench.Autopsy

open EvidraBench.Gostd EvidraBench.Bench

/-! ### Words -/

/-- The characters of verbs, kinds, names and namespaces. -/
def isWordChar (c : Char) : Bool := c.isAlphanum || ['-', '.', '_', ':'].contains c

def isWord (s : String) : Bool :=
  s.toList.all isWordChar && s.toList.head?.any (· != '-')

/-- A verb, a kind, a name or a namespace, as it is typed. -/
structure Word where
  text : String
  valid : isWord text = true
deriving DecidableEq

namespace Word

theorem isWordChar_of_mem (w : Word) {c : Char} (h : c ∈ w.text.toList) : isWordChar c = true := by
  have hall := (Bool.and_eq_true_iff.mp w.valid).1
  exact List.all_eq_true.mp hall c h

theorem not_mem (w : Word) {c : Char} (hc : isWordChar c = false) : c ∉ w.text.toList := by
  intro hmem
  rw [w.isWordChar_of_mem hmem] at hc
  cases hc

theorem exists_cons (w : Word) : ∃ c rest, w.text.toList = c :: rest ∧ c ≠ '-' := by
  have hhead := (Bool.and_eq_true_iff.mp w.valid).2
  cases htext : w.text.toList with
  | nil => simp [htext] at hhead
  | cons c rest => exact ⟨c, rest, rfl, by simpa [htext] using hhead⟩

theorem ne_empty (w : Word) : w.text ≠ "" := by
  obtain ⟨c, rest, htext, -⟩ := w.exists_cons
  intro hempty
  rw [hempty] at htext
  cases htext

theorem hasPrefix_dash (w : Word) : hasPrefix w.text "-" = false := by
  obtain ⟨c, rest, htext, hc⟩ := w.exists_cons
  have hdash : "-".toList = ['-'] := rfl
  rw [hasPrefix, htext, hdash]
  simp [List.isPrefixOf, Ne.symm hc]

end Word

theorem forall_wordChar {P : Char → Prop}
    (h : ∀ n, n < 128 → isWordChar (Char.ofNat n) = true → P (Char.ofNat n)) {c : Char}
    (hc : isWordChar c = true) : P c := by
  have hascii : c.toNat < 128 := by
    rcases Bool.or_eq_true_iff.mp hc with hc | hc
    · simp only [Char.isAlphanum, Char.isAlpha, Char.isUpper, Char.isLower, Char.isDigit,
        Bool.or_eq_true, Bool.and_eq_true, decide_eq_true_eq, UInt32.le_iff_toNat_le,
        ge_iff_le] at hc
      have hval : c.toNat = c.val.toNat := rfl
      have hZ : 'Z'.val.toNat = 90 := rfl
      have hz : 'z'.val.toNat = 122 := rfl
      have h9 : '9'.val.toNat = 57 := rfl
      omega
    · simp only [List.contains_iff_mem, List.mem_cons, List.not_mem_nil, or_false] at hc
      rcases hc with rfl | rfl | rfl | rfl
      all_goals decide
  have hP := h c.toNat hascii
  rw [Char.ofNat_toNat] at hP
  exact hP hc

/-- A character of words is ASCII and no white space, and its lower case is a character of words
with the same lower case; only a dash has a dash for its lower case. -/
theorem wordChar_facts {c : Char} (hc : isWordChar c = true) :
    c.toNat < 128 ∧ isSpace c = false ∧ isWordChar c.toLower = true ∧
      c.toLower.toLower = c.toLower ∧ (c.toLower = '-' → c = '-') :=
  forall_wordChar (P := fun c => c.toNat < 128 ∧ isSpace c = false ∧ isWordChar c.toLower = true ∧
    c.toLower.toLower = c.toLower ∧ (c.toLower = '-' → c = '-')) (by decide +kernel) hc

/-- What is used of Unicode's case mappings: on ASCII characters they are the ASCII ones, and
nothing else folds to a dash.
Source: Go `unicode.ToLower`, `unicode.SimpleFold` -/
structure Case.Ascii (u : Case) : Prop where
  lower : ∀ c : Char, c.toNat < 128 → u.lower c = c.toLower
  fold : ∀ c : Char, c.toNat < 128 → u.fold c.toLower = u.fold c
  dash : ∀ c, u.fold c = u.fold '-' → c = '-'

namespace Word

theorem isSpace_of_mem (w : Word) {c : Char} (h : c ∈ w.text.toList) : isSpace c = false :=
  (wordChar_facts (w.isWordChar_of_mem h)).2.1

def lower (w : Word) : Word where
  text := String.ofList (w.text.toList.map Char.toLower)
  valid := by
    obtain ⟨c, rest, htext, hc⟩ := w.exists_cons
    have hword := fun d hd => wordChar_facts (w.isWordChar_of_mem (c := d) hd)
    refine Bool.and_eq_true_iff.mpr ⟨List.all_eq_true.mpr fun d hd => ?_, ?_⟩
    · rw [String.toList_ofList] at hd
      obtain ⟨e, he, rfl⟩ := List.mem_map.mp hd
      exact (hword e he).2.2.1
    · have hdash := (hword c (by simp [htext])).2.2.2.2
      simpa [htext] using fun h => hc (hdash h)

theorem toLower_text {u : Case} (hu : u.Ascii) (w : Word) : u.toLower w.text = w.lower.text := by
  have hmap : w.text.toList.map u.lower = w.text.toList.map Char.toLower :=
    List.map_congr_left fun c hc => hu.lower c (wordChar_facts (w.isWordChar_of_mem hc)).1
  rw [Case.toLower, hmap]
  rfl

theorem lower_lower (w : Word) : w.lower.lower.text = w.lower.text := by
  have hmap : (w.text.toList.map Char.toLower).map Char.toLower =
      w.text.toList.map Char.toLower := by
    rw [List.map_map]
    exact List.map_congr_left fun c hc => (wordChar_facts (w.isWordChar_of_mem hc)).2.2.2.1
  simp only [lower, String.toList_ofList, hmap]

theorem fold_lower {u : Case} (hu : u.Ascii) (w : Word) :
    w.lower.text.toList.map u.fold = w.text.toList.map u.fold := by
  rw [lower, String.toList_ofList, List.map_map]
  exact List.map_congr_left fun c hc => hu.fold c (wordChar_facts (w.isWordChar_of_mem hc)).1

end Word

theorem Word.unspaced (w : Word) : Unspaced w.text := by
  obtain ⟨c, rest, htext, -⟩ := w.exists_cons
  refine ⟨by rw [htext]; exact List.cons_ne_nil c rest, List.all_eq_true.mpr fun d hd => ?_⟩
  rw [w.isSpace_of_mem hd]
  rfl

/-! ### Spellings -/

/-- The forms of the namespace flag: `-n ns`, `--namespace ns`, `-n=ns`, `--namespace=ns`. -/
inductive Flag
  | short
  | long
  | shortEq
  | longEq
deriving DecidableEq

def Flag.separate : Flag → Bool
  | .short | .long => true
  | .shortEq | .longEq => false

def Flag.words (ns : String) : Flag → List String
  | .short => ["-n", ns]
  | .long => ["--namespace", ns]
  | .shortEq => ["-n=" ++ ns]
  | .longEq => ["--namespace=" ++ ns]

/-- Where the flag stands, before or after `kind/name`, or before, between or after `kind name`. -/
inductive Shape
  | slashBefore
  | slashAfter
  | wordsBefore
  | wordsBetween
  | wordsAfter
deriving DecidableEq

def Shape.slash : Shape → Bool
  | .slashBefore | .slashAfter => true
  | .wordsBefore | .wordsBetween | .wordsAfter => false

def Shape.args (flag : List String) (kind name : String) : Shape → List String
  | .slashBefore => flag ++ [kind ++ "/" ++ name]
  | .slashAfter => (kind ++ "/" ++ name) :: flag
  | .wordsBefore => flag ++ [kind, name]
  | .wordsBetween => kind :: (flag ++ [name])
  | .wordsAfter => kind :: name :: flag

/-- What a command acts on, and its verb, which may have more words than one (`rollout restart`).
No verb is the word `in`. -/
structure Target where
  verb : Word
  more : List Word
  name : Word
  ns : Word
  verb_ne_in : ∀ w ∈ verb :: more, w.lower.text ≠ "in"

/-- How it is spelled. No kind is the word `in`. -/
structure Spelling where
  kind : Word
  shape : Shape
  flag : Flag
  kind_ne_in : kind.lower.text ≠ "in"

def Spelling.words (a : Spelling) (t : Target) : List String :=
  "kubectl" :: ((t.verb :: t.more).map Word.text ++
    a.shape.args (a.flag.words t.ns.text) a.kind.text t.name.text)

def Flag.tokens (ns : String) : Flag → List String
  | .short | .long | .longEq => ["-n", ns]
  | .shortEq => ["-n=" ++ ns]

def Spelling.tokens (a : Spelling) (t : Target) : List String :=
  "kubectl" :: ((t.verb :: t.more).map (fun w => w.lower.text) ++
    a.shape.args (a.flag.tokens t.ns.lower.text) a.kind.lower.text t.name.lower.text)

/-! ### Tokens -/

section tokens

variable {u : Case}

theorem toLower_append (s t : String) : u.toLower (s ++ t) = u.toLower s ++ u.toLower t := by
  simp [Case.toLower, String.ofList_append]

theorem toLower_literal (hu : u.Ascii) {s : String}
    (h : (s.toList.all fun c => decide (c.toNat < 128) && c.toLower == c) = true) :
    u.toLower s = s := by
  have hmap : s.toList.map u.lower = s.toList := by
    nth_rewrite 2 [← List.map_id s.toList]
    refine List.map_congr_left fun c hc => ?_
    obtain ⟨hascii, hlower⟩ := Bool.and_eq_true_iff.mp (List.all_eq_true.mp h c hc)
    rw [hu.lower c (of_decide_eq_true hascii), beq_iff_eq.mp hlower, id]
  rw [Case.toLower, hmap, String.ofList_toList]

theorem tokenizeWords_cons {word : String} (h : hasPrefix (u.toLower word) "--" = false)
    (rest : List String) :
    tokenizeWords u (word :: rest) = u.toLower word :: tokenizeWords u rest := by
  have hlong : u.toLower word ≠ "--namespace" := by
    intro heq
    rw [heq] at h
    exact absurd h (by decide)
  have hlongEq : hasPrefix (u.toLower word) "--namespace=" = false := by
    by_contra hpre
    have hdashes : "--".toList <+: "--namespace=".toList := by decide
    have hall := hdashes.trans (List.isPrefixOf_iff_prefix.mp (Bool.not_eq_false _ ▸ hpre))
    rw [hasPrefix, List.isPrefixOf_iff_prefix.mpr hall] at h
    cases h
  cases rest with
  | nil => simp [tokenizeWords, hlong, hlongEq]
  | cons next rest => simp [tokenizeWords, hlong, hlongEq]

theorem hasPrefix_dashes_of_dash {s : String} (h : hasPrefix s "-" = false) :
    hasPrefix s "--" = false := by
  by_contra hpre
  have hdash : "-".toList <+: "--".toList := by decide
  have hall := hdash.trans (List.isPrefixOf_iff_prefix.mp (Bool.not_eq_false _ ▸ hpre))
  rw [hasPrefix, List.isPrefixOf_iff_prefix.mpr hall] at h
  cases h

theorem tokenizeWords_word (hu : u.Ascii) (w : Word) (rest : List String) :
    tokenizeWords u (w.text :: rest) = w.lower.text :: tokenizeWords u rest := by
  have hlower := w.toLower_text hu
  rw [tokenizeWords_cons (by rw [hlower]; exact hasPrefix_dashes_of_dash w.lower.hasPrefix_dash),
    hlower]

theorem tokenizeWords_words (hu : u.Ascii) (ws : List Word) (rest : List String) :
    tokenizeWords u (ws.map Word.text ++ rest) =
      ws.map (fun w => w.lower.text) ++ tokenizeWords u rest := by
  induction ws with
  | nil => rfl
  | cons w ws ih => rw [List.map_cons, List.cons_append, tokenizeWords_word hu, ih]; rfl

theorem hasPrefix_append_left (w : Word) (s : String) : hasPrefix (w.text ++ s) "-" = false := by
  obtain ⟨c, rest, htext, hc⟩ := w.exists_cons
  have hdash : "-".toList = ['-'] := rfl
  rw [hasPrefix, String.toList_append, htext, hdash]
  simp [List.isPrefixOf, Ne.symm hc]

theorem tokenizeWords_slash (hu : u.Ascii) (k n : Word) (rest : List String) :
    tokenizeWords u ((k.text ++ "/" ++ n.text) :: rest) =
      (k.lower.text ++ "/" ++ n.lower.text) :: tokenizeWords u rest := by
  have hslash : u.toLower "/" = "/" := toLower_literal hu (by decide)
  have hlower : u.toLower (k.text ++ "/" ++ n.text) = k.lower.text ++ "/" ++ n.lower.text := by
    rw [toLower_append, toLower_append, hslash, k.toLower_text hu, n.toLower_text hu]
  rw [tokenizeWords_cons, hlower]
  rw [hlower, String.append_assoc]
  exact hasPrefix_dashes_of_dash (hasPrefix_append_left k.lower _)

theorem tokenizeWords_flag (hu : u.Ascii) (flag : Flag) (ns : Word) (rest : List String) :
    tokenizeWords u (flag.words ns.text ++ rest) =
      flag.tokens ns.lower.text ++ tokenizeWords u rest := by
  have hshort : u.toLower "-n" = "-n" := toLower_literal hu (by decide)
  have hlong : u.toLower "--namespace" = "--namespace" := toLower_literal hu (by decide)
  have hns := ns.toLower_text hu
  cases flag with
  | short =>
    have hdash : hasPrefix (u.toLower "-n") "--" = false := by
      rw [hshort]
      decide
    simp only [Flag.words, Flag.tokens, List.cons_append, List.nil_append]
    rw [tokenizeWords_cons hdash, tokenizeWords_word hu, hshort]
  | long => simp [Flag.words, Flag.tokens, tokenizeWords, hlong, hns]
  | shortEq =>
    have hlower : u.toLower ("-n=" ++ ns.text) = "-n=" ++ ns.lower.text := by
      rw [toLower_append, hns, toLower_literal hu (s := "-n=") (by decide)]
    have hdash : hasPrefix ("-n=" ++ ns.lower.text) "--" = false := by
      have htext : "-n=".toList = ['-', 'n', '='] := rfl
      have hdashes : "--".toList = ['-', '-'] := rfl
      rw [hasPrefix, String.toList_append, htext, hdashes]
      rfl
    simp only [Flag.words, Flag.tokens, List.cons_append, List.nil_append]
    rw [tokenizeWords_cons (by rw [hlower]; exact hdash), hlower]
  | longEq =>
    have hlower : u.toLower ("--namespace=" ++ ns.text) = "--namespace=" ++ ns.lower.text := by
      rw [toLower_append, hns, toLower_literal hu (s := "--namespace=") (by decide)]
    have hpre : hasPrefix ("--namespace=" ++ ns.lower.text) "--namespace=" = true := by
      rw [hasPrefix, String.toList_append, List.isPrefixOf_iff_prefix]
      exact List.prefix_append _ _
    have htrim : trimPrefix ("--namespace=" ++ ns.lower.text) "--namespace=" = ns.lower.text := by
      rw [trimPrefix, if_pos hpre, String.toList_append, List.drop_left, String.ofList_toList]
    have hne : "--namespace=" ++ ns.lower.text ≠ "--namespace" := by
      intro heq
      have hlen := congrArg (fun s => s.toList.length) heq
      simp only [String.toList_append, List.length_append] at hlen
      have h12 : "--namespace=".toList.length = 12 := rfl
      have h11 : "--namespace".toList.length = 11 := rfl
      omega
    simp only [Flag.words, Flag.tokens, List.cons_append, List.nil_append]
    cases rest with
    | nil => simp [tokenizeWords, hlower, hne, hpre, htrim]
    | cons next rest => simp [tokenizeWords, hlower, hne, hpre, htrim]

theorem tokenizeWords_spelling (hu : u.Ascii) (a : Spelling) (t : Target) :
    tokenizeWords u (a.words t) = a.tokens t := by
  have hkubectl : u.toLower "kubectl" = "kubectl" := toLower_literal hu (by decide)
  have hdash : hasPrefix (u.toLower "kubectl") "--" = false := by
    rw [hkubectl]
    decide
  have hflag := tokenizeWords_flag hu a.flag t.ns []
  have hnil : tokenizeWords u [] = [] := rfl
  rw [List.append_nil, hnil, List.append_nil] at hflag
  rw [Spelling.words, Spelling.tokens, tokenizeWords_cons hdash, hkubectl, tokenizeWords_words hu]
  cases a.shape with
  | slashBefore => simp only [Shape.args, tokenizeWords_flag hu, tokenizeWords_slash hu, hnil]
  | slashAfter => simp only [Shape.args, hflag, tokenizeWords_slash hu]
  | wordsBefore => simp only [Shape.args, tokenizeWords_flag hu, tokenizeWords_word hu, hnil]
  | wordsBetween => simp only [Shape.args, tokenizeWords_flag hu, tokenizeWords_word hu, hnil]
  | wordsAfter => simp only [Shape.args, hflag, tokenizeWords_word hu]

end tokens

/-! ### What is read -/

def canonicalKind (w : Word) : String :=
  (resourceKindAliases.lookup w.lower.text).getD w.lower.text

theorem canonicalKind_cases (w : Word) :
    (resourceKindAliases.lookup w.lower.text = none ∧ canonicalKind w = w.lower.text) ∨
      ∃ p ∈ resourceKindAliases, canonicalKind w = p.2 := by
  cases h : resourceKindAliases.lookup w.lower.text with
  | none => exact Or.inl ⟨rfl, by rw [canonicalKind, h, Option.getD_none]⟩
  | some kind =>
    obtain ⟨before, after, htable, -⟩ := List.lookup_eq_some_iff.mp h
    refine Or.inr ⟨(w.lower.text, kind), ?_, by rw [canonicalKind, h, Option.getD_some]⟩
    rw [htable]
    exact List.mem_append_right _ List.mem_cons_self

/-- The word that is taken for the resource where there is no `kind/name`: the second word of the
verb, or else the first word after the verb that does not begin with a dash. -/
def Spelling.resourceWord (a : Spelling) (t : Target) : Word :=
  match t.more with
  | w :: _ => w
  | [] => if a.shape = .wordsBefore ∧ a.flag.separate = true then t.ns else a.kind

def Spelling.resource (a : Spelling) (t : Target) : String :=
  if a.shape.slash then canonicalKind a.kind ++ "/" ++ t.name.lower.text
  else canonicalKind (a.resourceWord t)

/-- Whether the name stands before the flag and is taken for the word that introduces a namespace.
-/
def Spelling.misread (a : Spelling) (t : Target) : Bool :=
  a.shape = .wordsAfter && t.name.lower.text = "in"

def Spelling.namespaceText (a : Spelling) (t : Target) : String :=
  match a.flag with
  | .short | .long => t.ns.text
  | .longEq => if a.misread t then "-n" else t.ns.text
  | .shortEq => if a.misread t then "-n=" ++ t.ns.text else ""

section identity

variable {u : Case}

theorem Word.contains_slash (w : Word) : contains w.text "/" = false := by
  by_contra hslash
  exact w.not_mem (by decide) (contains_char.mp (Bool.not_eq_false _ ▸ hslash))

theorem canonicalResourceToken_word (hu : u.Ascii) (w : Word) :
    canonicalResourceToken u w.lower.text = canonicalKind w := by
  rw [canonicalResourceToken, w.lower.unspaced.trimSpace_eq,
    cut_of_not_mem (w.lower.not_mem (by decide))]
  simp only [w.lower.toLower_text hu, w.lower_lower, canonicalKind]
  rfl

theorem unspaced_slash (k n : Word) : Unspaced (k.text ++ "/" ++ n.text) := by
  have hslash : Unspaced "/" := by decide
  exact n.unspaced.append (hslash.append k.unspaced)

theorem canonicalResourceToken_slash (hu : u.Ascii) (k n : Word) :
    canonicalResourceToken u (k.lower.text ++ "/" ++ n.lower.text) =
      canonicalKind k ++ "/" ++ n.lower.text := by
  have hslash : "/" = String.ofList ['/'] := rfl
  have hcut : cut (k.lower.text ++ "/" ++ n.lower.text) '/' =
      (k.lower.text, n.lower.text, true) := by
    rw [hslash]
    exact cut_append (k.lower.not_mem (by decide))
  rw [canonicalResourceToken, (unspaced_slash k.lower n.lower).trimSpace_eq, hcut]
  simp only [k.lower.toLower_text hu, k.lower_lower, n.lower.toLower_text hu, n.lower_lower,
    canonicalKind]
  rfl

theorem find_named (a : Spelling) (t : Target) :
    ((a.tokens t).find? fun token =>
        !hasPrefix token "-" && !contains token "=" && contains token "/") =
      if a.shape.slash then some (a.kind.lower.text ++ "/" ++ t.name.lower.text) else none := by
  have hword (w : Word) : (!hasPrefix w.text "-" && !contains w.text "=" &&
      contains w.text "/") = false := by
    rw [w.contains_slash, Bool.and_false]
  have hwords (ws : List Word) : ((ws.map fun w => w.lower.text).find? fun token =>
      !hasPrefix token "-" && !contains token "=" && contains token "/") = none := by
    rw [List.find?_eq_none]
    intro token htoken
    obtain ⟨w, -, rfl⟩ := List.mem_map.mp htoken
    rw [hword w.lower]
    exact Bool.false_ne_true
  have hflag : ((a.flag.tokens t.ns.lower.text).find? fun token =>
      !hasPrefix token "-" && !contains token "=" && contains token "/") = none := by
    have heq : hasPrefix ("-n=" ++ t.ns.lower.text) "-" = true := by
      rw [hasPrefix, String.toList_append, List.isPrefixOf_iff_prefix]
      exact List.IsPrefix.trans (by decide) (List.prefix_append "-n=".toList _)
    have hshort : hasPrefix "-n" "-" = true := by decide
    cases a.flag <;> simp [Flag.tokens, heq, hshort, hword]
  have hslash : (!hasPrefix (a.kind.lower.text ++ "/" ++ t.name.lower.text) "-" &&
      !contains (a.kind.lower.text ++ "/" ++ t.name.lower.text) "=" &&
      contains (a.kind.lower.text ++ "/" ++ t.name.lower.text) "/") = true := by
    have hchars : "/".toList = ['/'] := rfl
    have hdash : hasPrefix (a.kind.lower.text ++ "/" ++ t.name.lower.text) "-" = false := by
      rw [String.append_assoc]
      exact hasPrefix_append_left a.kind.lower _
    have heq : contains (a.kind.lower.text ++ "/" ++ t.name.lower.text) "=" = false := by
      by_contra h
      have hmem := contains_char.mp (Bool.not_eq_false _ ▸ h)
      simp only [String.toList_append, hchars, List.mem_append, List.mem_singleton] at hmem
      rcases hmem with (hmem | hmem) | hmem
      · exact a.kind.lower.not_mem (by decide) hmem
      · cases hmem
      · exact t.name.lower.not_mem (by decide) hmem
    have hmem : contains (a.kind.lower.text ++ "/" ++ t.name.lower.text) "/" = true :=
      contains_char.mpr (by simp [hchars])
    rw [hdash, heq, hmem]
    rfl
  rw [Spelling.tokens, List.find?_cons_of_neg (by decide), List.find?_append, hwords,
    Option.none_or]
  cases a.shape with
  | slashBefore => simp [Shape.args, Shape.slash, List.find?_append, hflag, hslash]
  | slashAfter => simp [Shape.args, Shape.slash, hslash]
  | wordsBefore => simp [Shape.args, Shape.slash, List.find?_append, hflag, hword]
  | wordsBetween => simp [Shape.args, Shape.slash, List.find?_append, hflag, hword]
  | wordsAfter => simp [Shape.args, Shape.slash, hflag, hword]

/-! ### The namespace -/

theorem namespaceOf_cons {w : String} (h : w ≠ "-n") (h' : w ≠ "--namespace") (rest : List String) :
    namespaceOf (w :: rest) = namespaceOf rest := by
  cases rest with
  | nil => rfl
  | cons next rest => simp [namespaceOf, h, h']

theorem namespaceToken_cons {token : String} (h : token ≠ "-n") (h' : token ≠ "in")
    (rest : List String) : namespaceToken (token :: rest) = namespaceToken rest := by
  cases rest with
  | nil => rfl
  | cons next rest => simp [namespaceToken, h, h']

theorem ne_of_hasPrefix_dash {s flag : String} (hs : hasPrefix s "-" = false)
    (hflag : hasPrefix flag "-" = true) : s ≠ flag := by
  rintro rfl
  rw [hs] at hflag
  cases hflag

theorem shortEq_ne {ns flag : String} (hflag : hasPrefix flag "-n=" = false) :
    "-n=" ++ ns ≠ flag := by
  rintro rfl
  rw [hasPrefix, String.toList_append,
    List.isPrefixOf_iff_prefix.mpr (List.prefix_append _ _)] at hflag
  cases hflag

theorem longEq_ne {ns flag : String} (hflag : hasPrefix flag "--namespace=" = false) :
    "--namespace=" ++ ns ≠ flag := by
  rintro rfl
  rw [hasPrefix, String.toList_append,
    List.isPrefixOf_iff_prefix.mpr (List.prefix_append _ _)] at hflag
  cases hflag

theorem namespaceOf_words (a : Spelling) (t : Target) :
    namespaceOf (a.words t) = if a.flag.separate then t.ns.text else "" := by
  have hdash : hasPrefix "-n" "-" = true := by decide
  have hlong : hasPrefix "--namespace" "-" = true := by decide
  have hskip {w : String} (hw : hasPrefix w "-" = false) (rest : List String) :
      namespaceOf (w :: rest) = namespaceOf rest :=
    namespaceOf_cons (ne_of_hasPrefix_dash hw hdash) (ne_of_hasPrefix_dash hw hlong) rest
  have hword (w : Word) (rest : List String) : namespaceOf (w.text :: rest) = namespaceOf rest :=
    hskip w.hasPrefix_dash rest
  have hwords (ws : List Word) (rest : List String) :
      namespaceOf (ws.map Word.text ++ rest) = namespaceOf rest := by
    induction ws with
    | nil => rfl
    | cons w ws ih => rw [List.map_cons, List.cons_append, hword, ih]
  have hslash (k n : Word) (rest : List String) :
      namespaceOf ((k.text ++ "/" ++ n.text) :: rest) = namespaceOf rest := by
    rw [String.append_assoc]
    exact hskip (hasPrefix_append_left k _) rest
  have hnil : namespaceOf [] = "" := rfl
  have hflag (rest : List String) (hrest : namespaceOf rest = "") :
      namespaceOf (a.flag.words t.ns.text ++ rest) =
        if a.flag.separate then t.ns.text else "" := by
    cases a.flag with
    | short => simp [Flag.words, Flag.separate, namespaceOf]
    | long => simp [Flag.words, Flag.separate, namespaceOf]
    | shortEq =>
      simp only [Flag.words, Flag.separate, List.cons_append, List.nil_append]
      rw [namespaceOf_cons (shortEq_ne (by decide)) (shortEq_ne (by decide)), hrest]
      rfl
    | longEq =>
      simp only [Flag.words, Flag.separate, List.cons_append, List.nil_append]
      rw [namespaceOf_cons (longEq_ne (by decide)) (longEq_ne (by decide)), hrest]
      rfl
  have hlast := hflag [] hnil
  rw [List.append_nil] at hlast
  rw [Spelling.words, hskip (by decide), hwords]
  cases a.shape with
  | slashBefore => exact hflag _ (by rw [hslash, hnil])
  | slashAfter => rw [Shape.args, hslash, hlast]
  | wordsBefore => exact hflag _ (by rw [hword, hword, hnil])
  | wordsBetween =>
    rw [Shape.args, hword]
    exact hflag _ (by rw [hword, hnil])
  | wordsAfter => rw [Shape.args, hword, hword, hlast]

theorem namespaceToken_args (a : Spelling) (t : Target) :
    namespaceToken (a.tokens t) =
      namespaceToken
        (a.shape.args (a.flag.tokens t.ns.lower.text) a.kind.lower.text t.name.lower.text) := by
  have hdash : hasPrefix "-n" "-" = true := by decide
  have hwords (ws : List Word) (hws : ∀ w ∈ ws, w.lower.text ≠ "in") (rest : List String) :
      namespaceToken (ws.map (fun w => w.lower.text) ++ rest) = namespaceToken rest := by
    induction ws with
    | nil => rfl
    | cons w ws ih =>
      rw [List.map_cons, List.cons_append,
        namespaceToken_cons (ne_of_hasPrefix_dash w.lower.hasPrefix_dash hdash)
          (hws w List.mem_cons_self)]
      exact ih fun v hv => hws v (List.mem_cons_of_mem w hv)
  rw [Spelling.tokens, namespaceToken_cons (by decide) (by decide),
    hwords _ t.verb_ne_in]

theorem namespaceToken_spelling (a : Spelling) (t : Target) :
    namespaceToken (a.tokens t) =
      match a.flag with
      | .short | .long | .longEq => if a.misread t then "-n" else t.ns.lower.text
      | .shortEq => if a.misread t then "-n=" ++ t.ns.lower.text else "" := by
  have hdash : hasPrefix "-n" "-" = true := by decide
  have hkind (rest : List String) :
      namespaceToken (a.kind.lower.text :: rest) = namespaceToken rest :=
    namespaceToken_cons (ne_of_hasPrefix_dash a.kind.lower.hasPrefix_dash hdash) a.kind_ne_in rest
  have hslash (rest : List String) :
      namespaceToken ((a.kind.lower.text ++ "/" ++ t.name.lower.text) :: rest) =
        namespaceToken rest := by
    refine namespaceToken_cons ?_ ?_ rest
    · rw [String.append_assoc]
      exact ne_of_hasPrefix_dash (hasPrefix_append_left a.kind.lower _) hdash
    · intro heq
      have hmem : '/' ∈ "in".toList := by
        rw [← heq, String.toList_append, String.toList_append]
        simp
      exact absurd hmem (by decide)
  have hnone : namespaceToken [] = "" := rfl
  have hone (token : String) : namespaceToken [token] = "" := rfl
  have hshort (rest : List String) :
      namespaceToken ("-n" :: t.ns.lower.text :: rest) = t.ns.lower.text := by
    simp [namespaceToken]
  have hshortEq (rest : List String) :
      namespaceToken (("-n=" ++ t.ns.lower.text) :: rest) = namespaceToken rest :=
    namespaceToken_cons (shortEq_ne (by decide)) (shortEq_ne (by decide)) rest
  have hname (next : String) (rest : List String) :
      namespaceToken (t.name.lower.text :: next :: rest) =
        if t.name.lower.text = "in" then next else namespaceToken (next :: rest) := by
    have hne : t.name.lower.text ≠ "-n" := ne_of_hasPrefix_dash t.name.lower.hasPrefix_dash hdash
    simp [namespaceToken, hne]
  rw [namespaceToken_args]
  cases a.flag <;> cases hshape : a.shape <;>
    simp [Shape.args, Flag.tokens, Spelling.misread, hshape, hkind, hslash, hone, hnone, hshort,
      hshortEq, hname]

/-! ### The resource -/

theorem mem_args {shape : Shape} {flag : List String} {kind name w : String}
    (h : w ∈ shape.args flag kind name) :
    w ∈ flag ∨ w = kind ∨ w = name ∨ w = kind ++ "/" ++ name := by
  cases shape <;> simp only [Shape.args, List.mem_append, List.mem_cons, List.not_mem_nil,
    or_false] at h <;> tauto

theorem unspaced_args (a : Spelling) (t : Target) :
    ∀ w ∈ t.more.map Word.text ++ a.shape.args (a.flag.words t.ns.text) a.kind.text t.name.text,
      Unspaced w := by
  have hflag : ∀ w ∈ a.flag.words t.ns.text, Unspaced w := by
    cases a.flag with
    | short =>
      rw [Flag.words, List.forall_mem_cons, List.forall_mem_singleton]
      exact ⟨by decide, t.ns.unspaced⟩
    | long =>
      rw [Flag.words, List.forall_mem_cons, List.forall_mem_singleton]
      exact ⟨by decide, t.ns.unspaced⟩
    | shortEq => exact List.forall_mem_singleton.mpr (t.ns.unspaced.append (by decide))
    | longEq => exact List.forall_mem_singleton.mpr (t.ns.unspaced.append (by decide))
  intro w hw
  rcases List.mem_append.mp hw with hw | hw
  · obtain ⟨v, -, rfl⟩ := List.mem_map.mp hw
    exact v.unspaced
  · rcases mem_args hw with hw | rfl | rfl | rfl
    · exact hflag w hw
    · exact a.kind.unspaced
    · exact t.name.unspaced
    · exact unspaced_slash a.kind t.name

theorem parseCommand_words {cmd : String} {a : Spelling} {t : Target}
    (h : fields cmd = a.words t) :
    (parseCommand cmd).2.2 =
      join (t.more.map Word.text ++
        a.shape.args (a.flag.words t.ns.text) a.kind.text t.name.text) " " := by
  rw [parseCommand, h]
  rfl

theorem extractResource_words {cmd : String} {a : Spelling} {t : Target}
    (h : fields cmd = a.words t) (hshape : a.shape.slash = false) :
    extractResource (parseCommand cmd).2.2 = (a.resourceWord t).text := by
  have hword (w : Word) (rest : List String) :
      (w.text :: rest).find? (fun w => !hasPrefix w "-") = some w.text :=
    List.find?_cons_of_pos (by rw [w.hasPrefix_dash]; rfl)
  have hskip {w : String} (hw : hasPrefix w "-" = true) (rest : List String) :
      (w :: rest).find? (fun w => !hasPrefix w "-") = rest.find? fun w => !hasPrefix w "-" :=
    List.find?_cons_of_neg (by simp [hw])
  have hjoined {s : String} (hs : hasPrefix s "-" = true) (r : String) :
      hasPrefix (s ++ r) "-" = true := by
    rw [hasPrefix, String.toList_append, List.isPrefixOf_iff_prefix]
    exact (List.isPrefixOf_iff_prefix.mp hs).trans (List.prefix_append _ _)
  rw [extractResource, parseCommand_words h, fields_join (unspaced_args a t)]
  unfold Spelling.resourceWord
  cases t.more with
  | cons w more => rw [List.map_cons, List.cons_append, hword, Option.getD_some]
  | nil =>
    rw [List.map_nil, List.nil_append]
    cases hs : a.shape with
    | slashBefore => simp [hs, Shape.slash] at hshape
    | slashAfter => simp [hs, Shape.slash] at hshape
    | wordsBefore =>
      cases a.flag with
      | short =>
        simp only [Shape.args, Flag.words, List.cons_append, List.nil_append]
        rw [hskip (by decide), hword]
        rfl
      | long =>
        simp only [Shape.args, Flag.words, List.cons_append, List.nil_append]
        rw [hskip (by decide), hword]
        rfl
      | shortEq =>
        simp only [Shape.args, Flag.words, List.cons_append, List.nil_append]
        rw [hskip (hjoined (by decide) _), hword]
        rfl
      | longEq =>
        simp only [Shape.args, Flag.words, List.cons_append, List.nil_append]
        rw [hskip (hjoined (by decide) _), hword]
        rfl
    | wordsBetween =>
      rw [Shape.args, hword]
      rfl
    | wordsAfter =>
      rw [Shape.args, hword]
      rfl

/-- The resource and the namespace of a step are read off its command.
Source: `Parse` -/
structure Spells (step : TimelineStep) (a : Spelling) (t : Target) : Prop where
  words : fields step.command = a.words t
  resource : step.resource = extractResource (parseCommand step.command).2.2
  namespace_ : step.namespace_ = extractNamespace step.command

/-- **What is read off a step.** The namespace is compared up to letter case only. -/
theorem stepResourceIdentity_spelled (hu : u.Ascii) {step : TimelineStep} {a : Spelling}
    {t : Target} (h : Spells step a t) :
    (stepResourceIdentity u step).1 = a.resource t ∧
      (stepResourceIdentity u step).2.toList.map u.fold =
        (a.namespaceText t).toList.map u.fold := by
  have htokens : tokenizeCommand u step.command = a.tokens t := by
    rw [tokenizeCommand, h.words, tokenizeWords_spelling hu]
  constructor
  · simp only [stepResourceIdentity, htokens, find_named]
    unfold Spelling.resource
    cases hshape : a.shape.slash with
    | true =>
      have hne : canonicalKind a.kind ++ "/" ++ t.name.lower.text ≠ "" := by
        simp
      simp [canonicalResourceToken_slash hu, hne]
    | false =>
      have hword : step.resource = (a.resourceWord t).text := by
        rw [h.resource, extractResource_words h.words hshape]
      have hcut : (cutAt (a.resourceWord t).lower.text " in ").1 =
          (a.resourceWord t).lower.text := by
        rw [cutAt, cutChars_of_not_mem (c := ' ') (by decide)
          ((a.resourceWord t).lower.not_mem (by decide))]
      simp [hword, (a.resourceWord t).ne_empty, (a.resourceWord t).toLower_text hu, hcut,
        canonicalResourceToken_word hu]
  · have hread : step.namespace_ = if a.flag.separate then t.ns.text else "" := by
      rw [h.namespace_, extractNamespace, h.words, namespaceOf_words]
    simp only [stepResourceIdentity, htokens, hread, namespaceToken_spelling]
    unfold Spelling.namespaceText
    have hns := t.ns.fold_lower hu
    cases a.flag with
    | short => simp [Flag.separate, t.ns.ne_empty]
    | long => simp [Flag.separate, t.ns.ne_empty]
    | shortEq => cases a.misread t <;> simp [Flag.separate, hns]
    | longEq => cases a.misread t <;> simp [Flag.separate, hns]

end identity

end EvidraBench.Autopsy
