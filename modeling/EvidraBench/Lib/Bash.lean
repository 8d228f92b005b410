import Mathlib

/-!
# The words bash reads

The lexical part of `bash -c`: single and double quotes, backslash, ANSI-C quoting, comments, and
the separators newline, `;`, `&` and `|` (so `&&` and `||` are two separators with nothing between
them). Expansions, redirections and compound commands are not interpreted; the opening of a
substitution is only recorded.

The lexer carries a watcher, any state that is moved along by the characters of the text. A
`program` token is the first word of a simple command, after quote removal, with the watcher's state
at the separator in front of the command. `started` are the programs of the complete lines: bash
reads a line before it runs it, and runs nothing of a line that ends inside a quote.
-/

namespace EvidraBench.Lib.Bash

/-! ### ANSI-C quoting -/

def ansiLetter (c : Char) : Option Char :=
  if c = 'n' then some '\n'
  else if c = 't' then some '\t'
  else if c = 'r' then some '\r'
  else if c = 'a' then some (Char.ofNat 7)
  else if c = 'b' then some (Char.ofNat 8)
  else if c = 'v' then some (Char.ofNat 11)
  else if c = 'f' then some (Char.ofNat 12)
  else if c = 'e' || c = 'E' then some (Char.ofNat 27)
  else if c = '\\' || c = '\'' || c = '"' || c = '?' then some c
  else none

def digitIn (base : Nat) (c : Char) : Option Nat :=
  let v :=
    if '0' ≤ c && c ≤ '9' then c.toNat - '0'.toNat
    else if 'a' ≤ c && c ≤ 'f' then c.toNat - 'a'.toNat + 10
    else if 'A' ≤ c && c ≤ 'F' then c.toNat - 'A'.toNat + 10
    else base
  if v < base then some v else none

/-- Where a reading of ANSI-C text stands: in text, after a backslash, before a control letter, or
in a number with so many digits to come; `raw` is what the number was written as so far. -/
inductive Ansi where
  | text
  | escape
  | control
  | number (base left : Nat) (value : Option Nat) (raw : List Char)

/-- The character of a number: an octal number is a byte, and what is no character is replaced. -/
def ansiChar (base v : Nat) : Char :=
  let v := if base = 8 then v % 256 else v
  if v.isValidChar then Char.ofNat v else Char.ofNat 0xFFFD

/-- The text of a finished escape; a number without digits stands for itself. -/
def Ansi.pending : Ansi → List Char
  | .text => []
  | .escape => ['\\']
  | .control => ['\\', 'c']
  | .number base _ (some v) _ => [ansiChar base v]
  | .number _ _ none raw => raw

/-- The number that a letter after a backslash opens. -/
def ansiNumber (c : Char) : Option Ansi :=
  if c = 'x' then some (.number 16 2 none ['\\', 'x'])
  else if c = 'u' then some (.number 16 4 none ['\\', 'u'])
  else if c = 'U' then some (.number 16 8 none ['\\', 'U'])
  else if c = 'c' then some .control
  else (digitIn 8 c).map fun v => .number 8 2 (some v) ['\\', c]

def decodeAnsi : Ansi → List Char → List Char
  | a, [] => if a.pending = ['\x00'] then [] else a.pending
  | .text, c :: cs => if c = '\\' then decodeAnsi .escape cs else c :: decodeAnsi .text cs
  | .escape, c :: cs =>
      match ansiLetter c, ansiNumber c with
      | some x, _ => x :: decodeAnsi .text cs
      | none, some a => decodeAnsi a cs
      | none, none => '\\' :: c :: decodeAnsi .text cs
  | .control, c :: cs => Char.ofNat (c.toNat % 32) :: decodeAnsi .text cs
  | .number base left value raw, c :: cs =>
      match left, digitIn base c with
      | left + 1, some d =>
          decodeAnsi (.number base left (some (value.getD 0 * base + d)) (raw ++ [c])) cs
      | _, _ =>
          let pending := (Ansi.number base left value raw).pending
          if pending = ['\x00'] then []
          else pending ++ if c = '\\' then decodeAnsi .escape cs else c :: decodeAnsi .text cs

/-! ### Tokens -/

variable {σ : Type}

inductive Token (σ : Type) where
  /-- The first word of a simple command. -/
  | program (before : σ) (word : List Char)
  /-- The end of a line. -/
  | newline
  /-- The text ends inside a quote. -/
  | unterminated
  /-- A quote or a backslash in a comment, or an escaped quote in ANSI-C text: it quotes nothing. -/
  | inert
  /-- A command or process substitution is opened. -/
  | substitution

inductive Mode where
  | plain
  | escaped
  | single
  | double
  | doubleEscaped
  | dollar
  | ansi (raw : List Char)
  | ansiEscaped (raw : List Char)
  | comment

/-- Where in a command the lexer is: before the first word, in it, or behind it. -/
inductive Phase (σ : Type) where
  | start (before : σ)
  | first (before : σ) (word : List Char)
  | later (inWord : Bool)

namespace Phase

def atWordStart : Phase σ → Bool
  | start _ => true
  | first _ _ => false
  | later inWord => !inWord

/-- Text that belongs to a word, which it opens if there is none. -/
def append (text : List Char) : Phase σ → Phase σ
  | start before => first before text
  | first before word => first before (word ++ text)
  | later _ => later true

def endWord : Phase σ → Phase σ
  | start before => start before
  | first _ _ => later false
  | later _ => later false

/-- The program that becomes known when the word ends. -/
def program : Phase σ → List (Token σ)
  | first before word => [.program before word]
  | _ => []

end Phase

/-! ### The lexer -/

/-- Whether a character, seen with the one behind it, opens a substitution. -/
def opensSubstitution (quoted : Bool) (c : Char) (next : Option Char) : Bool :=
  c == Char.ofNat 0x60 || (c == '$' && next == some '(') ||
    (!quoted && (c == '<' || c == '>') && next == some '(')

def substitutionAt (quoted : Bool) (c : Char) (next : Option Char) : List (Token σ) :=
  if opensSubstitution quoted c next then [.substitution] else []

def isSeparator (c : Char) : Bool := c == '\n' || c == ';' || c == '&' || c == '|'

def isBlank (c : Char) : Bool := c == ' ' || c == '\t'

def plainStep (seen : σ) (next : Option Char) (p : Phase σ) (c : Char) :
    List (Token σ) × Mode × Phase σ :=
  if c = '\\' then ([], .escaped, p)
  else if c = '\'' then ([], .single, p.append [])
  else if c = '"' then ([], .double, p.append [])
  else if c = '$' && next = some '\'' then ([], .dollar, p)
  else if c = '#' && p.atWordStart then ([], .comment, p)
  else if isSeparator c then
    (p.program ++ (if c = '\n' then [.newline] else []), .plain, .start seen)
  else if isBlank c then (p.program, .plain, p.endWord)
  else (substitutionAt false c next, .plain, p.append [c])

/-- What an escaped character in double quotes stands for. -/
def doubleEscape (c : Char) : List Char :=
  if c = '\n' then []
  else if c = '$' || c = Char.ofNat 0x60 || c = '"' || c = '\\' then [c]
  else ['\\', c]

/-- One character. `seen` is the watcher's state in front of it and `next` the character behind
it. -/
def step (seen : σ) (next : Option Char) (m : Mode) (p : Phase σ) (c : Char) :
    List (Token σ) × Mode × Phase σ :=
  match m with
  | .plain => plainStep seen next p c
  -- a backslash joins lines
  | .escaped => ([], .plain, if c = '\n' then p else p.append [c])
  | .single => if c = '\'' then ([], .plain, p) else ([], .single, p.append [c])
  | .double =>
      if c = '"' then ([], .plain, p)
      else if c = '\\' then ([], .doubleEscaped, p)
      else (substitutionAt true c next, .double, p.append [c])
  | .doubleEscaped => ([], .double, p.append (doubleEscape c))
  -- the quote behind the dollar
  | .dollar => ([], .ansi [], p.append [])
  | .ansi raw =>
      if c = '\'' then ([], .plain, p.append (decodeAnsi .text raw.reverse))
      else if c = '\\' then ([], .ansiEscaped (c :: raw), p)
      else ([], .ansi (c :: raw), p)
  | .ansiEscaped raw => (if c = '\'' then [.inert] else [], .ansi (c :: raw), p)
  | .comment =>
      if c = '\n' then ([.newline], .plain, .start seen)
      else (if c = '\'' || c = '"' || c = '\\' then [.inert] else [], .comment, p)

def finish (m : Mode) (p : Phase σ) : List (Token σ) :=
  match m with
  | .plain | .dollar | .comment => p.program
  | .escaped => (p.append ['\\']).program
  | _ => [.unterminated]

def lex (watch : σ → Char → σ) (seen : σ) (m : Mode) (p : Phase σ) : List Char → List (Token σ)
  | [] => finish m p
  | c :: rest =>
      let s := step seen rest.head? m p c
      s.1 ++ lex watch (watch seen c) s.2.1 s.2.2 rest

def tokens (watch : σ → Char → σ) (init : σ) (text : List Char) : List (Token σ) :=
  lex watch init .plain (.start init) text

/-- The programs that are started; `line` are those of the line so far. -/
def startedFrom (line : List (σ × List Char)) : List (Token σ) → List (σ × List Char)
  | [] => line.reverse
  | .program before word :: ts => startedFrom ((before, word) :: line) ts
  | .newline :: ts => line.reverse ++ startedFrom [] ts
  | .unterminated :: _ => []
  | .inert :: ts => startedFrom line ts
  | .substitution :: ts => startedFrom line ts

/-- The programs a text starts, each with what the watcher had seen. -/
def started (watch : σ → Char → σ) (init : σ) (text : List Char) : List (σ × List Char) :=
  startedFrom [] (tokens watch init text)

/-- A character that stands for itself outside of quotes. -/
def isOrdinary (c : Char) : Bool :=
  !isSeparator c && !isBlank c &&
    !(['\\', '\'', '"', '$', '#', '<', '>', Char.ofNat 0x60].contains c)

theorem plainStep_ordinary {c : Char} (h : isOrdinary c = true) (seen : σ) (next : Option Char)
    (p : Phase σ) : plainStep seen next p c = ([], .plain, p.append [c]) := by
  simp only [isOrdinary, List.contains_cons, List.contains_nil, Bool.or_false, Bool.not_or,
    Bool.and_eq_true, Bool.not_eq_true', beq_eq_false_iff_ne] at h
  obtain ⟨⟨hsep, hblank⟩, h₁, h₂, h₃, h₄, h₅, h₆, h₇, h₈⟩ := h
  simp [plainStep, substitutionAt, opensSubstitution, hsep, hblank, h₁, h₂, h₃, h₄, h₅, h₆, h₇, h₈]

theorem plainStep_separator {c : Char} (h : isSeparator c = true) (seen : σ) (next : Option Char)
    (p : Phase σ) : plainStep seen next p c =
      (p.program ++ (if c = '\n' then [.newline] else []), .plain, .start seen) := by
  have hc : ((c = '\n' ∨ c = ';') ∨ c = '&') ∨ c = '|' := by simpa [isSeparator] using h
  rcases hc with ((rfl | rfl) | rfl) | rfl <;> rfl

theorem plainStep_blank {c : Char} (h : isBlank c = true) (seen : σ) (next : Option Char)
    (p : Phase σ) : plainStep seen next p c = (p.program, .plain, p.endWord) := by
  have hc : c = ' ' ∨ c = '\t' := by simpa [isBlank] using h
  rcases hc with rfl | rfl <;> rfl

theorem step_cases (seen : σ) (next : Option Char) (m : Mode) (p : Phase σ) (c : Char) :
    (isSeparator c = true ∧ (m = .plain ∨ m = .comment) ∧
        (step seen next m p c).2 = (.plain, .start seen) ∧
        ∀ b w, .program b w ∈ (step seen next m p c).1 → .program b w ∈ p.program) ∨
      ((∀ b w, .program b w ∉ (step seen next m p c).1) ∧
        ((step seen next m p c).2.2 = p ∨ ∃ t, (step seen next m p c).2.2 = p.append t)) ∨
      ((step seen next m p c).1 = p.program ∧ (step seen next m p c).2.2 = p.endWord) := by
  have hnone : ∀ (quoted : Bool) (b : σ) (w : List Char),
      Token.program b w ∉ substitutionAt quoted c next := by
    intro quoted b w h
    unfold substitutionAt at h
    split_ifs at h <;> simp at h
  cases m with
  | plain =>
      simp only [step, plainStep]
      split_ifs with h₁ h₂ h₃ h₄ h₅ h₆ hn h₇
      · exact Or.inr (Or.inl ⟨by simp, Or.inl rfl⟩)
      · exact Or.inr (Or.inl ⟨by simp, Or.inr ⟨[], rfl⟩⟩)
      · exact Or.inr (Or.inl ⟨by simp, Or.inr ⟨[], rfl⟩⟩)
      · exact Or.inr (Or.inl ⟨by simp, Or.inl rfl⟩)
      · exact Or.inr (Or.inl ⟨by simp, Or.inl rfl⟩)
      · exact Or.inl ⟨h₆, Or.inl trivial, rfl, by simp⟩
      · exact Or.inl ⟨h₆, Or.inl trivial, rfl, by simp⟩
      · exact Or.inr (Or.inr ⟨rfl, rfl⟩)
      · exact Or.inr (Or.inl ⟨hnone false, Or.inr ⟨[c], rfl⟩⟩)
  | escaped =>
      simp only [step]
      split_ifs
      · exact Or.inr (Or.inl ⟨by simp, Or.inl rfl⟩)
      · exact Or.inr (Or.inl ⟨by simp, Or.inr ⟨[c], rfl⟩⟩)
  | single =>
      simp only [step]
      split_ifs
      · exact Or.inr (Or.inl ⟨by simp, Or.inl rfl⟩)
      · exact Or.inr (Or.inl ⟨by simp, Or.inr ⟨[c], rfl⟩⟩)
  | double =>
      simp only [step]
      split_ifs
      · exact Or.inr (Or.inl ⟨by simp, Or.inl rfl⟩)
      · exact Or.inr (Or.inl ⟨by simp, Or.inl rfl⟩)
      · exact Or.inr (Or.inl ⟨hnone true, Or.inr ⟨[c], rfl⟩⟩)
  | doubleEscaped => exact Or.inr (Or.inl ⟨by simp [step], Or.inr ⟨doubleEscape c, rfl⟩⟩)
  | dollar => exact Or.inr (Or.inl ⟨by simp [step], Or.inr ⟨[], rfl⟩⟩)
  | ansi raw =>
      simp only [step]
      split_ifs
      · exact Or.inr (Or.inl ⟨by simp, Or.inr ⟨_, rfl⟩⟩)
      · exact Or.inr (Or.inl ⟨by simp, Or.inl rfl⟩)
      · exact Or.inr (Or.inl ⟨by simp, Or.inl rfl⟩)
  | ansiEscaped raw =>
      refine Or.inr (Or.inl ⟨fun b w => ?_, Or.inl rfl⟩)
      simp only [step]
      split_ifs <;> simp
  | comment =>
      simp only [step]
      split_ifs with hn h
      · exact Or.inl ⟨by simp [isSeparator, hn], Or.inr trivial, rfl, by simp⟩
      · exact Or.inr (Or.inl ⟨by simp, Or.inl rfl⟩)
      · exact Or.inr (Or.inl ⟨by simp, Or.inl rfl⟩)

theorem mem_lex_cons {watch : σ → Char → σ} {seen : σ} {m : Mode} {p : Phase σ} {c : Char}
    {rest : List Char} {t : Token σ} : t ∈ lex watch seen m p (c :: rest) ↔
      t ∈ (step seen rest.head? m p c).1 ∨
        t ∈ lex watch (watch seen c) (step seen rest.head? m p c).2.1
          (step seen rest.head? m p c).2.2 rest := by
  rw [lex, List.mem_append]

end EvidraBench.Lib.Bash
