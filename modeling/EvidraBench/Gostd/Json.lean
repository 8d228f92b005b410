import EvidraBench.Gostd.Strings

/-!
# JSON documents as `encoding/json` reads them

`Doc` is a scanned JSON text: numbers and strings keep their literal, arrays and objects keep the
text they were scanned from, because a Go `json.RawMessage` is that text and a custom
`UnmarshalJSON` is handed the literal, not the decoded string.

Texts are character lists here. A Go scanner walks octets, but an octet above `0x7F` is only legal
inside a string, where the decoder replaces every octet that is not UTF-8 by `U+FFFD`; that is what
`decodeUtf8` did before the text got here.
-/

namespace EvidraBench.Gostd

inductive Doc where
  /-- `null`. -/
  | null
  /-- `true` or `false`. -/
  | bool (b : Bool)
  /-- A number, as its literal. -/
  | num (lit : String)
  /-- A string, as the text between its quotes. -/
  | str (lit : String)
  /-- An array and the text it was scanned from. -/
  | arr (raw : String) (items : List Doc)
  /-- An object (keys unquoted, repeated keys kept) and the text it was scanned from. -/
  | obj (raw : String) (members : List (String × Doc))

namespace Doc

/-! ### Lexemes -/

def isBlank (c : Char) : Bool := c == ' ' || c == '\t' || c == '\r' || c == '\n'

def skipBlanks (s : List Char) : List Char := s.dropWhile isBlank

def hexDigit (c : Char) : Option Nat :=
  if '0' ≤ c && c ≤ '9' then some (c.toNat - '0'.toNat)
  else if 'a' ≤ c && c ≤ 'f' then some (c.toNat - 'a'.toNat + 10)
  else if 'A' ≤ c && c ≤ 'F' then some (c.toNat - 'A'.toNat + 10)
  else none

def hex4 (a b c d : Char) : Option Nat := do
  let a ← hexDigit a
  let b ← hexDigit b
  let c ← hexDigit c
  let d ← hexDigit d
  return ((a * 16 + b) * 16 + c) * 16 + d

/-- The characters that may follow a backslash, apart from `u`. -/
def isEscape (c : Char) : Bool :=
  c == 'b' || c == 'f' || c == 'n' || c == 'r' || c == 't' || c == '\\' || c == '/' || c == '"'

/-- Scan a string after its opening quote: the literal up to the closing quote and what follows
it. Control characters below `0x20` are not allowed in a string. -/
def scanString : List Char → Option (List Char × List Char)
  | [] => none
  | '"' :: rest => some ([], rest)
  | '\\' :: 'u' :: a :: b :: c :: d :: rest =>
      if (hex4 a b c d).isSome then
        (scanString rest).map fun (lit, s) => ('\\' :: 'u' :: a :: b :: c :: d :: lit, s)
      else none
  | '\\' :: e :: rest =>
      if isEscape e then (scanString rest).map fun (lit, s) => ('\\' :: e :: lit, s) else none
  | c :: rest =>
      if c == '\\' || c.toNat < 0x20 then none
      else (scanString rest).map fun (lit, s) => (c :: lit, s)

def scanDigits (s : List Char) : Option (List Char × List Char) :=
  match s.span Char.isDigit with
  | ([], _) => none
  | (ds, rest) => some (ds, rest)

/-- The integer part of a number: `0`, or digits that do not start with `0`. -/
def scanInt : List Char → Option (List Char × List Char)
  | '0' :: rest => some (['0'], rest)
  | s => scanDigits s

def scanFrac : List Char → Option (List Char × List Char)
  | '.' :: rest => (scanDigits rest).map fun (ds, s) => ('.' :: ds, s)
  | s => some ([], s)

def scanExp : List Char → Option (List Char × List Char)
  | c :: rest =>
      if c == 'e' || c == 'E' then
        match rest with
        | '+' :: s => (scanDigits s).map fun (ds, s) => (c :: '+' :: ds, s)
        | '-' :: s => (scanDigits s).map fun (ds, s) => (c :: '-' :: ds, s)
        | s => (scanDigits s).map fun (ds, s) => (c :: ds, s)
      else some ([], c :: rest)
  | [] => some ([], [])

def scanNumber (s : List Char) : Option (List Char × List Char) := do
  let (sign, s) := match s with
    | '-' :: rest => (['-'], rest)
    | s => ([], s)
  let (int, s) ← scanInt s
  let (frac, s) ← scanFrac s
  let (exp, s) ← scanExp s
  return (sign ++ int ++ frac ++ exp, s)

def unquote : List Char → List Char
  | [] => []
  | '\\' :: 'u' :: a :: b :: c :: d :: rest =>
      let r := (hex4 a b c d).getD 0
      if 0xD800 ≤ r && r ≤ 0xDFFF then
        match rest with
        | '\\' :: 'u' :: a' :: b' :: c' :: d' :: rest' =>
            let r' := (hex4 a' b' c' d').getD 0
            -- only a high half followed by a low half makes a character
            if r ≤ 0xDBFF && 0xDC00 ≤ r' && r' ≤ 0xDFFF then
              Char.ofNat (0x10000 + (r - 0xD800) * 0x400 + (r' - 0xDC00)) :: unquote rest'
            else runeError :: unquote ('\\' :: 'u' :: a' :: b' :: c' :: d' :: rest')
        | rest => runeError :: unquote rest
      else Char.ofNat r :: unquote rest
  | '\\' :: e :: rest =>
      (if e = 'b' then Char.ofNat 0x08
        else if e = 'f' then Char.ofNat 0x0C
        else if e = 'n' then '\n'
        else if e = 'r' then '\r'
        else if e = 't' then '\t'
        else e) :: unquote rest
  | c :: rest => c :: unquote rest

/-! ### The scanner -/

/-- The text consumed between two positions of one input. -/
def textBetween (start rest : List Char) : String :=
  String.ofList (start.take (start.length - rest.length))

mutual

/-- One value at the front of the text, and what follows it. `depth` counts the brackets that may
still be opened; `fuel` bounds the recursion, and two units for each character are enough
because every second call consumes one. -/
def scanValue : Nat → Nat → List Char → Option (Doc × List Char)
  | 0, _, _ => none
  | fuel + 1, depth, s =>
      match s with
      | 'n' :: 'u' :: 'l' :: 'l' :: rest => some (.null, rest)
      | 't' :: 'r' :: 'u' :: 'e' :: rest => some (.bool true, rest)
      | 'f' :: 'a' :: 'l' :: 's' :: 'e' :: rest => some (.bool false, rest)
      | '"' :: rest => (scanString rest).map fun (lit, r) => (.str (String.ofList lit), r)
      | '[' :: rest =>
          if depth = 0 then none
          else
            match skipBlanks rest with
            | ']' :: r => some (.arr (textBetween s r) [], r)
            | r => (scanItems fuel (depth - 1) r).map fun (xs, r) => (.arr (textBetween s r) xs, r)
      | '{' :: rest =>
          if depth = 0 then none
          else
            match skipBlanks rest with
            | '}' :: r => some (.obj (textBetween s r) [], r)
            | r =>
                (scanMembers fuel (depth - 1) r).map fun (ms, r) => (.obj (textBetween s r) ms, r)
      | s => (scanNumber s).map fun (lit, r) => (.num (String.ofList lit), r)

/-- The items of a non-empty array, up to and with its closing bracket. -/
def scanItems : Nat → Nat → List Char → Option (List Doc × List Char)
  | 0, _, _ => none
  | fuel + 1, depth, s => do
      let (d, r) ← scanValue fuel depth (skipBlanks s)
      match skipBlanks r with
      | ',' :: r => (scanItems fuel depth r).map fun (ds, r) => (d :: ds, r)
      | ']' :: r => some ([d], r)
      | _ => none

/-- The members of a non-empty object, up to and with its closing brace. -/
def scanMembers : Nat → Nat → List Char → Option (List (String × Doc) × List Char)
  | 0, _, _ => none
  | fuel + 1, depth, s =>
      match skipBlanks s with
      | '"' :: r => do
          let (key, r) ← scanString r
          match skipBlanks r with
          | ':' :: r => do
              let (d, r) ← scanValue fuel depth (skipBlanks r)
              let member := (String.ofList (unquote key), d)
              match skipBlanks r with
              | ',' :: r => (scanMembers fuel depth r).map fun (ms, r) => (member :: ms, r)
              | '}' :: r => some ([member], r)
              | _ => none
          | _ => none
      | _ => none

end

/-- `encoding/json`'s bound on nested brackets. -/
def maxNestingDepth : Nat := 10000

/-- Scan a whole text: one value with blanks around it and nothing else. -/
def scan (text : List Char) : Option Doc :=
  match scanValue (2 * text.length + 2) maxNestingDepth (skipBlanks text) with
  | some (d, r) => if (skipBlanks r).isEmpty then some d else none
  | none => none

/-- The bracket an array or an object starts with. -/
def opening : Doc → Option Char
  | arr _ _ => some '['
  | obj _ _ => some '{'
  | _ => none

theorem opening_of_scanValue {fuel depth : Nat} {s r : List Char} {d : Doc} {c : Char}
    (h : scanValue fuel depth s = some (d, r)) (hc : d.opening = some c) :
    ∃ rest, s = c :: rest := by
  cases fuel with
  | zero => simp [scanValue] at h
  | succ fuel =>
      have hopen : ∀ {x : Option (Doc × List Char)} {c' : Char} {rest : List Char},
          (∀ d r, x = some (d, r) → d.opening = some c') → x = some (d, r) →
            ∃ rest', c' :: rest = c :: rest' := by
        intro x c' rest hx heq
        obtain rfl := Option.some.inj ((hx d r heq).symm.trans hc)
        exact ⟨rest, rfl⟩
      unfold scanValue at h
      split at h
      case h_5 =>
        refine hopen (fun d r hd => ?_) h
        split_ifs at hd
        split at hd <;> simp only [Option.some.injEq, Prod.mk.injEq, Option.map_eq_some_iff] at hd
        · obtain ⟨rfl, -⟩ := hd
          rfl
        · obtain ⟨_, -, rfl, -⟩ := hd
          rfl
      case h_6 =>
        refine hopen (fun d r hd => ?_) h
        split_ifs at hd
        split at hd <;> simp only [Option.some.injEq, Prod.mk.injEq, Option.map_eq_some_iff] at hd
        · obtain ⟨rfl, -⟩ := hd
          rfl
        · obtain ⟨_, -, rfl, -⟩ := hd
          rfl
      all_goals
        simp only [Option.some.injEq, Prod.mk.injEq, Option.map_eq_some_iff] at h
        first
          | obtain ⟨rfl, -⟩ := h
            cases hc
          | obtain ⟨_, -, rfl, -⟩ := h
            cases hc

theorem opening_of_scan {text : List Char} {d : Doc} {c : Char} (h : scan text = some d)
    (hc : d.opening = some c) :
    ∃ blanks rest, text = blanks ++ c :: rest ∧ ∀ b ∈ blanks, isBlank b := by
  unfold scan at h
  split at h
  · rename_i d r hvalue
    split_ifs at h
    obtain rfl := Option.some.inj h
    obtain ⟨rest, hrest⟩ := opening_of_scanValue hvalue hc
    refine ⟨text.takeWhile isBlank, rest, ?_, fun b hb => List.mem_takeWhile_imp hb⟩
    rw [← hrest]
    exact List.takeWhile_append_dropWhile.symm
  · cases h

/-- The text a `json.RawMessage` keeps of a value. -/
def raw : Doc → String
  | null => "null"
  | bool true => "true"
  | bool false => "false"
  | num lit => lit
  | str lit => "\"" ++ lit ++ "\""
  | arr raw _ => raw
  | obj raw _ => raw

theorem hasPrefix_of_scan {text : String} {d : Doc} {c : Char} (h : scan text.toList = some d)
    (hc : d.opening = some c) : hasPrefix (trimSpace text) (String.ofList [c]) = true := by
  obtain ⟨blanks, rest, htext, hblanks⟩ := opening_of_scan h hc
  have hspace : ∀ b ∈ blanks, isSpace b := by
    intro b hb
    have hblank := hblanks b hb
    simp only [isBlank, Bool.or_eq_true, beq_iff_eq] at hblank
    rcases hblank with ((rfl | rfl) | rfl) | rfl <;> rfl
  have hc' : ¬ isSpace c := by
    cases d <;> simp only [opening, Option.some.injEq, reduceCtorEq] at hc <;> subst hc <;> decide
  obtain ⟨rest', hrest'⟩ := trimChars_of_blanks hspace hc' rest
  simp [hasPrefix, trimSpace, htext, hrest']

end Doc

end EvidraBench.Gostd
