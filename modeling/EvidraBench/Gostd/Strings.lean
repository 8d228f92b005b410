import Mathlib

/-!
# Go strings and byte slices

The part of Go's `strings`, `unicode/utf8` and `sort` that the verified packages call, over Lean's
own `String` and lists of octets. Nothing here names a package of the repository.
-/

namespace EvidraBench.Gostd

/-- A Go `[]byte`. -/
abbrev Bytes := List UInt8

/-! ### Searching text -/

/-- `strings.Contains`, on the characters. -/
def containsChars (s sub : List Char) : Bool :=
  s.tails.any fun t => sub.isPrefixOf t

theorem containsChars_iff {s sub : List Char} : containsChars s sub ↔ sub <:+: s := by
  unfold containsChars
  rw [List.any_eq_true]
  constructor
  · rintro ⟨t, ht, hsub⟩
    exact (List.isPrefixOf_iff_prefix.mp hsub).isInfix.trans ((List.mem_tails _ _).mp ht).isInfix
  · intro h
    obtain ⟨t, hsub, ht⟩ := List.infix_iff_prefix_suffix.mp h
    exact ⟨t, (List.mem_tails _ _).mpr ht, List.isPrefixOf_iff_prefix.mpr hsub⟩

/-- `strings.Contains`. -/
def contains (s sub : String) : Bool := containsChars s.toList sub.toList

/-- `strings.HasPrefix`. -/
def hasPrefix (s p : String) : Bool := p.toList.isPrefixOf s.toList

/-- `strings.HasSuffix`. -/
def hasSuffix (s p : String) : Bool := p.toList.isSuffixOf s.toList

/-- `strings.Cut` at a one-character separator: the text before it, the text after it, and whether
it was found. -/
def cut (s : String) (sep : Char) : String × String × Bool :=
  match s.toList.span (· ≠ sep) with
  | (_, []) => (s, "", false)
  | (before, _ :: after) => (String.ofList before, String.ofList after, true)

/-- `strings.Cut` at a separator, on the characters; nothing when it does not occur. -/
def cutChars (sep : List Char) : List Char → Option (List Char × List Char)
  | [] => if sep = [] then some ([], []) else none
  | c :: rest =>
      if sep.isPrefixOf (c :: rest) then some ([], (c :: rest).drop sep.length)
      else (cutChars sep rest).map fun p => (c :: p.1, p.2)

/-- `strings.Cut` at any separator. -/
def cutAt (s sep : String) : String × String × Bool :=
  match cutChars sep.toList s.toList with
  | some (before, after) => (String.ofList before, String.ofList after, true)
  | none => (s, "", false)

/-- `strings.TrimPrefix`. -/
def trimPrefix (s p : String) : String :=
  if hasPrefix s p then String.ofList (s.toList.drop p.toList.length) else s

/-- `strings.Join`. -/
def join (xs : List String) (sep : String) : String :=
  match xs with
  | [] => ""
  | x :: rest => rest.foldl (fun acc y => acc ++ sep ++ y) x

/-- `strings.Split` at a one-character separator, on the characters. -/
def splitChars (sep : Char) : List Char → List (List Char)
  | [] => [[]]
  | c :: rest =>
      if c = sep then [] :: splitChars sep rest
      else
        match splitChars sep rest with
        | [] => [[c]]
        | part :: parts => (c :: part) :: parts

/-- `strings.Split` at a one-character separator. -/
def split (s : String) (sep : Char) : List String :=
  (splitChars sep s.toList).map String.ofList

theorem splitChars_append {sep : Char} {part : List Char} (h : sep ∉ part) (rest : List Char) :
    splitChars sep (part ++ sep :: rest) = part :: splitChars sep rest := by
  induction part with
  | nil => simp [splitChars]
  | cons c part ih =>
      have hc : c ≠ sep := fun heq => h (heq ▸ List.mem_cons_self)
      have hpart : sep ∉ part := fun hmem => h (List.mem_cons_of_mem c hmem)
      rw [List.cons_append, splitChars, if_neg hc, ih hpart]

theorem splitChars_ne_nil (sep : Char) (s : List Char) : splitChars sep s ≠ [] := by
  induction s with
  | nil => simp [splitChars]
  | cons c rest ih =>
      unfold splitChars
      split_ifs
      · simp
      · split <;> simp

theorem splitChars_head {sep : Char} {s part : List Char} {parts : List (List Char)}
    (h : splitChars sep s = part :: parts) : part <+: s := by
  induction s generalizing part parts with
  | nil => simp_all [splitChars]
  | cons c rest ih =>
      unfold splitChars at h
      split_ifs at h
      · rw [← (List.cons.inj h).1]
        exact List.nil_prefix
      · obtain ⟨p, ps, hp⟩ := List.exists_cons_of_ne_nil (splitChars_ne_nil sep rest)
        simp only [hp, List.cons.injEq] at h
        rw [← h.1, List.cons_prefix_cons]
        exact ⟨rfl, ih hp⟩

theorem splitChars_tail {sep : Char} {s part : List Char} (h : part ∈ (splitChars sep s).tail) :
    sep :: part <:+: s := by
  induction s with
  | nil => simp [splitChars] at h
  | cons c rest ih =>
      obtain ⟨p, ps, hp⟩ := List.exists_cons_of_ne_nil (splitChars_ne_nil sep rest)
      have hlater : part ∈ ps → sep :: part <:+: c :: rest := fun hpart =>
        (ih (by rwa [hp])).trans (List.suffix_cons c rest).isInfix
      unfold splitChars at h
      split_ifs at h with hc
      · rw [List.tail_cons, hp] at h
        rcases List.mem_cons.mp h with rfl | h
        · rw [hc]
          exact (List.cons_prefix_cons.mpr ⟨rfl, splitChars_head hp⟩).isInfix
        · exact hlater h
      · rw [hp] at h
        exact hlater h

/-! ### White space and letter case -/

/-- `unicode.IsSpace`: the code points with Unicode's White_Space property. -/
def isSpace (c : Char) : Bool :=
  let n := c.toNat
  (0x09 ≤ n && n ≤ 0x0D) || n == 0x20 || n == 0x85 || n == 0xA0 || n == 0x1680 ||
    (0x2000 ≤ n && n ≤ 0x200A) || n == 0x2028 || n == 0x2029 || n == 0x202F || n == 0x205F ||
    n == 0x3000

/-- `strings.TrimSpace`, on the characters. -/
def trimChars (s : List Char) : List Char :=
  ((s.dropWhile isSpace).reverse.dropWhile isSpace).reverse

/-- `strings.TrimSpace`. -/
def trimSpace (s : String) : String := String.ofList (trimChars s.toList)

theorem exists_trimChars (s : List Char) :
    ∃ before after, s = before ++ trimChars s ++ after ∧ (∀ c ∈ before, isSpace c = true) ∧
      ∀ c ∈ after, isSpace c = true := by
  refine ⟨s.takeWhile isSpace, ((s.dropWhile isSpace).reverse.takeWhile isSpace).reverse, ?_,
    fun c hc => List.mem_takeWhile_imp hc,
    fun c hc => List.mem_takeWhile_imp (List.mem_reverse.mp hc)⟩
  rw [trimChars, List.append_assoc, ← List.reverse_append, List.takeWhile_append_dropWhile,
    List.reverse_reverse, List.takeWhile_append_dropWhile]

theorem trimChars_of_blanks {blanks : List Char} {c : Char} (hb : ∀ b ∈ blanks, isSpace b)
    (hc : ¬ isSpace c) (rest : List Char) :
    ∃ rest', trimChars (blanks ++ c :: rest) = c :: rest' := by
  have hdrop : (blanks ++ c :: rest).dropWhile isSpace = c :: rest := by
    rw [List.dropWhile_append_of_pos hb, List.dropWhile_cons_of_neg hc]
  refine ⟨(rest.reverse.dropWhile isSpace).reverse, ?_⟩
  rw [trimChars, hdrop, List.reverse_cons, List.dropWhile_append]
  split_ifs with h
  · rw [List.isEmpty_iff.mp h, List.dropWhile_cons_of_neg hc]
    rfl
  · rw [List.reverse_append]
    rfl

/-- The words of a text from here on, where `acc` is the word being read, last character first. -/
def fieldsFrom (acc : List Char) : List Char → List (List Char)
  | [] => if acc = [] then [] else [acc.reverse]
  | c :: rest =>
      if isSpace c then
        if acc = [] then fieldsFrom [] rest else acc.reverse :: fieldsFrom [] rest
      else fieldsFrom (c :: acc) rest

/-- `strings.Fields`. -/
def fields (s : String) : List String := (fieldsFrom [] s.toList).map String.ofList

theorem fieldsFrom_blanks_append {blanks : List Char} (hb : ∀ b ∈ blanks, isSpace b = true)
    (s : List Char) : fieldsFrom [] (blanks ++ s) = fieldsFrom [] s := by
  induction blanks with
  | nil => rfl
  | cons b blanks ih =>
    rw [List.cons_append, fieldsFrom, if_pos (hb b List.mem_cons_self), if_pos rfl]
    exact ih fun c hc => hb c (List.mem_cons_of_mem b hc)

theorem fieldsFrom_append_blanks {blanks : List Char} (hb : ∀ b ∈ blanks, isSpace b = true)
    (s : List Char) : ∀ acc, fieldsFrom acc (s ++ blanks) = fieldsFrom acc s := by
  induction s with
  | nil =>
    intro acc
    cases blanks with
    | nil => rfl
    | cons b blanks =>
      have hrest : fieldsFrom [] blanks = [] := by
        have hblanks := fieldsFrom_blanks_append
          (fun c hc => hb c (List.mem_cons_of_mem b hc)) ([] : List Char)
        rwa [List.append_nil] at hblanks
      simp only [List.nil_append, fieldsFrom, hb b List.mem_cons_self, if_true, hrest]
  | cons c s ih =>
    intro acc
    rw [List.cons_append, fieldsFrom, fieldsFrom, ih, ih]

theorem fields_trimSpace (s : String) : fields (trimSpace s) = fields s := by
  obtain ⟨before, after, hs, hbefore, hafter⟩ := exists_trimChars s.toList
  unfold fields trimSpace
  rw [String.toList_ofList]
  nth_rewrite 2 [hs]
  rw [fieldsFrom_append_blanks hafter, fieldsFrom_blanks_append hbefore]

/-- The representative of a character under simple case folding, as far as ASCII letters are
concerned: besides the ASCII pairs, only the Kelvin sign and the long s fold onto an ASCII
letter. Comparing against ASCII text this is `unicode.SimpleFold` exactly. -/
def foldChar (c : Char) : Char :=
  if c.toNat = 0x212A then 'K'
  else if c.toNat = 0x17F then 'S'
  else c.toUpper

/-- `strings.EqualFold`, exact when one side is ASCII. -/
def equalFold (s t : String) : Bool := s.toList.map foldChar == t.toList.map foldChar

/-! ### Octets as text -/

/-- `[]byte(s)`. -/
def bytes (s : String) : Bytes := s.toUTF8.toList

/-- A continuation octet `10xxxxxx`. -/
def isTail (b : UInt8) : Bool := 0x80 ≤ b && b ≤ 0xBF

/-- The bounds Go's decoder puts on the second octet of a sequence that starts with `b`: overlong
forms, surrogates and code points above `U+10FFFF` are not well formed. -/
def secondOk (b c : UInt8) : Bool :=
  if b = 0xE0 then 0xA0 ≤ c && c ≤ 0xBF
  else if b = 0xED then 0x80 ≤ c && c ≤ 0x9F
  else if b = 0xF0 then 0x90 ≤ c && c ≤ 0xBF
  else if b = 0xF4 then 0x80 ≤ c && c ≤ 0x8F
  else isTail c

/-- The Unicode replacement character, Go's `utf8.RuneError`. -/
def runeError : Char := Char.ofNat 0xFFFD

/-- The character of a lead octet's payload `hi` followed by continuation octets. -/
def runeOf (hi : Nat) (tails : List UInt8) : Char :=
  Char.ofNat (tails.foldl (fun acc b => acc * 64 + (b.toNat - 0x80)) hi)

/-- Decode a byte slice as UTF-8, one `U+FFFD` for each octet that starts no well-formed
character. The first case of each width is the well-formed one. -/
def decodeUtf8 : Bytes → List Char
  | [] => []
  | b :: rest =>
      if b < 0x80 then Char.ofNat b.toNat :: decodeUtf8 rest
      else
        match rest with
        | c :: rest₂ =>
            if 0xC2 ≤ b && b ≤ 0xDF && isTail c then
              runeOf (b.toNat - 0xC0) [c] :: decodeUtf8 rest₂
            else
              match rest₂ with
              | d :: rest₃ =>
                  if 0xE0 ≤ b && b ≤ 0xEF && secondOk b c && isTail d then
                    runeOf (b.toNat - 0xE0) [c, d] :: decodeUtf8 rest₃
                  else
                    match rest₃ with
                    | e :: rest₄ =>
                        if 0xF0 ≤ b && b ≤ 0xF4 && secondOk b c && isTail d && isTail e then
                          runeOf (b.toNat - 0xF0) [c, d, e] :: decodeUtf8 rest₄
                        else runeError :: decodeUtf8 (c :: d :: e :: rest₄)
                    | [] => runeError :: decodeUtf8 (c :: d :: [])
              | [] => runeError :: decodeUtf8 (c :: [])
        | [] => [runeError]

def bytesOf (s : String) : Bytes := s.toByteArray.data.toList

/-- The UTF-8 octets of the characters of `isSpace`. -/
def spaceTexts : List Bytes :=
  [[0x09], [0x0A], [0x0B], [0x0C], [0x0D], [0x20], [0xC2, 0x85], [0xC2, 0xA0], [0xE1, 0x9A, 0x80],
    [0xE2, 0x80, 0x80], [0xE2, 0x80, 0x81], [0xE2, 0x80, 0x82], [0xE2, 0x80, 0x83],
    [0xE2, 0x80, 0x84], [0xE2, 0x80, 0x85], [0xE2, 0x80, 0x86], [0xE2, 0x80, 0x87],
    [0xE2, 0x80, 0x88], [0xE2, 0x80, 0x89], [0xE2, 0x80, 0x8A], [0xE2, 0x80, 0xA8],
    [0xE2, 0x80, 0xA9], [0xE2, 0x80, 0xAF], [0xE2, 0x81, 0x9F], [0xE3, 0x80, 0x80]]

/-- Drop characters of at most three octets from the front. -/
def dropTexts (p : Bytes → Bool) : Bytes → Bytes
  | [] => []
  | a :: s =>
      if p [a] then dropTexts p s
      else
        match s with
        | b :: s₂ =>
            if p [a, b] then dropTexts p s₂
            else
              match s₂ with
              | c :: s₃ => if p [a, b, c] then dropTexts p s₃ else a :: b :: c :: s₃
              | [] => [a, b]
        | [] => [a]

/-- `strings.TrimSpace` on any octets. An octet that starts no character is no white space, from
the front as from the back. -/
def trimOctets (s : Bytes) : Bytes :=
  (dropTexts (fun t => spaceTexts.contains t.reverse)
    (dropTexts spaceTexts.contains s).reverse).reverse

/-- `strings.ToLower` of an octet, where only ASCII letters are of interest. -/
def lowerOctet (b : UInt8) : UInt8 := if 65 ≤ b && b ≤ 90 then b + 32 else b

/-! ### Lists of strings -/

/-- Keep the first occurrence of every item, in order: the `seen`-map loop. -/
def dedupe {α : Type} [DecidableEq α] : List α → List α
  | [] => []
  | x :: rest => x :: (dedupe rest).filter (· ≠ x)

section dedupe

variable {α : Type} [DecidableEq α]

@[simp] theorem mem_dedupe {x : α} : ∀ {xs : List α}, x ∈ dedupe xs ↔ x ∈ xs
  | [] => by simp [dedupe]
  | y :: rest => by
      simp only [dedupe, List.mem_cons, List.mem_filter, @mem_dedupe x rest, decide_eq_true_eq]
      by_cases h : x = y <;> simp [h]

theorem nodup_dedupe : ∀ xs : List α, (dedupe xs).Nodup
  | [] => List.nodup_nil
  | y :: rest => by
      rw [dedupe, List.nodup_cons]
      exact ⟨by simp, (nodup_dedupe rest).filter _⟩

@[simp] theorem dedupe_eq_nil {xs : List α} : dedupe xs = [] ↔ xs = [] := by
  cases xs <;> simp [dedupe]

@[simp] theorem isEmpty_dedupe {xs : List α} : (dedupe xs).isEmpty = xs.isEmpty := by
  cases xs <;> simp [dedupe]

end dedupe

/-- `sort.Strings`. -/
def sortStrings (xs : List String) : List String := xs.insertionSort (· ≤ ·)

@[simp] theorem mem_sortStrings {x : String} {xs : List String} :
    x ∈ sortStrings xs ↔ x ∈ xs := List.mem_insertionSort _

/-- `fmt`'s `%v` of a `[]string`. -/
def formatList (xs : List String) : String := "[" ++ join xs " " ++ "]"

def hexChar (n : Nat) : Char := if n < 10 then Char.ofNat (48 + n) else Char.ofNat (87 + n)

/-- The lowest `k` hexadecimal digits of a number. -/
def hexDigits (n : Nat) : Nat → List Char
  | 0 => []
  | k + 1 => hexDigits (n / 16) k ++ [hexChar (n % 16)]

/-- A character inside `strconv.Quote`. Characters beyond Latin-1 are taken to be printable. -/
def quoteChar (c : Char) : List Char :=
  if c = '"' then ['\\', '"']
  else if c = '\\' then ['\\', '\\']
  else if c = Char.ofNat 7 then ['\\', 'a']
  else if c = Char.ofNat 8 then ['\\', 'b']
  else if c = Char.ofNat 12 then ['\\', 'f']
  else if c = '\n' then ['\\', 'n']
  else if c = '\r' then ['\\', 'r']
  else if c = '\t' then ['\\', 't']
  else if c = Char.ofNat 11 then ['\\', 'v']
  else if c.toNat < 32 || c.toNat = 127 then '\\' :: 'x' :: hexDigits c.toNat 2
  else if (128 ≤ c.toNat && c.toNat ≤ 160) || c.toNat = 173 then
    '\\' :: 'u' :: hexDigits c.toNat 4
  else [c]

/-- `fmt`'s `%q` of a string. -/
def quote (s : String) : String := String.ofList ('"' :: s.toList.flatMap quoteChar ++ ['"'])

end EvidraBench.Gostd
