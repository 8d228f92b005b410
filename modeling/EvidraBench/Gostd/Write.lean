import EvidraBench.Gostd.Format

/-!
# What `encoding/json` writes, and that it is scanned

Results: `scan_text`.
-/

namespace EvidraBench.Gostd

/-! ### Strings -/

/-- A character as `\uXXXX`. -/
def unicodeEscape (n : Nat) : List Char :=
  ['\\', 'u', hexChar (n / 4096), hexChar (n / 256 % 16), hexChar (n / 16 % 16), hexChar (n % 16)]

/-- The letter that stands for a character after a backslash. -/
def escapeLetter (c : Char) : Option Char :=
  if c = '"' ∨ c = '\\' then some c
  else if c = Char.ofNat 0x08 then some 'b'
  else if c = Char.ofNat 0x0C then some 'f'
  else if c = '\n' then some 'n'
  else if c = '\r' then some 'r'
  else if c = '\t' then some 't'
  else none

/-- The characters that are written by their number. -/
def escapesNumber (c : Char) : Bool :=
  c.toNat < 0x20 || c == '<' || c == '>' || c == '&' || c.toNat == 0x2028 || c.toNat == 0x2029

def escapeChar (c : Char) : List Char :=
  match escapeLetter c with
  | some e => ['\\', e]
  | none => if escapesNumber c then unicodeEscape c.toNat else [c]

/-- The text between the quotes of a written string. -/
def escapeChars (s : List Char) : List Char := s.flatMap escapeChar

/-- What `json.Marshal` writes for a string. -/
def jsonString (s : String) : List Char := '"' :: (escapeChars s.toList ++ ['"'])

theorem hexDigit_hexChar : ∀ n < 16, Doc.hexDigit (hexChar n) = some n := by decide

theorem hex4_hexChar {n : Nat} (hn : n < 65536) :
    Doc.hex4 (hexChar (n / 4096)) (hexChar (n / 256 % 16)) (hexChar (n / 16 % 16))
      (hexChar (n % 16)) = some n := by
  unfold Doc.hex4
  rw [hexDigit_hexChar _ (by omega), hexDigit_hexChar _ (by omega), hexDigit_hexChar _ (by omega),
    hexDigit_hexChar _ (by omega)]
  simp only [Option.bind_eq_bind, Option.bind_some, Option.pure_def, Option.some.injEq]
  omega

def plain (c : Char) : Prop := c ≠ '"' ∧ c ≠ '\\' ∧ 0x20 ≤ c.toNat

theorem unquote_letter {e : Char} (he : e ≠ 'u') (rest : List Char) :
    Doc.unquote ('\\' :: e :: rest) =
      (if e = 'b' then Char.ofNat 0x08
        else if e = 'f' then Char.ofNat 0x0C
        else if e = 'n' then '\n'
        else if e = 'r' then '\r'
        else if e = 't' then '\t'
        else e) :: Doc.unquote rest := by
  rw [Doc.unquote.eq_def]
  split
  · rename_i heq
    cases heq
  · rename_i heq
    exact absurd (List.cons.inj (List.cons.inj heq).2).1 he
  · rename_i heq
    obtain ⟨rfl, rfl⟩ := List.cons.inj (List.cons.inj heq).2
    rfl
  · rename_i hnot heq
    obtain ⟨rfl, rfl⟩ := List.cons.inj heq
    exact absurd rfl (hnot e rest rfl)

theorem unquote_plain {c : Char} (hc : c ≠ '\\') (rest : List Char) :
    Doc.unquote (c :: rest) = c :: Doc.unquote rest := by
  rw [Doc.unquote.eq_def]
  split
  · rename_i heq
    cases heq
  · rename_i heq
    exact absurd (List.cons.inj heq).1 hc
  · rename_i heq
    exact absurd (List.cons.inj heq).1 hc
  · rename_i heq
    obtain ⟨rfl, rfl⟩ := List.cons.inj heq
    rfl

theorem unquote_unicode {n : Nat} (hn : n < 0xD800) (rest : List Char) :
    Doc.unquote (unicodeEscape n ++ rest) = Char.ofNat n :: Doc.unquote rest := by
  have hsurrogate : ¬ (0xD800 ≤ n && n ≤ 0xDFFF) = true := by
    simp only [Bool.and_eq_true, decide_eq_true_eq, not_and, not_le]
    omega
  unfold unicodeEscape
  simp only [List.cons_append, List.nil_append]
  rw [Doc.unquote.eq_def]
  simp only [hex4_hexChar (show n < 65536 by omega), Option.getD_some, hsurrogate,
    Bool.false_eq_true, if_false]

theorem scanString_letter {e : Char} (hu : e ≠ 'u') (he : Doc.isEscape e) (rest : List Char) :
    Doc.scanString ('\\' :: e :: rest) =
      (Doc.scanString rest).map fun p => ('\\' :: e :: p.1, p.2) := by
  rw [Doc.scanString.eq_def]
  split
  · rename_i heq
    cases heq
  · rename_i heq
    exact absurd (List.cons.inj heq).1 (by decide)
  · rename_i heq
    exact absurd (List.cons.inj (List.cons.inj heq).2).1 hu
  · rename_i heq
    obtain ⟨rfl, rfl⟩ := List.cons.inj (List.cons.inj heq).2
    rw [if_pos he]
  · rename_i hnot heq
    obtain ⟨rfl, rfl⟩ := List.cons.inj heq
    exact absurd rfl (hnot e rest rfl)

theorem scanString_plain {c : Char} (hc : plain c) (rest : List Char) :
    Doc.scanString (c :: rest) = (Doc.scanString rest).map fun p => (c :: p.1, p.2) := by
  obtain ⟨hquote, hback, hcontrol⟩ := hc
  rw [Doc.scanString.eq_def]
  split
  · rename_i heq
    cases heq
  · rename_i heq
    exact absurd (List.cons.inj heq).1 hquote
  · rename_i heq
    exact absurd (List.cons.inj heq).1 hback
  · rename_i heq
    exact absurd (List.cons.inj heq).1 hback
  · rename_i heq
    obtain ⟨rfl, rfl⟩ := List.cons.inj heq
    rw [if_neg (by simp [hback, hcontrol])]

theorem scanString_unicode {n : Nat} (hn : n < 65536) (rest : List Char) :
    Doc.scanString (unicodeEscape n ++ rest) =
      (Doc.scanString rest).map fun p => (unicodeEscape n ++ p.1, p.2) := by
  unfold unicodeEscape
  simp only [List.cons_append, List.nil_append]
  rw [Doc.scanString, hex4_hexChar hn]
  rfl

theorem escapeLetter_spec {c e : Char} (h : escapeLetter c = some e) :
    e ≠ 'u' ∧ Doc.isEscape e ∧
      ∀ rest, Doc.unquote ('\\' :: e :: rest) = c :: Doc.unquote rest := by
  unfold escapeLetter at h
  split_ifs at h with h₁ h₂ h₃ h₄ h₅ h₆
  · obtain rfl := Option.some.inj h
    rcases h₁ with rfl | rfl <;>
      exact ⟨by decide, by decide, fun rest => unquote_letter (by decide) rest⟩
  all_goals
    subst c
    obtain rfl := Option.some.inj h
    exact ⟨by decide, by decide, fun rest => unquote_letter (by decide) rest⟩

theorem ne_of_escapeLetter_eq_none {c : Char} (h : escapeLetter c = none) :
    c ≠ '"' ∧ c ≠ '\\' := by
  unfold escapeLetter at h
  split_ifs at h with h₁
  exact not_or.mp h₁

theorem toNat_lt_of_escapesNumber {c : Char} (h : escapesNumber c) : c.toNat < 0xD800 := by
  simp only [escapesNumber, Bool.or_eq_true, decide_eq_true_eq, beq_iff_eq] at h
  rcases h with ((((h | rfl) | rfl) | rfl) | h) | h
  · omega
  all_goals first | decide | omega

theorem scanString_escapeChar (c : Char) (rest : List Char) :
    Doc.scanString (escapeChar c ++ rest) =
      (Doc.scanString rest).map fun p => (escapeChar c ++ p.1, p.2) := by
  unfold escapeChar
  rcases hletter : escapeLetter c with _ | e
  · dsimp only
    split_ifs with hnumber
    · exact scanString_unicode (by have := toNat_lt_of_escapesNumber hnumber; omega) rest
    · obtain ⟨hquote, hback⟩ := ne_of_escapeLetter_eq_none hletter
      have hcontrol : 0x20 ≤ c.toNat := by
        simp only [escapesNumber, Bool.or_eq_true, decide_eq_true_eq, not_or, not_lt] at hnumber
        exact hnumber.1.1.1.1.1
      exact scanString_plain ⟨hquote, hback, hcontrol⟩ rest
  · obtain ⟨hu, he, -⟩ := escapeLetter_spec hletter
    exact scanString_letter hu he rest

theorem unquote_escapeChar (c : Char) (rest : List Char) :
    Doc.unquote (escapeChar c ++ rest) = c :: Doc.unquote rest := by
  unfold escapeChar
  rcases hletter : escapeLetter c with _ | e
  · dsimp only
    split_ifs with hnumber
    · rw [unquote_unicode (toNat_lt_of_escapesNumber hnumber), Char.ofNat_toNat]
    · exact unquote_plain (ne_of_escapeLetter_eq_none hletter).2 rest
  · exact (escapeLetter_spec hletter).2.2 rest

theorem scanString_escape (s rest : List Char) :
    Doc.scanString (escapeChars s ++ '"' :: rest) = some (escapeChars s, rest) := by
  induction s with
  | nil => rfl
  | cons c s ih =>
      unfold escapeChars at ih ⊢
      rw [List.flatMap_cons, List.append_assoc, scanString_escapeChar, ih]
      rfl

theorem unquote_escape (s : List Char) : Doc.unquote (escapeChars s) = s := by
  induction s with
  | nil => rfl
  | cons c s ih =>
      unfold escapeChars at ih ⊢
      rw [List.flatMap_cons, unquote_escapeChar, ih]

/-! ### Documents -/

inductive Json where
  | null
  | bool (b : Bool)
  /-- A number, as its literal. -/
  | num (lit : List Char)
  | str (s : String)
  | arr (items : List Json)
  /-- An object, its members as they are written. -/
  | obj (members : List (String × Json))

structure Layout where
  /-- What stands before an item, and before a closing bracket, that is so many levels deep. -/
  line : Nat → List Char
  /-- What stands behind the colon of a member. -/
  colon : List Char
  blank_line : ∀ n, ∀ c ∈ line n, Doc.isBlank c = true
  blank_colon : ∀ c ∈ colon, Doc.isBlank c = true

namespace Layout

/-- `json.Marshal` writes no blanks. -/
def compact : Layout :=
  ⟨fun _ => [], [], fun _ => List.forall_mem_nil _, List.forall_mem_nil _⟩

/-- `json.MarshalIndent` with the indent of two blanks. -/
def indented : Layout where
  line n := '\n' :: List.replicate (2 * n) ' '
  colon := [' ']
  blank_line n c hc := by
    rcases List.mem_cons.mp hc with rfl | hc
    · rfl
    · rw [List.eq_of_mem_replicate hc]
      rfl
  blank_colon c hc := by
    rw [List.mem_singleton.mp hc]
    rfl

variable {α : Type}

def first (L : Layout) (level : Nat) (items : List α) : List Char :=
  if items.isEmpty then [] else L.line (level + 1)

/-- What stands behind an item that is followed by the rest of the list. -/
def next (L : Layout) (level : Nat) (rest : List α) : List Char :=
  if rest.isEmpty then L.line level else ',' :: L.line (level + 1)

end Layout

namespace Json

mutual

/-- The text of a document that is so many levels deep. -/
def text (L : Layout) (level : Nat) : Json → List Char
  | .null => ['n', 'u', 'l', 'l']
  | .bool true => ['t', 'r', 'u', 'e']
  | .bool false => ['f', 'a', 'l', 's', 'e']
  | .num lit => lit
  | .str s => jsonString s
  | .arr items => '[' :: (L.first level items ++ itemsText L level items)
  | .obj members => '{' :: (L.first level members ++ membersText L level members)

/-- The items of an array and its closing bracket. -/
def itemsText (L : Layout) (level : Nat) : List Json → List Char
  | [] => [']']
  | j :: rest => text L (level + 1) j ++ (L.next level rest ++ itemsText L level rest)

/-- The members of an object and its closing brace. -/
def membersText (L : Layout) (level : Nat) : List (String × Json) → List Char
  | [] => ['}']
  | (k, j) :: rest =>
      jsonString k ++ ':' :: (L.colon ++ (text L (level + 1) j ++
        (L.next level rest ++ membersText L level rest)))

end

mutual

/-- The numbers are literals, and at most so many brackets are open at once. -/
def Ok : Json → Nat → Prop
  | .num lit, _ => isLiteral lit
  | .arr items, depth => 0 < depth ∧ ItemsOk items (depth - 1)
  | .obj members, depth => 0 < depth ∧ MembersOk members (depth - 1)
  | _, _ => True

def ItemsOk : List Json → Nat → Prop
  | [], _ => True
  | j :: rest, depth => Ok j depth ∧ ItemsOk rest depth

def MembersOk : List (String × Json) → Nat → Prop
  | [], _ => True
  | (_, j) :: rest, depth => Ok j depth ∧ MembersOk rest depth

end

end Json

namespace Doc

mutual

def json : Doc → Json
  | .null => .null
  | .bool b => .bool b
  | .num lit => .num lit.toList
  | .str lit => .str (String.ofList (unquote lit.toList))
  | .arr _ items => .arr (jsonItems items)
  | .obj _ members => .obj (jsonMembers members)

def jsonItems : List Doc → List Json
  | [] => []
  | d :: rest => json d :: jsonItems rest

def jsonMembers : List (String × Doc) → List (String × Json)
  | [] => []
  | (k, d) :: rest => (k, json d) :: jsonMembers rest

end

variable {d : Doc}

theorem eq_null_of_json (h : d.json = .null) : d = .null := by
  cases d with
  | null => rfl
  | _ => cases h

theorem eq_bool_of_json {b : Bool} (h : d.json = .bool b) : d = .bool b := by
  cases d with
  | bool b' => rw [Json.bool.inj h]
  | _ => cases h

theorem eq_num_of_json {lit : List Char} (h : d.json = .num lit) :
    d = .num (String.ofList lit) := by
  cases d with
  | num lit' => rw [← Json.num.inj h, String.ofList_toList]
  | _ => cases h

theorem exists_str_of_json {s : String} (h : d.json = .str s) :
    ∃ lit, d = .str lit ∧ String.ofList (unquote lit.toList) = s := by
  cases d with
  | str lit => exact ⟨lit, rfl, Json.str.inj h⟩
  | _ => cases h

theorem exists_arr_of_json {items : List Json} (h : d.json = .arr items) :
    ∃ raw ds, d = .arr raw ds ∧ jsonItems ds = items := by
  cases d with
  | arr raw ds => exact ⟨raw, ds, rfl, Json.arr.inj h⟩
  | _ => cases h

theorem exists_obj_of_json {members : List (String × Json)} (h : d.json = .obj members) :
    ∃ raw ms, d = .obj raw ms ∧ jsonMembers ms = members := by
  cases d with
  | obj raw ms => exact ⟨raw, ms, rfl, Json.obj.inj h⟩
  | _ => cases h

end Doc

/-! ### Blanks -/

theorem skipBlanks_cons {c : Char} (hc : Doc.isBlank c = false) (s : List Char) :
    Doc.skipBlanks (c :: s) = c :: s := List.dropWhile_cons_of_neg (by simp [hc])

theorem ne_of_numberHead {c : Char} (hc : c = '-' ∨ c.isDigit) (d : Char) (hminus : d ≠ '-')
    (hdigit : d.isDigit = false) : c ≠ d := by
  rintro rfl
  rcases hc with hc | hc
  · exact hminus hc
  · rw [hdigit] at hc
    cases hc

theorem scanValue_number {c : Char} (hc : c = '-' ∨ c.isDigit) (fuel depth : Nat) (s : List Char) :
    Doc.scanValue (fuel + 1) depth (c :: s) =
      (Doc.scanNumber (c :: s)).map fun p => (.num (String.ofList p.1), p.2) := by
  rw [Doc.scanValue.eq_def]
  dsimp only
  split
  case h_7 => rfl
  all_goals
    rename_i heq
    exact absurd (List.cons.inj heq).1 (ne_of_numberHead hc _ (by decide) (by decide))

theorem scanValue_str (s : String) (fuel depth : Nat) (rest : List Char) :
    Doc.scanValue (fuel + 1) depth (jsonString s ++ rest) =
      some (.str (String.ofList (escapeChars s.toList)), rest) := by
  have hscan := scanString_escape s.toList rest
  unfold jsonString
  rw [List.cons_append, List.append_assoc, List.singleton_append]
  show (Doc.scanString (escapeChars s.toList ++ '"' :: rest)).map _ = _
  rw [hscan]
  rfl

theorem scanValue_literal {t : List Char} (ht : isLiteral t) (fuel depth : Nat) {rest : List Char}
    (hrest : endsNumber rest) :
    Doc.scanValue (fuel + 1) depth (t ++ rest) = some (.num (String.ofList t), rest) := by
  have hscan := scanNumber_of_isLiteral ht hrest
  obtain ⟨c, t', rfl, hc⟩ := head_of_isLiteral ht
  rw [List.cons_append, scanValue_number hc, ← List.cons_append, hscan]
  rfl

/-! ### Arrays and objects -/

section brackets

variable {c : Char} {s t rest : List Char} {fuel depth : Nat}

theorem scanValue_array {ds : List Doc} (hdepth : 0 < depth) (hs : Doc.skipBlanks s = c :: t)
    (hc : c ≠ ']') (h : Doc.scanItems fuel (depth - 1) (c :: t) = some (ds, rest)) :
    Doc.scanValue (fuel + 1) depth ('[' :: s) =
      some (.arr (Doc.textBetween ('[' :: s) rest) ds, rest) := by
  rw [Doc.scanValue.eq_def]
  simp only [if_neg hdepth.ne', hs]
  split
  · rename_i heq
    exact absurd (List.cons.inj heq).1 hc
  · rw [h]
    rfl

theorem scanValue_object {ms : List (String × Doc)} (hdepth : 0 < depth)
    (hs : Doc.skipBlanks s = c :: t) (hc : c ≠ '}')
    (h : Doc.scanMembers fuel (depth - 1) (c :: t) = some (ms, rest)) :
    Doc.scanValue (fuel + 1) depth ('{' :: s) =
      some (.obj (Doc.textBetween ('{' :: s) rest) ms, rest) := by
  rw [Doc.scanValue.eq_def]
  simp only [if_neg hdepth.ne', hs]
  split
  · rename_i heq
    exact absurd (List.cons.inj heq).1 hc
  · rw [h]
    rfl

end brackets

theorem skipBlanks_jsonString (s : String) (rest : List Char) :
    Doc.skipBlanks (jsonString s ++ rest) = '"' :: (escapeChars s.toList ++ '"' :: rest) := by
  unfold jsonString
  rw [List.cons_append, List.append_assoc]
  exact skipBlanks_cons (by decide) _

theorem endsNumber_cons {c : Char} (hc : c.isDigit = false ∧ c ≠ '.' ∧ c ≠ 'e' ∧ c ≠ 'E')
    (rest : List Char) : endsNumber (c :: rest) := by
  intro b hb
  obtain rfl : c = b := Option.some.inj hb
  exact hc

theorem scanValue_emptyArray {depth : Nat} (hdepth : 0 < depth) (fuel : Nat) (rest : List Char) :
    Doc.scanValue (fuel + 1) depth ('[' :: ']' :: rest) =
      some (.arr (Doc.textBetween ('[' :: ']' :: rest) rest) [], rest) := by
  have hblank : Doc.skipBlanks (']' :: rest) = ']' :: rest := skipBlanks_cons (by decide) rest
  rw [Doc.scanValue.eq_def]
  simp only [if_neg hdepth.ne', hblank]

theorem scanValue_emptyObject {depth : Nat} (hdepth : 0 < depth) (fuel : Nat) (rest : List Char) :
    Doc.scanValue (fuel + 1) depth ('{' :: '}' :: rest) =
      some (.obj (Doc.textBetween ('{' :: '}' :: rest) rest) [], rest) := by
  have hblank : Doc.skipBlanks ('}' :: rest) = '}' :: rest := skipBlanks_cons (by decide) rest
  rw [Doc.scanValue.eq_def]
  simp only [if_neg hdepth.ne', hblank]

/-! ### Lists of tokens -/

section step

variable {fuel depth : Nat} {blanks s r₀ r : List Char} {d : Doc}

theorem skipBlanks_append (h : ∀ c ∈ blanks, Doc.isBlank c = true) (s : List Char) :
    Doc.skipBlanks (blanks ++ s) = Doc.skipBlanks s := by
  unfold Doc.skipBlanks
  rw [List.dropWhile_append, List.dropWhile_eq_nil_iff.mpr h]
  rfl

theorem scanItems_blanks (h : ∀ c ∈ blanks, Doc.isBlank c = true) :
    Doc.scanItems fuel depth (blanks ++ s) = Doc.scanItems fuel depth s := by
  cases fuel with
  | zero => rfl
  | succ fuel =>
      rw [Doc.scanItems.eq_def, Doc.scanItems.eq_def]
      dsimp only
      rw [skipBlanks_append h]

theorem scanMembers_blanks (h : ∀ c ∈ blanks, Doc.isBlank c = true) :
    Doc.scanMembers fuel depth (blanks ++ s) = Doc.scanMembers fuel depth s := by
  cases fuel with
  | zero => rfl
  | succ fuel =>
      rw [Doc.scanMembers.eq_def, Doc.scanMembers.eq_def]
      dsimp only
      rw [skipBlanks_append h]

theorem scanItems_comma (h : Doc.scanValue fuel depth (Doc.skipBlanks s) = some (d, r₀))
    (hr : Doc.skipBlanks r₀ = ',' :: r) :
    Doc.scanItems (fuel + 1) depth s =
      (Doc.scanItems fuel depth r).map fun p => (d :: p.1, p.2) := by
  rw [Doc.scanItems.eq_def]
  simp only [h, Option.bind_eq_bind, Option.bind_some, hr]

theorem scanItems_last (h : Doc.scanValue fuel depth (Doc.skipBlanks s) = some (d, r₀))
    (hr : Doc.skipBlanks r₀ = ']' :: r) : Doc.scanItems (fuel + 1) depth s = some ([d], r) := by
  rw [Doc.scanItems.eq_def]
  simp only [h, Option.bind_eq_bind, Option.bind_some, hr]

theorem scanMembers_comma {k : String}
    (h : Doc.scanValue fuel depth (Doc.skipBlanks s) = some (d, r₀))
    (hr : Doc.skipBlanks r₀ = ',' :: r) :
    Doc.scanMembers (fuel + 1) depth (jsonString k ++ ':' :: s) =
      (Doc.scanMembers fuel depth r).map fun p => ((k, d) :: p.1, p.2) := by
  have hkey := scanString_escape k.toList (':' :: s)
  have hcolon : Doc.skipBlanks (':' :: s) = ':' :: s := skipBlanks_cons (by decide) s
  rw [Doc.scanMembers.eq_def]
  simp only [skipBlanks_jsonString, hkey, Option.bind_eq_bind, Option.bind_some, hcolon, h, hr,
    unquote_escape, String.ofList_toList]

theorem scanMembers_last {k : String}
    (h : Doc.scanValue fuel depth (Doc.skipBlanks s) = some (d, r₀))
    (hr : Doc.skipBlanks r₀ = '}' :: r) :
    Doc.scanMembers (fuel + 1) depth (jsonString k ++ ':' :: s) = some ([(k, d)], r) := by
  have hkey := scanString_escape k.toList (':' :: s)
  have hcolon : Doc.skipBlanks (':' :: s) = ':' :: s := skipBlanks_cons (by decide) s
  rw [Doc.scanMembers.eq_def]
  simp only [skipBlanks_jsonString, hkey, Option.bind_eq_bind, Option.bind_some, hcolon, h, hr,
    unquote_escape, String.ofList_toList]

theorem endsNumber_blanks {c : Char} (h : ∀ b ∈ blanks, Doc.isBlank b = true)
    (hc : c.isDigit = false ∧ c ≠ '.' ∧ c ≠ 'e' ∧ c ≠ 'E') (rest : List Char) :
    endsNumber (blanks ++ c :: rest) := by
  cases blanks with
  | nil => exact endsNumber_cons hc rest
  | cons b blanks =>
      refine endsNumber_cons ?_ _
      have hb := h b List.mem_cons_self
      simp only [Doc.isBlank, Bool.or_eq_true, beq_iff_eq] at hb
      rcases hb with ((rfl | rfl) | rfl) | rfl <;> decide

end step

/-! ### Written documents are scanned -/

namespace Json

variable {L : Layout} {level : Nat}

theorem text_head (L : Layout) (level : Nat) {j : Json} {depth : Nat} (h : j.Ok depth) :
    ∃ c t, j.text L level = c :: t ∧ Doc.isBlank c = false ∧ c ≠ ']' := by
  cases j with
  | null => exact ⟨'n', _, rfl, by decide, by decide⟩
  | bool b => cases b <;> exact ⟨_, _, rfl, by decide, by decide⟩
  | str s => exact ⟨'"', _, rfl, by decide, by decide⟩
  | arr items => exact ⟨'[', _, rfl, by decide, by decide⟩
  | obj members => exact ⟨'{', _, rfl, by decide, by decide⟩
  | num lit =>
      obtain ⟨c, t, ht, hc⟩ := head_of_isLiteral h
      refine ⟨c, t, ht, ?_, ne_of_numberHead hc _ (by decide) (by decide)⟩
      simp only [Doc.isBlank, Bool.or_eq_false_iff, beq_eq_false_iff_ne]
      exact ⟨⟨⟨ne_of_numberHead hc _ (by decide) (by decide),
        ne_of_numberHead hc _ (by decide) (by decide)⟩,
        ne_of_numberHead hc _ (by decide) (by decide)⟩,
        ne_of_numberHead hc _ (by decide) (by decide)⟩

theorem skipBlanks_text {j : Json} {depth : Nat} (h : j.Ok depth) (rest : List Char) :
    Doc.skipBlanks (j.text L level ++ rest) = j.text L level ++ rest := by
  obtain ⟨c, t, hj, hc, -⟩ := text_head L level h
  rw [hj]
  exact skipBlanks_cons hc (t ++ rest)

theorem itemsText_last (j : Json) (rest : List Char) :
    itemsText L level [j] ++ rest =
      j.text L (level + 1) ++ (L.line level ++ ']' :: rest) := by
  rw [itemsText, itemsText, List.append_assoc, List.append_assoc]
  rfl

theorem itemsText_cons (j k : Json) (items : List Json) (rest : List Char) :
    itemsText L level (j :: k :: items) ++ rest =
      j.text L (level + 1) ++
        ',' :: (L.line (level + 1) ++ (itemsText L level (k :: items) ++ rest)) := by
  rw [itemsText, List.append_assoc, List.append_assoc]
  rfl

theorem membersText_last (k : String) (j : Json) (rest : List Char) :
    membersText L level [(k, j)] ++ rest =
      jsonString k ++ ':' :: (L.colon ++
        (j.text L (level + 1) ++ (L.line level ++ '}' :: rest))) := by
  rw [membersText, membersText, List.append_assoc, List.cons_append, List.append_assoc,
    List.append_assoc, List.append_assoc]
  rfl

theorem membersText_cons (k : String) (j : Json) (m : String × Json)
    (members : List (String × Json)) (rest : List Char) :
    membersText L level ((k, j) :: m :: members) ++ rest =
      jsonString k ++ ':' :: (L.colon ++ (j.text L (level + 1) ++
        ',' :: (L.line (level + 1) ++ (membersText L level (m :: members) ++ rest)))) := by
  rw [membersText, List.append_assoc, List.cons_append, List.append_assoc, List.append_assoc,
    List.append_assoc]
  rfl

theorem skipBlanks_itemsText {j : Json} {depth : Nat} (h : j.Ok depth) (items : List Json)
    (rest : List Char) : ∃ c t, itemsText L level (j :: items) ++ rest = c :: t ∧ c ≠ ']' ∧
      Doc.skipBlanks (L.line (level + 1) ++ (itemsText L level (j :: items) ++ rest)) = c :: t := by
  obtain ⟨c, t, hhead, hblank, hc⟩ := text_head L (level + 1) h
  have hcons : itemsText L level (j :: items) ++ rest =
      c :: (t ++ (L.next level items ++ itemsText L level items) ++ rest) := by
    rw [itemsText, hhead]
    rfl
  refine ⟨c, _, hcons, hc, ?_⟩
  rw [skipBlanks_append (L.blank_line _), hcons]
  exact skipBlanks_cons hblank _

theorem skipBlanks_line {c : Char} (hc : Doc.isBlank c = false) (rest : List Char) :
    Doc.skipBlanks (L.line level ++ c :: rest) = c :: rest := by
  rw [skipBlanks_append (L.blank_line _), skipBlanks_cons hc]

theorem skipBlanks_colon {j : Json} {depth : Nat} (h : j.Ok depth) (rest : List Char) :
    Doc.skipBlanks (L.colon ++ (j.text L level ++ rest)) = j.text L level ++ rest := by
  rw [skipBlanks_append L.blank_colon, skipBlanks_text h]

mutual

theorem scanValue_text : (j : Json) → ∀ {fuel depth level : Nat} {rest : List Char},
    j.Ok depth → 2 * (j.text L level).length ≤ fuel → endsNumber rest →
      ∃ d, Doc.scanValue fuel depth (j.text L level ++ rest) = some (d, rest) ∧ d.json = j
  | j, 0, depth, level, rest, hj, hfuel, _ => by
      obtain ⟨c, t, ht, -⟩ := text_head L level hj
      simp [ht] at hfuel
  | .null, fuel + 1, _, _, rest, _, _, _ => ⟨.null, rfl, rfl⟩
  | .bool true, fuel + 1, _, _, rest, _, _, _ => ⟨.bool true, rfl, rfl⟩
  | .bool false, fuel + 1, _, _, rest, _, _, _ => ⟨.bool false, rfl, rfl⟩
  | .num lit, fuel + 1, depth, _, rest, hj, _, hrest => by
      refine ⟨_, scanValue_literal hj fuel depth hrest, ?_⟩
      rw [Doc.json, String.toList_ofList]
  | .str s, fuel + 1, depth, _, rest, _, _, _ => by
      refine ⟨_, scanValue_str s fuel depth rest, ?_⟩
      rw [Doc.json, String.toList_ofList, unquote_escape, String.ofList_toList]
  | .arr [], fuel + 1, depth, _, rest, hj, _, _ =>
      ⟨_, scanValue_emptyArray hj.1 fuel rest, rfl⟩
  | .arr (j :: items), fuel + 1, depth, level, rest, hj, hfuel, _ => by
      obtain ⟨hdepth, hitems⟩ := hj
      rw [text, List.length_cons, List.length_append] at hfuel
      obtain ⟨ds, hds, hjson⟩ := @scanItems_text (j :: items) (by simp) fuel (depth - 1) level rest
        hitems (by omega)
      obtain ⟨c, t, hcons, hc, hskip⟩ := skipBlanks_itemsText hitems.1 items rest
      rw [hcons] at hds
      have hscan := scanValue_array hdepth hskip hc hds
      rw [text, List.cons_append, List.append_assoc]
      exact ⟨_, hscan, by rw [Doc.json, hjson]⟩
  | .obj [], fuel + 1, depth, _, rest, hj, _, _ =>
      ⟨_, scanValue_emptyObject hj.1 fuel rest, rfl⟩
  | .obj ((k, j) :: members), fuel + 1, depth, level, rest, hj, hfuel, _ => by
      obtain ⟨hdepth, hmembers⟩ := hj
      rw [text, List.length_cons, List.length_append] at hfuel
      obtain ⟨ms, hms, hjson⟩ := @scanMembers_text ((k, j) :: members) (by simp) fuel (depth - 1)
        level rest hmembers (by omega)
      have hskip : Doc.skipBlanks (L.line (level + 1) ++
          (membersText L level ((k, j) :: members) ++ rest)) =
          membersText L level ((k, j) :: members) ++ rest := by
        rw [skipBlanks_append (L.blank_line _), membersText, jsonString]
        exact skipBlanks_cons (by decide) _
      have hscan := scanValue_object hdepth hskip (by decide) hms
      rw [text, List.cons_append, List.append_assoc]
      exact ⟨_, hscan, by rw [Doc.json, hjson]⟩

theorem scanItems_text : (items : List Json) → items ≠ [] → ∀ {fuel depth level : Nat}
    {rest : List Char}, ItemsOk items depth → 2 * (itemsText L level items).length ≤ fuel →
      ∃ ds, Doc.scanItems fuel depth (itemsText L level items ++ rest) = some (ds, rest) ∧
        Doc.jsonItems ds = items
  | [], hne, _, _, _, _, _, _ => absurd rfl hne
  | j :: items, _, 0, _, level, _, hitems, hfuel => by
      obtain ⟨c, t, ht, -⟩ := text_head L (level + 1) hitems.1
      rw [itemsText, ht] at hfuel
      simp at hfuel
  | [j], _, fuel + 1, depth, level, rest, hitems, hfuel => by
      have hlen := congrArg List.length (@itemsText_last L level j [])
      simp only [List.length_append, List.length_cons, List.length_nil] at hlen
      obtain ⟨d, hd, hjson⟩ := @scanValue_text j fuel depth (level + 1)
        (L.line level ++ ']' :: rest) hitems.1 (by omega)
        (endsNumber_blanks (L.blank_line _) (by decide) rest)
      rw [← skipBlanks_text hitems.1] at hd
      rw [itemsText_last]
      refine ⟨[d], scanItems_last hd (skipBlanks_line (by decide) rest), ?_⟩
      rw [Doc.jsonItems, Doc.jsonItems, hjson]
  | j :: k :: items, _, fuel + 1, depth, level, rest, hitems, hfuel => by
      have hlen := congrArg List.length (@itemsText_cons L level j k items [])
      simp only [List.length_append, List.length_cons, List.length_nil] at hlen
      obtain ⟨d, hd, hjson⟩ := @scanValue_text j fuel depth (level + 1)
        (',' :: (L.line (level + 1) ++ (itemsText L level (k :: items) ++ rest))) hitems.1
        (by omega) (endsNumber_cons (by decide) _)
      obtain ⟨ds, hds, hrest⟩ := @scanItems_text (k :: items) (by simp) fuel depth level rest
        hitems.2 (by omega)
      rw [← skipBlanks_text hitems.1] at hd
      rw [itemsText_cons]
      refine ⟨d :: ds, ?_, ?_⟩
      · rw [scanItems_comma hd (skipBlanks_cons (by decide) _),
          scanItems_blanks (L.blank_line _), hds]
        rfl
      · rw [Doc.jsonItems, hjson, hrest]

theorem scanMembers_text : (members : List (String × Json)) → members ≠ [] →
    ∀ {fuel depth level : Nat} {rest : List Char}, MembersOk members depth →
      2 * (membersText L level members).length ≤ fuel →
      ∃ ms, Doc.scanMembers fuel depth (membersText L level members ++ rest) = some (ms, rest) ∧
        Doc.jsonMembers ms = members
  | [], hne, _, _, _, _, _, _ => absurd rfl hne
  | (k, j) :: members, _, 0, _, level, _, _, hfuel => by
      rw [membersText, List.length_append, List.length_cons] at hfuel
      omega
  | [(k, j)], _, fuel + 1, depth, level, rest, hmembers, hfuel => by
      have hlen := congrArg List.length (@membersText_last L level k j [])
      simp only [List.length_append, List.length_cons, List.length_nil] at hlen
      obtain ⟨d, hd, hjson⟩ := @scanValue_text j fuel depth (level + 1)
        (L.line level ++ '}' :: rest) hmembers.1 (by omega)
        (endsNumber_blanks (L.blank_line _) (by decide) rest)
      rw [← skipBlanks_colon hmembers.1] at hd
      rw [membersText_last]
      refine ⟨[(k, d)], scanMembers_last hd (skipBlanks_line (by decide) rest), ?_⟩
      rw [Doc.jsonMembers, Doc.jsonMembers, hjson]
  | (k, j) :: m :: members, _, fuel + 1, depth, level, rest, hmembers, hfuel => by
      have hlen := congrArg List.length (@membersText_cons L level k j m members [])
      simp only [List.length_append, List.length_cons, List.length_nil] at hlen
      obtain ⟨d, hd, hjson⟩ := @scanValue_text j fuel depth (level + 1)
        (',' :: (L.line (level + 1) ++ (membersText L level (m :: members) ++ rest))) hmembers.1
        (by omega) (endsNumber_cons (by decide) _)
      obtain ⟨ms, hms, hrest⟩ := @scanMembers_text (m :: members) (by simp) fuel depth level rest
        hmembers.2 (by omega)
      rw [← skipBlanks_colon hmembers.1] at hd
      rw [membersText_cons]
      refine ⟨(k, d) :: ms, ?_, ?_⟩
      · rw [scanMembers_comma hd (skipBlanks_cons (by decide) _),
          scanMembers_blanks (L.blank_line _), hms]
        rfl
      · rw [Doc.jsonMembers, hjson, hrest]

end

/-- **What is written is scanned**, and says what was written. -/
theorem scan_text {j : Json} (hj : j.Ok Doc.maxNestingDepth) :
    ∃ d, Doc.scan (j.text L level) = some d ∧ d.json = j := by
  have hends : endsNumber [] := fun c hc => by cases hc
  obtain ⟨d, hd, hjson⟩ := @scanValue_text L j (2 * (j.text L level).length + 2) _ level [] hj
    (by omega) hends
  have hblank := @skipBlanks_text L level j _ hj []
  rw [List.append_nil] at hd hblank
  refine ⟨d, ?_, hjson⟩
  unfold Doc.scan
  rw [hblank, hd]
  rfl

theorem eq_of_text_eq {i j : Json} (hi : i.Ok Doc.maxNestingDepth) (hj : j.Ok Doc.maxNestingDepth)
    (h : i.text L level = j.text L level) : i = j := by
  obtain ⟨d, hd, rfl⟩ := @scan_text L level i hi
  obtain ⟨d', hd', rfl⟩ := @scan_text L level j hj
  rw [h, hd'] at hd
  rw [Option.some.inj hd]

end Json

end EvidraBench.Gostd
