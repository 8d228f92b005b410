import EvidraBench.Gostd.Strings

/-!
# `encoding/hex`, `encoding/base64` and UTF-8

Results: `hexEncode_injective`, `base64Decode_encode`, `decodeUtf8_bytesOf`.
-/

namespace EvidraBench.Gostd

/-! ### Hexadecimal -/

def hexOctet (b : UInt8) : List Char := [hexChar (b.toNat / 16), hexChar (b.toNat % 16)]

/-- `hex.EncodeToString`. -/
def hexEncode (data : Bytes) : String := String.ofList (data.flatMap hexOctet)

theorem hexChar_inj : ∀ m < 16, ∀ n < 16, hexChar m = hexChar n → m = n := by decide

theorem hexOctet_inj {a b : UInt8} (h : hexOctet a = hexOctet b) : a = b := by
  obtain ⟨hhigh, hlow⟩ : hexChar (a.toNat / 16) = hexChar (b.toNat / 16) ∧
      hexChar (a.toNat % 16) = hexChar (b.toNat % 16) := by simpa [hexOctet] using h
  have ha := a.toNat_lt
  have hb := b.toNat_lt
  have hdiv := hexChar_inj _ (by omega) _ (by omega) hhigh
  have hmod := hexChar_inj _ (by omega) _ (by omega) hlow
  apply UInt8.toNat_inj.mp
  omega

theorem flatMap_hexOctet_inj : ∀ {a b : Bytes}, a.flatMap hexOctet = b.flatMap hexOctet → a = b
  | [], [], _ => rfl
  | [], _ :: _, h => by simp [hexOctet] at h
  | _ :: _, [], h => by simp [hexOctet] at h
  | x :: a, y :: b, h => by
      rw [List.flatMap_cons, List.flatMap_cons] at h
      obtain ⟨hhead, htail⟩ := List.append_inj h rfl
      rw [hexOctet_inj hhead, flatMap_hexOctet_inj htail]

theorem hexEncode_injective : Function.Injective hexEncode := by
  intro a b h
  exact flatMap_hexOctet_inj (String.ofList_injective h)

/-! ### Base 64 -/

def sextetChar (n : Nat) : Char :=
  if n < 26 then Char.ofNat (65 + n)
  else if n < 52 then Char.ofNat (71 + n)
  else if n < 62 then Char.ofNat (n - 4)
  else if n = 62 then '+' else '/'

def sextet (c : Char) : Option Nat :=
  if 'A' ≤ c && c ≤ 'Z' then some (c.toNat - 65)
  else if 'a' ≤ c && c ≤ 'z' then some (c.toNat - 71)
  else if '0' ≤ c && c ≤ '9' then some (c.toNat + 4)
  else if c = '+' then some 62
  else if c = '/' then some 63
  else none

theorem sextet_sextetChar : ∀ n < 64, sextet (sextetChar n) = some n := by decide

theorem sextetChar_plain : ∀ n < 64,
    sextetChar n ≠ '=' ∧ sextetChar n ≠ '\n' ∧ sextetChar n ≠ '\r' := by decide

/-- Three octets as four characters, the last group padded. -/
def base64Chars : Bytes → List Char
  | [] => []
  | [a] => [sextetChar (a.toNat / 4), sextetChar (a.toNat % 4 * 16), '=', '=']
  | [a, b] =>
      [sextetChar (a.toNat / 4), sextetChar (a.toNat % 4 * 16 + b.toNat / 16),
        sextetChar (b.toNat % 16 * 4), '=']
  | a :: b :: c :: rest =>
      sextetChar (a.toNat / 4) :: sextetChar (a.toNat % 4 * 16 + b.toNat / 16) ::
        sextetChar (b.toNat % 16 * 4 + c.toNat / 64) :: sextetChar (c.toNat % 64) ::
          base64Chars rest

/-- `base64.StdEncoding.EncodeToString`. -/
def base64Encode (data : Bytes) : String := String.ofList (base64Chars data)

/-- Four characters as three octets, or fewer in a padded group. -/
def base64Octets : List Char → Option Bytes
  | [] => some []
  | w :: x :: y :: z :: rest => do
      let w ← sextet w
      let x ← sextet x
      if z = '=' ∧ rest = [] then
        if y = '=' then return [UInt8.ofNat (w * 4 + x / 16)]
        let y ← sextet y
        return [UInt8.ofNat (w * 4 + x / 16), UInt8.ofNat (x % 16 * 16 + y / 4)]
      let y ← sextet y
      let z ← sextet z
      let rest ← base64Octets rest
      return UInt8.ofNat (w * 4 + x / 16) :: UInt8.ofNat (x % 16 * 16 + y / 4) ::
        UInt8.ofNat (y % 4 * 64 + z) :: rest
  | _ => none

/-- `base64.StdEncoding.DecodeString`. -/
def base64Decode (s : String) : Option Bytes :=
  base64Octets (s.toList.filter fun c => c ≠ '\n' ∧ c ≠ '\r')

theorem ofNat_of_toNat_eq (b : UInt8) {n : Nat} (h : n = b.toNat) : UInt8.ofNat n = b := by
  rw [h, UInt8.ofNat_toNat]

theorem base64Octets_chars : ∀ data : Bytes, base64Octets (base64Chars data) = some data
  | [] => rfl
  | [a] => by
      have ha := a.toNat_lt
      simp only [base64Chars, base64Octets, sextet_sextetChar _ (show a.toNat / 4 < 64 by omega),
        sextet_sextetChar _ (show a.toNat % 4 * 16 < 64 by omega), Option.bind_eq_bind,
        Option.bind_some, and_self, if_true]
      rw [ofNat_of_toNat_eq a (by omega)]
      rfl
  | [a, b] => by
      have ha := a.toNat_lt
      have hb := b.toNat_lt
      have hpad := (sextetChar_plain (b.toNat % 16 * 4) (by omega)).1
      simp only [base64Chars, base64Octets, sextet_sextetChar _ (show a.toNat / 4 < 64 by omega),
        sextet_sextetChar _ (show a.toNat % 4 * 16 + b.toNat / 16 < 64 by omega),
        sextet_sextetChar _ (show b.toNat % 16 * 4 < 64 by omega), Option.bind_eq_bind,
        Option.bind_some, and_self, if_true, if_neg hpad]
      rw [ofNat_of_toNat_eq a (by omega), ofNat_of_toNat_eq b (by omega)]
      rfl
  | a :: b :: c :: rest => by
      have ha := a.toNat_lt
      have hb := b.toNat_lt
      have hc := c.toNat_lt
      have hpad := (sextetChar_plain (c.toNat % 64) (by omega)).1
      simp only [base64Chars, base64Octets, sextet_sextetChar _ (show a.toNat / 4 < 64 by omega),
        sextet_sextetChar _ (show a.toNat % 4 * 16 + b.toNat / 16 < 64 by omega),
        sextet_sextetChar _ (show b.toNat % 16 * 4 + c.toNat / 64 < 64 by omega),
        sextet_sextetChar _ (show c.toNat % 64 < 64 by omega), Option.bind_eq_bind,
        Option.bind_some, hpad, false_and, if_false, base64Octets_chars rest]
      rw [ofNat_of_toNat_eq a (by omega), ofNat_of_toNat_eq b (by omega),
        ofNat_of_toNat_eq c (by omega)]
      rfl

theorem base64Chars_plain : ∀ data : Bytes, ∀ c ∈ base64Chars data, c ≠ '\n' ∧ c ≠ '\r'
  | [], c, h => by simp [base64Chars] at h
  | [a], c, h => by
      have ha := a.toNat_lt
      simp only [base64Chars, List.mem_cons, List.not_mem_nil, or_false] at h
      rcases h with rfl | rfl | rfl | rfl
      · exact (sextetChar_plain _ (by omega)).2
      · exact (sextetChar_plain _ (by omega)).2
      · decide
      · decide
  | [a, b], c, h => by
      have ha := a.toNat_lt
      have hb := b.toNat_lt
      simp only [base64Chars, List.mem_cons, List.not_mem_nil, or_false] at h
      rcases h with rfl | rfl | rfl | rfl
      · exact (sextetChar_plain _ (by omega)).2
      · exact (sextetChar_plain _ (by omega)).2
      · exact (sextetChar_plain _ (by omega)).2
      · decide
  | a :: b :: c' :: rest, c, h => by
      have ha := a.toNat_lt
      have hb := b.toNat_lt
      have hc := c'.toNat_lt
      simp only [base64Chars, List.mem_cons] at h
      rcases h with rfl | rfl | rfl | rfl | h
      · exact (sextetChar_plain _ (by omega)).2
      · exact (sextetChar_plain _ (by omega)).2
      · exact (sextetChar_plain _ (by omega)).2
      · exact (sextetChar_plain _ (by omega)).2
      · exact base64Chars_plain rest c h

theorem base64Decode_encode (data : Bytes) : base64Decode (base64Encode data) = some data := by
  rw [base64Decode, base64Encode, String.toList_ofList, List.filter_eq_self.mpr, base64Octets_chars]
  intro c hc
  exact decide_eq_true (base64Chars_plain data c hc)

/-! ### Base 64 without padding, in the alphabet for URLs -/

def urlChar (c : Char) : Char := if c = '+' then '-' else if c = '/' then '_' else c

/-- The character of the standard alphabet, for one that a text without padding may have. -/
def stdChar (c : Char) : Option Char :=
  if c = '-' then some '+'
  else if c = '_' then some '/'
  else if c = '+' ∨ c = '/' ∨ c = '=' then none
  else some c

def padding (n : Nat) : List Char :=
  if n % 4 = 2 then ['=', '='] else if n % 4 = 3 then ['='] else []

/-- `base64.RawURLEncoding.EncodeToString`. -/
def rawURLEncode (data : Bytes) : Bytes :=
  ((base64Chars data).filter (· ≠ '=')).map fun c => UInt8.ofNat (urlChar c).toNat

/-- `base64.RawURLEncoding.DecodeString`: line ends are ignored, and so are the unused bits of the
last character. -/
def rawURLDecode (text : Bytes) : Option Bytes := do
  let chars := (text.map fun b => Char.ofNat b.toNat).filter fun c => c ≠ '\n' ∧ c ≠ '\r'
  let std ← chars.mapM stdChar
  base64Octets (std ++ padding std.length)

theorem sextetChar_url : ∀ n < 64, stdChar (urlChar (sextetChar n)) = some (sextetChar n) ∧
    Char.ofNat (UInt8.ofNat (urlChar (sextetChar n)).toNat).toNat = urlChar (sextetChar n) ∧
    urlChar (sextetChar n) ≠ '\n' ∧ urlChar (sextetChar n) ≠ '\r' ∧
    UInt8.ofNat (urlChar (sextetChar n)).toNat ≠ 46 := by decide

theorem base64Chars_eq : ∀ data : Bytes, ∃ body : List Char,
    base64Chars data = body ++ padding body.length ∧ ∀ c ∈ body, ∃ n < 64, c = sextetChar n
  | [] => ⟨[], rfl, by simp⟩
  | [a] => by
      have ha := a.toNat_lt
      refine ⟨[sextetChar (a.toNat / 4), sextetChar (a.toNat % 4 * 16)], rfl, ?_⟩
      simp only [List.mem_cons, List.not_mem_nil, or_false, forall_eq_or_imp, forall_eq]
      exact ⟨⟨_, by omega, rfl⟩, ⟨_, by omega, rfl⟩⟩
  | [a, b] => by
      have ha := a.toNat_lt
      have hb := b.toNat_lt
      refine ⟨[sextetChar (a.toNat / 4), sextetChar (a.toNat % 4 * 16 + b.toNat / 16),
        sextetChar (b.toNat % 16 * 4)], rfl, ?_⟩
      simp only [List.mem_cons, List.not_mem_nil, or_false, forall_eq_or_imp, forall_eq]
      exact ⟨⟨_, by omega, rfl⟩, ⟨_, by omega, rfl⟩, ⟨_, by omega, rfl⟩⟩
  | a :: b :: c :: rest => by
      have ha := a.toNat_lt
      have hb := b.toNat_lt
      have hc := c.toNat_lt
      obtain ⟨body, hbody, hsextets⟩ := base64Chars_eq rest
      refine ⟨sextetChar (a.toNat / 4) :: sextetChar (a.toNat % 4 * 16 + b.toNat / 16) ::
        sextetChar (b.toNat % 16 * 4 + c.toNat / 64) :: sextetChar (c.toNat % 64) :: body, ?_, ?_⟩
      · rw [base64Chars, hbody]
        simp only [padding, List.length_cons, List.cons_append, Nat.add_assoc, Nat.reduceAdd,
          Nat.add_mod_right]
      · simp only [List.mem_cons, forall_eq_or_imp]
        exact ⟨⟨_, by omega, rfl⟩, ⟨_, by omega, rfl⟩, ⟨_, by omega, rfl⟩, ⟨_, by omega, rfl⟩,
          hsextets⟩

theorem rawURLEncode_eq (data : Bytes) : ∃ body : List Char,
    base64Chars data = body ++ padding body.length ∧ (∀ c ∈ body, ∃ n < 64, c = sextetChar n) ∧
      rawURLEncode data = body.map fun c => UInt8.ofNat (urlChar c).toNat := by
  obtain ⟨body, hbody, hsextets⟩ := base64Chars_eq data
  refine ⟨body, hbody, hsextets, ?_⟩
  have hkeep : body.filter (· ≠ '=') = body := by
    refine List.filter_eq_self.mpr fun c hc => ?_
    obtain ⟨n, hn, rfl⟩ := hsextets c hc
    exact decide_eq_true (sextetChar_plain n hn).1
  have hdrop : (padding body.length).filter (· ≠ '=') = [] := by
    unfold padding
    split_ifs <;> rfl
  unfold rawURLEncode
  rw [hbody, List.filter_append, hkeep, hdrop, List.append_nil]

/-- **What was encoded is decoded.** -/
theorem rawURLDecode_encode (data : Bytes) : rawURLDecode (rawURLEncode data) = some data := by
  obtain ⟨body, hbody, hsextets, hencoded⟩ := rawURLEncode_eq data
  have hchars : (rawURLEncode data).map (fun b => Char.ofNat b.toNat) = body.map urlChar := by
    rw [hencoded, List.map_map]
    refine List.map_congr_left fun c hc => ?_
    obtain ⟨n, hn, rfl⟩ := hsextets c hc
    exact (sextetChar_url n hn).2.1
  have hplain : (body.map urlChar).filter (fun c => c ≠ '\n' ∧ c ≠ '\r') = body.map urlChar := by
    refine List.filter_eq_self.mpr fun c hc => ?_
    obtain ⟨c, hbody, rfl⟩ := List.mem_map.mp hc
    obtain ⟨n, hn, rfl⟩ := hsextets c hbody
    obtain ⟨-, -, hnewline, hreturn, -⟩ := sextetChar_url n hn
    exact decide_eq_true ⟨hnewline, hreturn⟩
  have hstd : (body.map urlChar).mapM stdChar = some body := by
    clear hbody hencoded hchars hplain
    induction body with
    | nil => rfl
    | cons c body ih =>
        obtain ⟨n, hn, hc⟩ := hsextets c List.mem_cons_self
        rw [List.map_cons, List.mapM_cons, hc, (sextetChar_url n hn).1,
          ih fun c hc => hsextets c (List.mem_cons_of_mem _ hc)]
        rfl
  unfold rawURLDecode
  simp only [hchars, hplain, hstd, Option.bind_eq_bind, Option.bind_some]
  rw [← hbody, base64Octets_chars]

theorem dot_notMem_rawURLEncode (data : Bytes) : (46 : UInt8) ∉ rawURLEncode data := by
  obtain ⟨body, -, hsextets, hencoded⟩ := rawURLEncode_eq data
  rw [hencoded]
  intro hmem
  obtain ⟨c, hc, hdot⟩ := List.mem_map.mp hmem
  obtain ⟨n, hn, rfl⟩ := hsextets c hc
  exact (sextetChar_url n hn).2.2.2.2 hdot

theorem rawURLEncode_injective : Function.Injective rawURLEncode := by
  intro a b h
  have hread := rawURLDecode_encode a
  rw [h, rawURLDecode_encode] at hread
  exact (Option.some.inj hread).symm

/-! ### UTF-8 -/

theorem bytesOf_eq (s : String) : bytesOf s = s.toList.flatMap String.utf8EncodeChar := by
  unfold bytesOf
  rw [← String.utf8Encode_toList, List.utf8Encode, List.data_toByteArray]

section octets

variable {m n : Nat}

theorem toNat_ofNat_octet (hn : n < 256) : (UInt8.ofNat n).toNat = n := by
  rw [UInt8.toNat_ofNat']
  omega

theorem le_ofNat_octet {b : UInt8} (hn : n < 256) : b ≤ UInt8.ofNat n ↔ b.toNat ≤ n := by
  rw [UInt8.le_iff_toNat_le, toNat_ofNat_octet hn]

theorem ofNat_octet_le {b : UInt8} (hn : n < 256) : UInt8.ofNat n ≤ b ↔ n ≤ b.toNat := by
  rw [UInt8.le_iff_toNat_le, toNat_ofNat_octet hn]

theorem ofNat_octet_lt {b : UInt8} (hn : n < 256) : UInt8.ofNat n < b ↔ n < b.toNat := by
  rw [UInt8.lt_iff_toNat_lt, toNat_ofNat_octet hn]

theorem isTail_ofNat (hlo : 128 ≤ n) (hhi : n < 192) : isTail (UInt8.ofNat n) = true := by
  have hn : n < 256 := by omega
  simp only [isTail, le_ofNat_octet hn, ofNat_octet_le hn, Bool.and_eq_true_iff, decide_eq_true_iff]
  exact ⟨hlo, Nat.le_of_lt_succ hhi⟩

theorem secondOk_ofNat (hm : m < 256) (hlo : 128 ≤ n) (hhi : n < 192)
    (h : (m = 0xE0 → 0xA0 ≤ n) ∧ (m = 0xED → n ≤ 0x9F) ∧ (m = 0xF0 → 0x90 ≤ n) ∧
      (m = 0xF4 → n ≤ 0x8F)) : secondOk (UInt8.ofNat m) (UInt8.ofNat n) = true := by
  have hn : n < 256 := by omega
  have heq : ∀ b : UInt8, UInt8.ofNat m = b ↔ m = b.toNat := by
    intro b
    rw [← UInt8.toNat_inj, toNat_ofNat_octet hm]
  unfold secondOk
  simp only [heq, le_ofNat_octet hn, ofNat_octet_le hn, isTail_ofNat hlo hhi, UInt8.reduceToNat]
  split_ifs
  · simp only [Bool.and_eq_true_iff, decide_eq_true_iff]
    omega
  · simp only [Bool.and_eq_true_iff, decide_eq_true_iff]
    omega
  · simp only [Bool.and_eq_true_iff, decide_eq_true_iff]
    omega
  · simp only [Bool.and_eq_true_iff, decide_eq_true_iff]
    omega
  · rfl

variable {b c d e : Nat} (rest : Bytes)

theorem decodeUtf8_one (hb : b < 0x80) :
    decodeUtf8 (UInt8.ofNat b :: rest) = Char.ofNat b :: decodeUtf8 rest := by
  have hoctet : b < 256 := by omega
  rw [decodeUtf8.eq_def]
  simp only [ofNat_octet_lt hoctet, toNat_ofNat_octet hoctet, UInt8.reduceToNat, hb, if_true]

theorem decodeUtf8_two (hb : 0xC2 ≤ b ∧ b ≤ 0xDF) (hc : 128 ≤ c ∧ c < 192) :
    decodeUtf8 (UInt8.ofNat b :: UInt8.ofNat c :: rest) =
      Char.ofNat ((b - 0xC0) * 64 + (c - 0x80)) :: decodeUtf8 rest := by
  have hoctet : b < 256 := by omega
  rw [decodeUtf8.eq_def]
  simp only [ofNat_octet_lt hoctet, le_ofNat_octet hoctet, ofNat_octet_le hoctet,
    isTail_ofNat hc.1 hc.2, UInt8.reduceToNat, show ¬ b < 128 by omega, hb.1, hb.2, decide_true,
    Bool.and_self, if_false, if_true, runeOf, List.foldl_cons, List.foldl_nil,
    toNat_ofNat_octet hoctet, toNat_ofNat_octet (show c < 256 by omega)]

theorem decodeUtf8_three (hb : 0xE0 ≤ b ∧ b ≤ 0xEF) (hc : 128 ≤ c ∧ c < 192)
    (hd : 128 ≤ d ∧ d < 192) (hsecond : (b = 0xE0 → 0xA0 ≤ c) ∧ (b = 0xED → c ≤ 0x9F)) :
    decodeUtf8 (UInt8.ofNat b :: UInt8.ofNat c :: UInt8.ofNat d :: rest) =
      Char.ofNat (((b - 0xE0) * 64 + (c - 0x80)) * 64 + (d - 0x80)) :: decodeUtf8 rest := by
  have hoctet : b < 256 := by omega
  rw [decodeUtf8.eq_def]
  simp only [ofNat_octet_lt hoctet, le_ofNat_octet hoctet, ofNat_octet_le hoctet,
    isTail_ofNat hc.1 hc.2, isTail_ofNat hd.1 hd.2,
    secondOk_ofNat hoctet hc.1 hc.2 (by omega), UInt8.reduceToNat, show ¬ b < 128 by omega,
    show ¬ b ≤ 223 by omega, hb.1, hb.2, decide_true, decide_false, Bool.and_false,
    Bool.false_and, Bool.and_self, Bool.false_eq_true, if_false, if_true, runeOf, List.foldl_cons,
    List.foldl_nil, toNat_ofNat_octet hoctet, toNat_ofNat_octet (show c < 256 by omega),
    toNat_ofNat_octet (show d < 256 by omega)]

theorem decodeUtf8_four (hb : 0xF0 ≤ b ∧ b ≤ 0xF4) (hc : 128 ≤ c ∧ c < 192)
    (hd : 128 ≤ d ∧ d < 192) (he : 128 ≤ e ∧ e < 192)
    (hsecond : (b = 0xF0 → 0x90 ≤ c) ∧ (b = 0xF4 → c ≤ 0x8F)) :
    decodeUtf8 (UInt8.ofNat b :: UInt8.ofNat c :: UInt8.ofNat d :: UInt8.ofNat e :: rest) =
      Char.ofNat ((((b - 0xF0) * 64 + (c - 0x80)) * 64 + (d - 0x80)) * 64 + (e - 0x80)) ::
        decodeUtf8 rest := by
  have hoctet : b < 256 := by omega
  rw [decodeUtf8.eq_def]
  simp only [ofNat_octet_lt hoctet, le_ofNat_octet hoctet, ofNat_octet_le hoctet,
    isTail_ofNat hc.1 hc.2, isTail_ofNat hd.1 hd.2, isTail_ofNat he.1 he.2,
    secondOk_ofNat hoctet hc.1 hc.2 (by omega), UInt8.reduceToNat, show ¬ b < 128 by omega,
    show ¬ b ≤ 223 by omega, show ¬ b ≤ 239 by omega, hb.1, hb.2, decide_true, decide_false,
    Bool.and_false, Bool.false_and, Bool.and_self, Bool.false_eq_true, if_false, if_true, runeOf,
    List.foldl_cons, List.foldl_nil, toNat_ofNat_octet hoctet,
    toNat_ofNat_octet (show c < 256 by omega), toNat_ofNat_octet (show d < 256 by omega),
    toNat_ofNat_octet (show e < 256 by omega)]

end octets

theorem decodeUtf8_utf8EncodeChar (c : Char) (rest : Bytes) :
    decodeUtf8 (String.utf8EncodeChar c ++ rest) = c :: decodeUtf8 rest := by
  have hvalid : c.toNat < 0xD800 ∨ 0xDFFF < c.toNat ∧ c.toNat < 0x110000 := c.valid
  have hread : ∀ n, n = c.toNat → Char.ofNat n = c := by
    rintro n rfl
    exact Char.ofNat_toNat c
  rw [String.utf8EncodeChar]
  simp only [Char.toNat_val]
  split_ifs with h1 h2 h3
  · rw [List.singleton_append, decodeUtf8_one rest (by omega), hread _ rfl]
  · rw [List.cons_append, List.singleton_append, decodeUtf8_two rest (by omega) (by omega),
      hread _ (by omega)]
  · rw [List.cons_append, List.cons_append, List.singleton_append,
      decodeUtf8_three rest (by omega) (by omega) (by omega) (by omega), hread _ (by omega)]
  · rw [List.cons_append, List.cons_append, List.cons_append, List.singleton_append,
      decodeUtf8_four rest (by omega) (by omega) (by omega) (by omega) (by omega),
      hread _ (by omega)]

/-- **The octets of a text are read as that text.** -/
theorem decodeUtf8_bytesOf (s : String) : decodeUtf8 (bytesOf s) = s.toList := by
  rw [bytesOf_eq]
  induction s.toList with
  | nil => rw [List.flatMap_nil, decodeUtf8]
  | cons c cs ih => rw [List.flatMap_cons, decodeUtf8_utf8EncodeChar, ih]

end EvidraBench.Gostd
