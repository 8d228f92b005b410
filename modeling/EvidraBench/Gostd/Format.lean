import EvidraBench.Gostd.Unmarshal

/-!
# Numbers as their text

The conversions `encoding/json` makes when it writes a number, and that they are undone by the
conversions of `Gostd.Scalars`.

Results: `parseInt64_formatInt`, `parseFloat_formatFloat`.

The search for the shortest decimal ends at 17 digits at the latest. That is a fact about binary64
which nothing here needs: the search is followed by the exact decimal expansion, which is read back
too (`reads_exactText`).
-/

namespace EvidraBench.Gostd

/-! ### Literals and what follows them -/

def endsNumber (rest : List Char) : Prop :=
  ∀ c ∈ rest.head?, c.isDigit = false ∧ c ≠ '.' ∧ c ≠ 'e' ∧ c ≠ 'E'

def isLiteral (t : List Char) : Bool := Doc.scanNumber t == some (t, [])

section scan

variable {s lit r rest : List Char}

theorem takeWhile_digits_eq_nil (hrest : endsNumber rest) : rest.takeWhile Char.isDigit = [] := by
  cases rest with
  | nil => rfl
  | cons c rest => exact List.takeWhile_cons_of_neg (by simp [(hrest c rfl).1])

theorem span_digits_append (hrest : endsNumber rest) (h : s.span Char.isDigit = (lit, r)) :
    (s ++ rest).span Char.isDigit = (lit, r ++ rest) := by
  rw [List.span_eq_takeWhile_dropWhile] at h ⊢
  obtain ⟨rfl, rfl⟩ := Prod.mk.inj h
  induction s with
  | nil =>
      have hdrop : rest.dropWhile Char.isDigit = rest := by
        have := @List.takeWhile_append_dropWhile _ Char.isDigit rest
        rwa [takeWhile_digits_eq_nil hrest, List.nil_append] at this
      simp [takeWhile_digits_eq_nil hrest, hdrop]
  | cons c s ih =>
      by_cases hc : c.isDigit
      · have ih := Prod.mk.inj (ih rfl)
        simp [hc, ih.1, ih.2]
      · simp [hc]

theorem scanDigits_append (hrest : endsNumber rest) (h : Doc.scanDigits s = some (lit, r)) :
    Doc.scanDigits (s ++ rest) = some (lit, r ++ rest) := by
  unfold Doc.scanDigits at h ⊢
  rcases hspan : s.span Char.isDigit with ⟨ds, r'⟩
  rw [span_digits_append hrest hspan]
  rw [hspan] at h
  cases ds with
  | nil => cases h
  | cons d ds =>
      simp only [Option.some.injEq, Prod.mk.injEq] at h ⊢
      exact ⟨h.1, by rw [h.2]⟩

theorem scanInt_of_ne {c : Char} (hc : c ≠ '0') (s : List Char) :
    Doc.scanInt (c :: s) = Doc.scanDigits (c :: s) := by
  unfold Doc.scanInt
  split
  · rename_i heq
    exact absurd (List.cons.inj heq).1 hc
  · rfl

theorem scanInt_append (hrest : endsNumber rest) (h : Doc.scanInt s = some (lit, r)) :
    Doc.scanInt (s ++ rest) = some (lit, r ++ rest) := by
  cases s with
  | nil => simp [Doc.scanInt, Doc.scanDigits, List.span_eq_takeWhile_dropWhile] at h
  | cons c s =>
      by_cases hc : c = '0'
      · subst hc
        simp only [Doc.scanInt, Option.some.injEq, Prod.mk.injEq] at h
        obtain ⟨rfl, rfl⟩ := h
        rfl
      · rw [scanInt_of_ne hc] at h
        rw [List.cons_append, scanInt_of_ne hc, ← List.cons_append]
        exact scanDigits_append hrest h

theorem map_scanDigits_append {g : List Char → List Char} (hrest : endsNumber rest)
    (h : (Doc.scanDigits s).map (fun p => (g p.1, p.2)) = some (lit, r)) :
    (Doc.scanDigits (s ++ rest)).map (fun p => (g p.1, p.2)) = some (lit, r ++ rest) := by
  obtain ⟨p, hp, hlit⟩ := Option.map_eq_some_iff.mp h
  obtain ⟨rfl, rfl⟩ := Prod.mk.inj hlit
  rw [scanDigits_append hrest hp]
  rfl

theorem scanFrac_append (hrest : endsNumber rest) (h : Doc.scanFrac s = some (lit, r)) :
    Doc.scanFrac (s ++ rest) = some (lit, r ++ rest) := by
  unfold Doc.scanFrac at h
  split at h
  · exact map_scanDigits_append (g := List.cons '.') hrest h
  · rename_i hdot
    simp only [Option.some.injEq, Prod.mk.injEq] at h
    obtain ⟨rfl, rfl⟩ := h
    unfold Doc.scanFrac
    split
    · rename_i rest' heq
      cases s with
      | nil =>
          rw [List.nil_append] at heq
          exact absurd rfl (hrest '.' (by rw [heq]; rfl)).2.1
      | cons c s =>
          rw [List.cons_append, List.cons.injEq] at heq
          exact absurd (by rw [heq.1]) (hdot s)
    · rfl

theorem scanExp_append (hrest : endsNumber rest) (h : Doc.scanExp s = some (lit, r)) :
    Doc.scanExp (s ++ rest) = some (lit, r ++ rest) := by
  cases s with
  | nil =>
      simp only [Doc.scanExp, Option.some.injEq, Prod.mk.injEq] at h
      obtain ⟨rfl, rfl⟩ := h
      cases rest with
      | nil => rfl
      | cons c rest =>
          obtain ⟨-, -, he, hE⟩ := hrest c rfl
          simp [Doc.scanExp, he, hE]
  | cons c s =>
      rw [List.cons_append]
      simp only [Doc.scanExp] at h ⊢
      by_cases he : (c == 'e' || c == 'E') = true
      · rw [if_pos he] at h ⊢
        split at h
        · exact map_scanDigits_append (g := fun ds => c :: '+' :: ds) hrest h
        · exact map_scanDigits_append (g := fun ds => c :: '-' :: ds) hrest h
        · rename_i hplus hminus
          cases s with
          | nil => simp [Doc.scanDigits, List.span_eq_takeWhile_dropWhile] at h
          | cons d s =>
              rw [List.cons_append]
              split
              · rename_i heq
                exact absurd (by rw [(List.cons.inj heq).1]) (hplus s)
              · rename_i heq
                exact absurd (by rw [(List.cons.inj heq).1]) (hminus s)
              · exact map_scanDigits_append (g := List.cons c) hrest h
      · rw [if_neg he] at h ⊢
        simp only [Option.some.injEq, Prod.mk.injEq] at h
        obtain ⟨rfl, rfl⟩ := h
        rfl

def scanMagnitude (sign s : List Char) : Option (List Char × List Char) := do
  let (int, s) ← Doc.scanInt s
  let (frac, s) ← Doc.scanFrac s
  let (exp, s) ← Doc.scanExp s
  return (sign ++ int ++ frac ++ exp, s)

theorem scanNumber_minus (s : List Char) : Doc.scanNumber ('-' :: s) = scanMagnitude ['-'] s := rfl

theorem scanNumber_of_ne {c : Char} (hc : c ≠ '-') (s : List Char) :
    Doc.scanNumber (c :: s) = scanMagnitude [] (c :: s) := by
  unfold Doc.scanNumber
  split
  rename_i sign s' heq
  split at heq
  · rename_i h
    exact absurd (List.cons.inj h).1 hc
  · obtain ⟨rfl, rfl⟩ := Prod.mk.inj heq
    rfl

theorem scanMagnitude_append {sign : List Char} (hrest : endsNumber rest)
    (h : scanMagnitude sign s = some (lit, r)) :
    scanMagnitude sign (s ++ rest) = some (lit, r ++ rest) := by
  obtain ⟨p₁, h₁, h⟩ := Option.bind_eq_some_iff.mp h
  obtain ⟨p₂, h₂, h⟩ := Option.bind_eq_some_iff.mp h
  obtain ⟨p₃, h₃, h⟩ := Option.bind_eq_some_iff.mp h
  obtain ⟨rfl, rfl⟩ := Prod.mk.inj (Option.some.inj h)
  unfold scanMagnitude
  simp only [scanInt_append hrest h₁, scanFrac_append hrest h₂, scanExp_append hrest h₃,
    Option.bind_eq_bind, Option.bind_some]
  rfl

theorem scanNumber_append (hrest : endsNumber rest) (h : Doc.scanNumber s = some (lit, r)) :
    Doc.scanNumber (s ++ rest) = some (lit, r ++ rest) := by
  cases s with
  | nil =>
      simp [Doc.scanNumber, Doc.scanInt, Doc.scanDigits, List.span_eq_takeWhile_dropWhile] at h
  | cons c s =>
      by_cases hc : c = '-'
      · subst hc
        rw [scanNumber_minus] at h
        rw [List.cons_append, scanNumber_minus]
        exact scanMagnitude_append hrest h
      · rw [scanNumber_of_ne hc] at h
        rw [List.cons_append, scanNumber_of_ne hc]
        exact scanMagnitude_append hrest h

theorem scanNumber_of_isLiteral {t : List Char} (ht : isLiteral t) (hrest : endsNumber rest) :
    Doc.scanNumber (t ++ rest) = some (t, rest) := by
  have h := scanNumber_append hrest (beq_iff_eq.mp ht)
  rwa [List.nil_append] at h

theorem head_of_isLiteral {t : List Char} (ht : isLiteral t) :
    ∃ c t', t = c :: t' ∧ (c = '-' ∨ c.isDigit) := by
  have h : Doc.scanNumber t = some (t, []) := beq_iff_eq.mp ht
  cases t with
  | nil =>
      simp [Doc.scanNumber, Doc.scanInt, Doc.scanDigits, List.span_eq_takeWhile_dropWhile] at h
  | cons c t =>
      refine ⟨c, t, rfl, ?_⟩
      by_cases hc : c = '-'
      · exact Or.inl hc
      · right
        by_contra hdigit
        rw [scanNumber_of_ne hc] at h
        obtain ⟨p₁, h₁, -⟩ := Option.bind_eq_some_iff.mp h
        have hzero : c ≠ '0' := fun h => hdigit (by rw [h]; decide)
        rw [scanInt_of_ne hzero] at h₁
        simp [Doc.scanDigits, List.span_eq_takeWhile_dropWhile, hdigit] at h₁

end scan

/-! ### Decimal digits -/

@[simp] theorem natOfDigits_toDigits (n : Nat) : natOfDigits (Nat.toDigits 10 n) = n := by
  have h := @Nat.ofDigitChars_toDigits 10 n (by decide) (by decide)
  unfold natOfDigits
  simp only [Nat.mul_comm _ 10]
  exact h

theorem isDigit_of_mem_toDigits {n : Nat} {c : Char} (hc : c ∈ Nat.toDigits 10 n) : c.isDigit :=
  Nat.isDigit_of_mem_toDigits (by decide) (by decide) hc

theorem span_toDigits (n : Nat) {rest : List Char} (hrest : rest.takeWhile Char.isDigit = []) :
    (Nat.toDigits 10 n ++ rest).span Char.isDigit = (Nat.toDigits 10 n, rest) := by
  have hdrop : rest.dropWhile Char.isDigit = rest := by
    have := @List.takeWhile_append_dropWhile _ Char.isDigit rest
    rwa [hrest, List.nil_append] at this
  have hall : ∀ c ∈ Nat.toDigits 10 n, c.isDigit := fun _ hc => isDigit_of_mem_toDigits hc
  rw [List.span_eq_takeWhile_dropWhile, List.takeWhile_append_of_pos hall,
    List.dropWhile_append_of_pos hall, hrest, hdrop, List.append_nil]

theorem toDigits_head {n : Nat} (hn : 0 < n) : ∃ c ds, Nat.toDigits 10 n = c :: ds ∧ c ≠ '0' := by
  induction n using Nat.strong_induction_on with
  | _ n ih =>
      by_cases hlt : n < 10
      · refine ⟨n.digitChar, [], Nat.toDigits_of_lt_base hlt, ?_⟩
        interval_cases n <;> decide
      · rw [not_lt] at hlt
        obtain ⟨c, ds, hds, hc⟩ := ih (n / 10) (by omega) (by omega)
        exact ⟨c, ds ++ [(n % 10).digitChar], by
          rw [Nat.toDigits_of_base_le (by decide) hlt, hds, List.cons_append], hc⟩

theorem scanInt_toDigits (n : Nat) {rest : List Char} (hrest : rest.takeWhile Char.isDigit = []) :
    Doc.scanInt (Nat.toDigits 10 n ++ rest) = some (Nat.toDigits 10 n, rest) := by
  rcases Nat.eq_zero_or_pos n with rfl | hn
  · rfl
  · obtain ⟨c, ds, hds, hc⟩ := toDigits_head hn
    have hspan := span_toDigits n hrest
    rw [hds] at hspan ⊢
    rw [List.cons_append, scanInt_of_ne hc, ← List.cons_append, Doc.scanDigits, hspan]

/-! ### Integers -/

def signText (neg : Bool) : List Char := if neg then ['-'] else []

/-- `strconv.FormatInt(n, 10)`. -/
def formatInt (n : Int) : List Char := signText (n < 0) ++ Nat.toDigits 10 n.natAbs

theorem takeSign_signText (neg : Bool) (n : Nat) (rest : List Char) :
    takeSign (signText neg ++ (Nat.toDigits 10 n ++ rest)) = (neg, Nat.toDigits 10 n ++ rest) := by
  cases neg with
  | true => rfl
  | false =>
      obtain ⟨c, ds, hds⟩ := List.exists_cons_of_ne_nil (@Nat.toDigits_ne_nil n 10)
      have hdigit : c.isDigit := isDigit_of_mem_toDigits (by rw [hds]; exact List.mem_cons_self)
      rw [hds]
      show takeSign (c :: (ds ++ rest)) = (false, c :: (ds ++ rest))
      unfold takeSign
      split
      · rename_i heq
        rw [(List.cons.inj heq).1] at hdigit
        exact absurd hdigit (by decide)
      · rename_i heq
        rw [(List.cons.inj heq).1] at hdigit
        exact absurd hdigit (by decide)
      · rfl

theorem scanNumber_signText (neg : Bool) (n : Nat) (rest : List Char) :
    Doc.scanNumber (signText neg ++ (Nat.toDigits 10 n ++ rest)) =
      scanMagnitude (signText neg) (Nat.toDigits 10 n ++ rest) := by
  cases neg with
  | true => rfl
  | false =>
      obtain ⟨c, ds, hds⟩ := List.exists_cons_of_ne_nil (@Nat.toDigits_ne_nil n 10)
      have hdigit : c.isDigit := isDigit_of_mem_toDigits (by rw [hds]; exact List.mem_cons_self)
      have hc : c ≠ '-' := fun h => by rw [h] at hdigit; exact absurd hdigit (by decide)
      rw [hds]
      exact scanNumber_of_ne hc (ds ++ rest)

theorem isLiteral_digits (neg : Bool) (n : Nat) :
    isLiteral (signText neg ++ Nat.toDigits 10 n) := by
  unfold isLiteral
  rw [beq_iff_eq]
  have h := scanNumber_signText neg n []
  have hint := @scanInt_toDigits n [] rfl
  rw [List.append_nil] at h hint
  rw [h]
  unfold scanMagnitude
  simp only [hint, Option.bind_eq_bind, Option.bind_some, Doc.scanFrac, Doc.scanExp,
    List.append_nil]
  rfl

theorem isLiteral_formatInt (n : Int) : isLiteral (formatInt n) := isLiteral_digits _ _

/-- **A written integer is read back**, within the range of an `int64`. -/
theorem parseInt64_formatInt {n : Int} (hlo : -(2 ^ 63) ≤ n) (hhi : n < 2 ^ 63) :
    parseInt64 (formatInt n) = some n := by
  have hsign := takeSign_signText (decide (n < 0)) n.natAbs []
  rw [List.append_nil] at hsign
  unfold parseInt64 formatInt
  rw [hsign]
  have hne : (Nat.toDigits 10 n.natAbs).isEmpty = false := by
    simp [Nat.toDigits_ne_nil]
  have hall : (Nat.toDigits 10 n.natAbs).all Char.isDigit = true :=
    List.all_eq_true.mpr fun _ hc => isDigit_of_mem_toDigits hc
  have hvalue : (if decide (n < 0) = true then -(n.natAbs : Int) else (n.natAbs : Int)) = n := by
    split_ifs with h
    · simp only [decide_eq_true_eq] at h
      omega
    · simp only [decide_eq_true_eq] at h
      omega
  simp only [hne, hall, Bool.not_true, Bool.or_self, Bool.false_eq_true, if_false,
    natOfDigits_toDigits, hvalue, hlo, hhi, decide_true, Bool.and_self, if_true]

/-! ### Rounding to binary64 -/

/-- Normal form: 53 bits unless the exponent is the smallest one, and one zero of each sign. -/
structure Float64.Normal (x : Float64) : Prop where
  mant_lt : x.mant < 2 ^ 53
  exp_le : x.exp ≤ 971
  exp_ge : x.mant ≠ 0 → -1074 ≤ x.exp
  full : x.mant ≠ 0 → 2 ^ 52 ≤ x.mant ∨ x.exp = -1074
  zero : x.mant = 0 → x.exp = 0

section rounding

variable {n d : Nat}

theorem scaleFraction_pos (hd : 0 < d) (e : Int) : 0 < (scaleFraction n d e).2 := by
  unfold scaleFraction
  split_ifs
  · exact Nat.mul_pos hd (Nat.two_pow_pos _)
  · exact hd

theorem scaleFraction_eq (hd : 0 < d) (e : Int) :
    ((scaleFraction n d e).1 : ℚ) / (scaleFraction n d e).2 = (n : ℚ) / d * 2 ^ (-e) := by
  have hd' : (d : ℚ) ≠ 0 := by exact_mod_cast hd.ne'
  unfold scaleFraction
  split_ifs with he
  · have hcast : ((2 : ℚ) ^ e.toNat) = 2 ^ e := by
      rw [← zpow_natCast, Int.toNat_of_nonneg he]
    push_cast
    rw [hcast, zpow_neg]
    field_simp
  · have hcast : ((2 : ℚ) ^ (-e).toNat) = 2 ^ (-e) := by
      rw [← zpow_natCast, Int.toNat_of_nonneg (by omega)]
    push_cast
    rw [hcast]
    ring

theorem floorLog2_spec (hn : 0 < n) (hd : 0 < d) :
    (2 : ℚ) ^ floorLog2 n d ≤ (n : ℚ) / d ∧ (n : ℚ) / d < 2 ^ (floorLog2 n d + 1) := by
  have hdq : (0 : ℚ) < d := by exact_mod_cast hd
  have hnlo : (2 : ℚ) ^ (n.log2 : Int) ≤ n := by
    rw [zpow_natCast]
    exact_mod_cast Nat.log2_self_le hn.ne'
  have hnhi : (n : ℚ) < 2 ^ ((n.log2 : Int) + 1) := by
    rw [← Nat.cast_succ, zpow_natCast]
    exact_mod_cast @Nat.lt_log2_self n
  have hdlo : (2 : ℚ) ^ (d.log2 : Int) ≤ d := by
    rw [zpow_natCast]
    exact_mod_cast Nat.log2_self_le hd.ne'
  have hdhi : (d : ℚ) < 2 ^ ((d.log2 : Int) + 1) := by
    rw [← Nat.cast_succ, zpow_natCast]
    exact_mod_cast @Nat.lt_log2_self d
  set e : Int := (n.log2 : Int) - d.log2 with he
  have hupper : (n : ℚ) / d < 2 ^ (e + 1) := by
    rw [div_lt_iff₀ hdq]
    calc (n : ℚ) < 2 ^ ((n.log2 : Int) + 1) := hnhi
      _ = 2 ^ (e + 1) * 2 ^ (d.log2 : Int) := by
          rw [← zpow_add₀ two_ne_zero]
          congr 1
          omega
      _ ≤ 2 ^ (e + 1) * d := by gcongr
  have hlower : (2 : ℚ) ^ (e - 1) ≤ (n : ℚ) / d := by
    rw [le_div_iff₀ hdq]
    calc (2 : ℚ) ^ (e - 1) * d ≤ 2 ^ (e - 1) * 2 ^ ((d.log2 : Int) + 1) := by gcongr
      _ = 2 ^ (n.log2 : Int) := by
          rw [← zpow_add₀ two_ne_zero]
          congr 1
          omega
      _ ≤ n := hnlo
  have htest : (scaleFraction n d e).2 ≤ (scaleFraction n d e).1 ↔ (2 : ℚ) ^ e ≤ (n : ℚ) / d := by
    have hpos : (0 : ℚ) < (scaleFraction n d e).2 := by exact_mod_cast scaleFraction_pos hd e
    rw [← Nat.cast_le (α := ℚ), ← one_le_div hpos, scaleFraction_eq hd, zpow_neg,
      ← div_eq_mul_inv, one_le_div (by positivity)]
  have hdef : floorLog2 n d =
      if (scaleFraction n d e).2 ≤ (scaleFraction n d e).1 then e else e - 1 := rfl
  rw [hdef]
  split_ifs with h
  · exact ⟨htest.mp h, hupper⟩
  · refine ⟨hlower, ?_⟩
    rw [sub_add_cancel]
    exact not_le.mp fun hle => h (htest.mpr hle)

theorem divRoundEven_mul (m : Nat) (hd : 0 < d) : divRoundEven (m * d) d = m := by
  unfold divRoundEven
  simp [Nat.mul_div_cancel m hd, hd]

theorem roundFraction_eq (neg : Bool) (n d : Nat) :
    let e := max (-1074) (floorLog2 n d - 52)
    let m := divRoundEven (scaleFraction n d e).1 (scaleFraction n d e).2
    roundFraction neg n d =
      if m = 2 ^ 53 then if 971 < e + 1 then none else some ⟨neg, 2 ^ 52, e + 1⟩
      else if 971 < e then none
      else if m = 0 then some ⟨neg, 0, 0⟩
      else some ⟨neg, m, e⟩ := by
  intro e m
  by_cases hm : m = 2 ^ 53
  · rw [if_pos hm]
    unfold roundFraction
    dsimp only
    rw [if_pos hm]
    rfl
  · rw [if_neg hm]
    unfold roundFraction
    dsimp only
    rw [if_neg hm]

theorem exponent_eq {x : Float64} (hx : x.Normal) (hmant : x.mant ≠ 0) {f : Int}
    (hlo : (2 : ℚ) ^ f ≤ x.mant * 2 ^ x.exp) (hhi : (x.mant : ℚ) * 2 ^ x.exp < 2 ^ (f + 1)) :
    max (-1074) (f - 52) = x.exp := by
  have hbelow : f < 53 + x.exp := by
    rw [← zpow_lt_zpow_iff_right₀ (one_lt_two (α := ℚ)), zpow_add₀ two_ne_zero]
    refine hlo.trans_lt ?_
    gcongr
    exact_mod_cast hx.mant_lt
  rcases hx.full hmant with hfull | hsmallest
  · have habove : 52 + x.exp < f + 1 := by
      rw [← zpow_lt_zpow_iff_right₀ (one_lt_two (α := ℚ)), zpow_add₀ two_ne_zero]
      refine lt_of_le_of_lt ?_ hhi
      gcongr
      exact_mod_cast hfull
    have := hx.exp_ge hmant
    omega
  · omega

theorem roundFraction_exact {x : Float64} (hx : x.Normal) (hmant : x.mant ≠ 0) (hn : 0 < n)
    (hd : 0 < d) (hvalue : (n : ℚ) / d = x.mant * 2 ^ x.exp) :
    roundFraction x.neg n d = some x := by
  obtain ⟨hlo, hhi⟩ := floorLog2_spec hn hd
  rw [hvalue] at hlo hhi
  have he := exponent_eq hx hmant hlo hhi
  have hpos := scaleFraction_pos (n := n) hd x.exp
  have hquot : ((scaleFraction n d x.exp).1 : ℚ) = x.mant * (scaleFraction n d x.exp).2 := by
    have hposq : ((scaleFraction n d x.exp).2 : ℚ) ≠ 0 := by exact_mod_cast hpos.ne'
    rw [← div_eq_iff hposq, scaleFraction_eq hd, hvalue, mul_assoc, ← zpow_add₀ two_ne_zero,
      add_neg_cancel, zpow_zero, mul_one]
  have hnum : (scaleFraction n d x.exp).1 = x.mant * (scaleFraction n d x.exp).2 := by
    exact_mod_cast hquot
  rw [roundFraction_eq]
  simp only [he, hnum, divRoundEven_mul x.mant hpos]
  rw [if_neg hx.mant_lt.ne, if_neg (not_lt.mpr hx.exp_le), if_neg hmant]

end rounding

/-! ### Floats -/

def Float64.fraction (x : Float64) : Nat × Nat :=
  if 0 ≤ x.exp then (x.mant * 2 ^ x.exp.toNat, 1) else (x.mant, 2 ^ (-x.exp).toNat)

/-- Where the decimal point of `n / d` stands: the least `p` with `n / d < 10 ^ p`. -/
def decimalPoint (n d : Nat) : Int :=
  if d ≤ n then (Nat.toDigits 10 (n / d)).length
  else 1 - (((List.range 400).find? fun k => d ≤ n * 10 ^ k).getD 0 : Nat)

/-- The two decimals with so many digits next to `n / d`, the nearer one first: each a number and
the power of ten it counts. -/
def neighbours (n d digits : Nat) : List (Nat × Int) :=
  let k := decimalPoint n d - digits
  let (a, b) := if 0 ≤ k then (n, d * 10 ^ k.toNat) else (n * 10 ^ (-k).toNat, d)
  let q := a / b
  let r := a % b
  if 2 * r < b ∨ (2 * r = b ∧ q % 2 = 0) then [(q, k), (q + 1, k)] else [(q + 1, k), (q, k)]

/-- `encoding/json` writes an exponent below `1e-6`, the binary64 number, and from `1e21` on. -/
def usesExponent (n d : Nat) : Bool :=
  n * 2 ^ 72 < 4722366482869645 * d || 10 ^ 21 * d ≤ n

/-- The text of `c * 10 ^ k`: the formats `e` and `f` of `strconv.AppendFloat`, the exponent of the
former without leading zeros. -/
def decimalText (exponent : Bool) (c : Nat) (k : Int) : List Char :=
  let point : Int := (Nat.toDigits 10 c).length + k
  let ds := ((Nat.toDigits 10 c).reverse.dropWhile (· == '0')).reverse
  if exponent then
    let e := point - 1
    ds.take 1 ++ (if ds.length ≤ 1 then [] else '.' :: ds.drop 1) ++
      'e' :: (if e < 0 then '-' else '+') :: Nat.toDigits 10 e.natAbs
  else if point ≤ 0 then '0' :: '.' :: (List.replicate (-point).toNat '0' ++ ds)
  else
    ds.take point.toNat ++ List.replicate (point.toNat - ds.length) '0' ++
      (if ds.length ≤ point.toNat then [] else '.' :: ds.drop point.toNat)

/-- The exact decimal expansion, with an exponent where there is a fraction. -/
def exactText (x : Float64) : List Char :=
  signText x.neg ++
    if 0 ≤ x.exp then Nat.toDigits 10 (x.mant * 2 ^ x.exp.toNat)
    else
      Nat.toDigits 10 (x.mant * 5 ^ (-x.exp).toNat) ++
        'e' :: '-' :: Nat.toDigits 10 (-x.exp).toNat

def reads (x : Float64) (t : List Char) : Bool := isLiteral t && parseFloat t == some x

def shortTexts (x : Float64) : List (List Char) :=
  let (n, d) := x.fraction
  (List.range 17).flatMap fun i =>
    (neighbours n d (i + 1)).map fun p =>
      signText x.neg ++ decimalText (usesExponent n d) p.1 p.2

/-- What `json.Marshal` writes for a `float64`. -/
def formatFloat (x : Float64) : List Char :=
  if x.mant = 0 then signText x.neg ++ ['0']
  else ((shortTexts x).find? (reads x)).getD (exactText x)

theorem isLiteral_exponent (neg : Bool) (n k : Nat) :
    isLiteral (signText neg ++ (Nat.toDigits 10 n ++ 'e' :: '-' :: Nat.toDigits 10 k)) := by
  have hexp : Doc.scanExp ('e' :: '-' :: Nat.toDigits 10 k) =
      some ('e' :: '-' :: Nat.toDigits 10 k, []) := by
    have hspan := @span_toDigits k [] rfl
    rw [List.append_nil] at hspan
    obtain ⟨c, ds, hds⟩ := List.exists_cons_of_ne_nil (@Nat.toDigits_ne_nil k 10)
    simp only [Doc.scanExp, beq_self_eq_true, Bool.true_or, if_true, Doc.scanDigits, hspan]
    rw [hds]
    rfl
  unfold isLiteral
  rw [beq_iff_eq, scanNumber_signText]
  unfold scanMagnitude
  rw [@scanInt_toDigits n ('e' :: '-' :: Nat.toDigits 10 k) rfl]
  have hfrac : Doc.scanFrac ('e' :: '-' :: Nat.toDigits 10 k) =
      some ([], 'e' :: '-' :: Nat.toDigits 10 k) := rfl
  simp only [Option.bind_eq_bind, Option.bind_some, hfrac, hexp, List.append_assoc]
  rfl

theorem parseFloat_digits (neg : Bool) {n : Nat} (hn : n ≠ 0) :
    parseFloat (signText neg ++ Nat.toDigits 10 n) = roundFraction neg n 1 := by
  have hsign := takeSign_signText neg n []
  have hspan := @span_toDigits n [] rfl
  rw [List.append_nil] at hsign hspan
  simp only [parseFloat, hsign, hspan, List.append_nil, natOfDigits_toDigits, if_neg hn]
  simp

theorem parseFloat_exponent (neg : Bool) {n k : Nat} (hn : n ≠ 0) (hk : 0 < k) :
    parseFloat (signText neg ++ (Nat.toDigits 10 n ++ 'e' :: '-' :: Nat.toDigits 10 k)) =
      roundFraction neg n (10 ^ k) := by
  have hsign := takeSign_signText neg n ('e' :: '-' :: Nat.toDigits 10 k)
  have hspan := @span_toDigits n ('e' :: '-' :: Nat.toDigits 10 k) rfl
  have hminus : takeSign ('-' :: Nat.toDigits 10 k) = (true, Nat.toDigits 10 k) := rfl
  simp only [parseFloat, hsign, hspan]
  simp [hminus, hn, hk.ne']

theorem reads_exactText {x : Float64} (hx : x.Normal) (hmant : x.mant ≠ 0) :
    reads x (exactText x) := by
  unfold reads exactText
  rw [Bool.and_eq_true, beq_iff_eq]
  split_ifs with hexp
  · have hn : x.mant * 2 ^ x.exp.toNat ≠ 0 := by positivity
    refine ⟨isLiteral_digits _ _, ?_⟩
    rw [parseFloat_digits _ hn]
    refine roundFraction_exact hx hmant (Nat.pos_of_ne_zero hn) one_pos ?_
    push_cast
    rw [← zpow_natCast, Int.toNat_of_nonneg hexp, div_one]
  · have hn : x.mant * 5 ^ (-x.exp).toNat ≠ 0 := by positivity
    refine ⟨isLiteral_exponent _ _ _, ?_⟩
    rw [parseFloat_exponent _ hn (by omega)]
    refine roundFraction_exact hx hmant (Nat.pos_of_ne_zero hn) (by positivity) ?_
    have hten : (10 : ℚ) ^ (-x.exp).toNat = 5 ^ (-x.exp).toNat * 2 ^ (-x.exp).toNat := by
      rw [← mul_pow]
      norm_num
    have htwo : (2 : ℚ) ^ (-x.exp).toNat = 2 ^ (-x.exp) := by
      rw [← zpow_natCast, Int.toNat_of_nonneg (by omega)]
    push_cast
    rw [hten, htwo, zpow_neg]
    field_simp

theorem reads_formatFloat {x : Float64} (hx : x.Normal) : reads x (formatFloat x) := by
  unfold formatFloat
  split_ifs with hmant
  · obtain ⟨neg, mant, exp⟩ := x
    obtain rfl : mant = 0 := hmant
    obtain rfl : exp = 0 := hx.zero rfl
    cases neg <;> decide
  · rcases hfound : (shortTexts x).find? (reads x) with _ | t
    · exact reads_exactText hx hmant
    · exact List.find?_some hfound

/-- **A written float is read back.** -/
theorem parseFloat_formatFloat {x : Float64} (hx : x.Normal) :
    parseFloat (formatFloat x) = some x := by
  have h := reads_formatFloat hx
  unfold reads at h
  rw [Bool.and_eq_true, beq_iff_eq] at h
  exact h.2

theorem isLiteral_formatFloat {x : Float64} (hx : x.Normal) : isLiteral (formatFloat x) := by
  have h := reads_formatFloat hx
  unfold reads at h
  rw [Bool.and_eq_true] at h
  exact h.1

end EvidraBench.Gostd
