import Mathlib.Data.List.Basic
import Mathlib.Data.List.Infix
import Mathlib.Data.List.TakeWhile

/-!
# Replacing text and substituting names

`replaceAll` replaces the occurrences of a pattern from left to right, as text tools do;
`substitute` replaces one name by another at the places that a predicate marks. A name stands for
itself in a text when it is delimited: the elements before and after it are no name elements.

A pattern made of a lead, a name and a tail replaces that name where it stands between the two
(`replaceAll_eq_substitute`), as long as no two occurrences of the pattern overlap (`Apart`). And
substituting twice is substituting once at the places of both (`substitute_substitute`), as long as
the marks do not depend on which of the two names stands in the text before. Together they turn a
list of replacements, made one after the other, into one substitution.
-/

namespace EvidraBench.Lib.Replace

variable {α : Type} [DecidableEq α]

/-! ### Replacing -/

/-- Replace from here on, with some elements of an occurrence still to be passed over. -/
def replaceFrom (p p' : List α) : Nat → List α → List α
  | _, [] => []
  | skip + 1, _ :: rest => replaceFrom p p' skip rest
  | 0, c :: rest =>
      if p.isPrefixOf (c :: rest) then p' ++ replaceFrom p p' (p.length - 1) rest
      else c :: replaceFrom p p' 0 rest

/-- Replace the occurrences of a pattern, from left to right. -/
def replaceAll (p p' s : List α) : List α := replaceFrom p p' 0 s

/-- Replace the pattern at the end of a text, if it is there. -/
def replaceEnd (p p' s : List α) : List α :=
  if p.isSuffixOf s then s.take (s.length - p.length) ++ p' else s

theorem replaceFrom_eq_drop (p p' : List α) : ∀ (k : Nat) (s : List α),
    replaceFrom p p' k s = replaceAll p p' (s.drop k)
  | 0, s => rfl
  | _ + 1, [] => rfl
  | k + 1, _ :: rest => by rw [replaceFrom, replaceFrom_eq_drop p p' k rest, List.drop_succ_cons]

theorem replaceAll_append {p : List α} (hp : p ≠ []) (p' y : List α) :
    replaceAll p p' (p ++ y) = p' ++ replaceAll p p' y := by
  cases p with
  | nil => exact absurd rfl hp
  | cons c p =>
    have hstarts : (c :: p).isPrefixOf (c :: (p ++ y)) = true :=
      List.isPrefixOf_iff_prefix.mpr (List.prefix_append (c :: p) y)
    rw [List.cons_append, replaceAll, replaceFrom, if_pos hstarts, replaceFrom_eq_drop]
    simp

theorem replaceAll_cons {p : List α} {c : α} {rest : List α} (h : ¬ p <+: c :: rest)
    (p' : List α) : replaceAll p p' (c :: rest) = c :: replaceAll p p' rest := by
  rw [replaceAll, replaceFrom, if_neg (fun hp => h (List.isPrefixOf_iff_prefix.mp hp))]
  rfl

/-! ### Substituting -/

section substitute

variable (old new : List α) (marks : List α → List α → Bool)

/-- Substitute from here on, given the text before and how much of a name is still to be passed
over. A place is marked by the text before it and the text after the name. -/
def substituteFrom : List α → Nat → List α → List α
  | _, _, [] => []
  | before, skip + 1, c :: rest => substituteFrom (before ++ [c]) skip rest
  | before, 0, c :: rest =>
      if old.isPrefixOf (c :: rest) && marks before ((c :: rest).drop old.length) then
        new ++ substituteFrom (before ++ [c]) (old.length - 1) rest
      else c :: substituteFrom (before ++ [c]) 0 rest

/-- Substitute one name for another at the marked places of a text. -/
def substitute (before s : List α) : List α := substituteFrom old new marks before 0 s

variable {old new marks}

theorem substituteFrom_eq_drop : ∀ (k : Nat) (before s : List α),
    substituteFrom old new marks before k s =
      substitute old new marks (before ++ s.take k) (s.drop k)
  | 0, before, s => by simp [substitute]
  | _ + 1, before, [] => by simp [substitute, substituteFrom]
  | k + 1, before, c :: rest => by
    rw [substituteFrom, substituteFrom_eq_drop k (before ++ [c]) rest]
    simp

theorem substitute_marked (hold : old ≠ []) {before after : List α}
    (h : marks before after = true) :
    substitute old new marks before (old ++ after) =
      new ++ substitute old new marks (before ++ old) after := by
  cases old with
  | nil => exact absurd rfl hold
  | cons c name =>
    have hstarts : (c :: name).isPrefixOf (c :: (name ++ after)) = true :=
      List.isPrefixOf_iff_prefix.mpr (List.prefix_append (c :: name) after)
    have hdrop : (c :: (name ++ after)).drop (c :: name).length = after := by simp
    rw [List.cons_append, substitute, substituteFrom, hstarts, hdrop, h, Bool.and_self,
      if_pos rfl, substituteFrom_eq_drop]
    simp

theorem substitute_cons {before rest : List α} {c : α}
    (h : old <+: c :: rest → marks before ((c :: rest).drop old.length) = false) :
    substitute old new marks before (c :: rest) =
      c :: substitute old new marks (before ++ [c]) rest := by
  have hnot :
      (old.isPrefixOf (c :: rest) && marks before ((c :: rest).drop old.length)) = false := by
    by_cases hp : old <+: c :: rest
    · rw [h hp, Bool.and_false]
    · rw [Bool.eq_false_iff.mpr fun hp' => hp (List.isPrefixOf_iff_prefix.mp hp'),
        Bool.false_and]
  rw [substitute, substituteFrom, hnot, if_neg (by decide)]
  rfl

theorem substitute_append {rest : List α} : ∀ (u before : List α),
    (∀ u₁ c u₂, u = u₁ ++ c :: u₂ → old <+: c :: (u₂ ++ rest) →
      marks (before ++ u₁) ((c :: (u₂ ++ rest)).drop old.length) = false) →
    substitute old new marks before (u ++ rest) =
      u ++ substitute old new marks (before ++ u) rest
  | [], before, _ => by simp
  | c :: u, before, h => by
    have hfirst := h [] c u rfl
    rw [List.append_nil] at hfirst
    have hrest := substitute_append u (before ++ [c]) fun u₁ d u₂ hu hp => by
      have := h (c :: u₁) d u₂ (by rw [hu]; rfl) hp
      rwa [List.append_assoc]
    rw [List.cons_append, substitute_cons hfirst, hrest, List.append_assoc]
    rfl

theorem substitute_congr {marks' : List α → List α → Bool} (hold : old ≠ []) :
    ∀ (s before : List α),
      (∀ x y, s = x ++ old ++ y → marks (before ++ x) y = marks' (before ++ x) y) →
      substitute old new marks before s = substitute old new marks' before s := by
  intro s
  induction hn : s.length using Nat.strong_induction_on generalizing s with
  | h n ih =>
    intro before h
    subst hn
    cases s with
    | nil => rfl
    | cons c rest =>
      by_cases hp : old <+: c :: rest
      · obtain ⟨after, hafter⟩ := hp
        have hhere := h [] after (by simp [hafter])
        rw [List.append_nil] at hhere
        have hlen : after.length < (c :: rest).length := by
          rw [← hafter, List.length_append]
          have := List.length_pos_iff.mpr hold
          omega
        by_cases hm : marks before after = true
        · rw [← hafter, substitute_marked hold hm, substitute_marked hold (hhere ▸ hm)]
          rw [ih _ hlen after rfl (before ++ old)]
          intro x y hxy
          have := h (old ++ x) y (by rw [← hafter, hxy]; simp)
          rwa [List.append_assoc]
        · have hm' : marks before ((c :: rest).drop old.length) = false := by
            rw [← hafter, List.drop_left]
            exact Bool.eq_false_iff.mpr hm
          have hm'' : marks' before ((c :: rest).drop old.length) = false := by
            rw [← hafter, List.drop_left, ← hhere]
            exact Bool.eq_false_iff.mpr hm
          rw [substitute_cons fun _ => hm', substitute_cons fun _ => hm'']
          rw [ih _ (Nat.lt_succ_self _) rest rfl (before ++ [c])]
          intro x y hxy
          have := h (c :: x) y (by rw [hxy]; rfl)
          rwa [List.append_assoc]
      · rw [substitute_cons fun h => absurd h hp, substitute_cons fun h => absurd h hp]
        rw [ih _ (Nat.lt_succ_self _) rest rfl (before ++ [c])]
        intro x y hxy
        have := h (c :: x) y (by rw [hxy]; rfl)
        rwa [List.append_assoc]

end substitute

/-! ### Names -/

section names

variable (isName : α → Bool)

structure IsName (w : List α) : Prop where
  nonempty : w ≠ []
  all : ∀ c ∈ w, isName c = true

def Open (before : List α) : Prop := ∀ c ∈ before.getLast?, isName c = false

def Closed (after : List α) : Prop := ∀ c ∈ after.head?, isName c = false

def Delimits (marks : List α → List α → Bool) : Prop :=
  ∀ before after, marks before after = true → Open isName before ∧ Closed isName after

variable {isName} {old new : List α} {marks : List α → List α → Bool}

omit [DecidableEq α] in
theorem open_concat {before : List α} {s : α} (hs : isName s = false) :
    Open isName (before ++ [s]) := by
  simpa [Open] using hs

omit [DecidableEq α] in
theorem not_open_concat {before : List α} {c : α} (hc : isName c = true) :
    ¬ Open isName (before ++ [c]) := by
  simp [Open, hc]

omit [DecidableEq α] in
theorem eq_of_prefix_word {w after : List α} (hold : IsName isName old)
    (hw : ∀ c ∈ w, isName c = true) (hafter : Closed isName after) (hp : old <+: w ++ after)
    (hend : Closed isName ((w ++ after).drop old.length)) : w = old := by
  rcases List.prefix_or_prefix_of_prefix hp (List.prefix_append w after) with ⟨r, rfl⟩ | ⟨r, rfl⟩
  · rw [List.append_assoc, List.drop_left] at hend
    cases r with
    | nil => exact List.append_nil old
    | cons c r =>
      have hc : isName c = true := hw c (by simp)
      rw [hend c (by simp)] at hc
      exact absurd hc (by decide)
  · cases r with
    | nil => exact (List.append_nil w).symm
    | cons c r =>
      obtain ⟨y, rfl⟩ := (List.prefix_append_right_inj w).mp hp
      have hc : isName c = true := hold.all c (by simp)
      rw [hafter c (by simp)] at hc
      exact absurd hc (by decide)

theorem substitute_inside (hmarks : Delimits isName marks) (after : List α) :
    ∀ (w before : List α), (∀ c ∈ w, isName c = true) → ¬ Open isName before →
      substitute old new marks before (w ++ after) =
        w ++ substitute old new marks (before ++ w) after
  | [], before, _, _ => by simp
  | c :: w, before, hw, hb => by
    have hkeep : old <+: c :: (w ++ after) →
        marks before ((c :: (w ++ after)).drop old.length) = false := by
      intro _
      refine Bool.eq_false_iff.mpr ?_
      intro hm
      exact hb (hmarks _ _ hm).1
    have hrest := substitute_inside hmarks after w (before ++ [c])
      (fun d hd => hw d (List.mem_cons_of_mem c hd))
      (not_open_concat (hw c List.mem_cons_self))
    rw [List.cons_append, substitute_cons hkeep, hrest, List.append_assoc]
    rfl

theorem substitute_word (hold : IsName isName old) (hmarks : Delimits isName marks)
    {before w after : List α} (hw : ∀ c ∈ w, isName c = true) (hafter : Closed isName after) :
    substitute old new marks before (w ++ after) =
      (if w = old ∧ marks before after = true then new else w) ++
        substitute old new marks (before ++ w) after := by
  by_cases h : w = old ∧ marks before after = true
  · obtain ⟨rfl, hm⟩ := h
    rw [if_pos ⟨rfl, hm⟩, substitute_marked hold.nonempty hm]
  · rw [if_neg h]
    cases w with
    | nil => simp
    | cons c w =>
      have hkeep : old <+: c :: (w ++ after) →
          marks before ((c :: (w ++ after)).drop old.length) = false := by
        intro hp
        refine Bool.eq_false_iff.mpr ?_
        intro hm
        have hword : c :: w = old :=
          eq_of_prefix_word hold hw hafter hp (hmarks _ _ hm).2
        refine h ⟨hword, ?_⟩
        rw [← List.cons_append, hword, List.drop_left] at hm
        exact hm
      have hrest : substitute old new marks (before ++ [c]) (w ++ after) = _ :=
        substitute_inside hmarks after w (before ++ [c])
          (fun d hd => hw d (List.mem_cons_of_mem c hd))
          (not_open_concat (hw c List.mem_cons_self))
      rw [List.cons_append, substitute_cons hkeep, hrest, List.append_assoc]
      rfl

theorem substitute_separator (hold : IsName isName old) {before rest : List α} {s : α}
    (hs : isName s = false) :
    substitute old new marks before (s :: rest) =
      s :: substitute old new marks (before ++ [s]) rest := by
  refine substitute_cons ?_
  rintro ⟨y, hy⟩
  cases old with
  | nil => exact absurd rfl hold.nonempty
  | cons c name =>
    rw [List.cons_append, List.cons.injEq] at hy
    have hc : isName c = true := hold.all c List.mem_cons_self
    rw [hy.1, hs] at hc
    exact absurd hc (by decide)

omit [DecidableEq α] in
/-- A text is words and separators: to prove something of every text, prove it of a word and of a
word in front of a separator and a text. -/
theorem words_induction (isName : α → Bool) {motive : List α → Prop}
    (word : ∀ w, (∀ c ∈ w, isName c = true) → motive w)
    (step : ∀ w s rest, (∀ c ∈ w, isName c = true) → isName s = false → motive rest →
      motive (w ++ s :: rest)) (text : List α) : motive text := by
  induction hn : text.length using Nat.strong_induction_on generalizing text with
  | h n ih =>
    have hsplit : text.takeWhile isName ++ text.dropWhile isName = text :=
      List.takeWhile_append_dropWhile
    have hword : ∀ c ∈ text.takeWhile isName, isName c = true := fun c hc =>
      List.mem_takeWhile_imp hc
    cases hrest : text.dropWhile isName with
    | nil =>
      rw [hrest, List.append_nil] at hsplit
      rw [← hsplit]
      exact word _ hword
    | cons s rest =>
      have hs : isName s = false := by
        have := List.head?_dropWhile_not isName text
        rw [hrest] at this
        simpa using this
      rw [hrest] at hsplit
      rw [← hsplit]
      refine step _ s rest hword hs (ih rest.length ?_ rest rfl)
      rw [← hn, ← hsplit, List.length_append, List.length_cons]
      omega

theorem substitute_step (hold : IsName isName old) (hmarks : Delimits isName marks)
    {before w rest : List α} {s : α} (hw : ∀ c ∈ w, isName c = true) (hs : isName s = false) :
    substitute old new marks before (w ++ s :: rest) =
      (if w = old ∧ marks before (s :: rest) = true then new else w) ++
        s :: substitute old new marks (before ++ w ++ [s]) rest := by
  have hclosed : Closed isName (s :: rest) := by simpa [Closed] using hs
  rw [substitute_word hold hmarks hw hclosed, substitute_separator hold hs]

theorem substitute_last (hold : IsName isName old) (hmarks : Delimits isName marks)
    {before w : List α} (hw : ∀ c ∈ w, isName c = true) :
    substitute old new marks before w =
      if w = old ∧ marks before [] = true then new else w := by
  have hclosed : Closed isName ([] : List α) := by simp [Closed]
  have hword : substitute old new marks before (w ++ []) = _ :=
    substitute_word hold hmarks hw hclosed
  rw [List.append_nil] at hword
  rw [hword]
  exact List.append_nil _

theorem isName_of_ite (hnew : IsName isName new) {w : List α} (hw : ∀ c ∈ w, isName c = true)
    (p : Prop) [Decidable p] : ∀ c ∈ (if w = old ∧ p then new else w), isName c = true := by
  split_ifs
  · exact hnew.all
  · exact hw

theorem ite_name_ite (w : List α) (p q : Bool) :
    (if (if w = old ∧ q = true then new else w) = old ∧ p = true then new
      else if w = old ∧ q = true then new else w) =
      if w = old ∧ (p || q) = true then new else w := by
  by_cases hw : w = old
  · cases p <;> cases q <;> simp [hw]
  · simp [hw]

/-- **Substituting twice.** `R` relates the text before a place to the text before it after the
first substitution; it has to be kept by words and separators, also where the name has changed. -/
theorem substitute_substitute (hold : IsName isName old) (hnew : IsName isName new)
    {P Q : List α → List α → Bool} (hP : Delimits isName P) (hQ : Delimits isName Q)
    {R : List α → List α → Prop}
    (agree : ∀ b b' a a', R b b' → a.head? = a'.head? → P b' a' = P b a)
    (keep : ∀ b b' w s, R b b' → (∀ c ∈ w, isName c = true) → isName s = false →
      R (b ++ w ++ [s]) (b' ++ w ++ [s]))
    (change : ∀ b b' s a, R b b' → Q b (s :: a) = true → R (b ++ old ++ [s]) (b' ++ new ++ [s]))
    (text : List α) : ∀ b b', R b b' →
      substitute old new P b' (substitute old new Q b text) =
        substitute old new (fun x y => P x y || Q x y) b text := by
  have hPQ : Delimits isName fun x y => P x y || Q x y := by
    intro b a h
    rcases Bool.or_eq_true_iff.mp h with h | h
    · exact hP b a h
    · exact hQ b a h
  induction text using words_induction isName with
  | word w hw =>
    intro b b' hR
    rw [substitute_last hold hQ hw, substitute_last hold hP (isName_of_ite hnew hw _),
      substitute_last hold hPQ hw, agree b b' [] [] hR rfl]
    exact ite_name_ite w _ _
  | step w s rest hw hs ih =>
    intro b b' hR
    rw [substitute_step hold hQ hw hs, substitute_step hold hP (isName_of_ite hnew hw _) hs,
      substitute_step hold hPQ hw hs,
      agree b b' (s :: rest) (s :: substitute old new Q (b ++ w ++ [s]) rest) hR rfl,
      ite_name_ite, ih (b ++ w ++ [s])]
    split_ifs with hmarked
    · obtain ⟨rfl, hq⟩ := hmarked
      exact change b b' s rest hR hq
    · exact keep b b' w s hR hw hs

/-! ### Forms -/

/-- What stands before and after a name: a lead, and the element that follows or the end. -/
structure Form (α : Type) where
  lead : List α
  tail : Option α

def Form.fits (f : Form α) (before after : List α) : Bool :=
  f.lead.isSuffixOf before && decide (after.head? = f.tail)

def fitsOne (forms : List (Form α)) (before after : List α) : Bool :=
  forms.any fun f => f.fits before after

/-- The lead ends in a separator, and the tail is one. -/
structure Form.Delimited (isName : α → Bool) (f : Form α) : Prop where
  lead : ∃ u c, f.lead = u ++ [c] ∧ isName c = false
  tail : ∀ b ∈ f.tail, isName b = false

theorem Form.fits_iff {f : Form α} {before after : List α} :
    f.fits before after = true ↔ f.lead <:+ before ∧ after.head? = f.tail := by
  simp [Form.fits]

theorem Form.Delimited.delimits {f : Form α} (h : f.Delimited isName) :
    Delimits isName f.fits := by
  intro before after hfits
  obtain ⟨⟨x, hx⟩, htail⟩ := Form.fits_iff.mp hfits
  constructor
  · obtain ⟨u, c, hlead, hc⟩ := h.lead
    rw [← hx, hlead, ← List.append_assoc]
    exact open_concat hc
  · intro c hc
    rw [htail] at hc
    exact h.tail c hc

theorem delimits_fitsOne {forms : List (Form α)} (h : ∀ f ∈ forms, f.Delimited isName) :
    Delimits isName (fitsOne forms) := by
  intro before after hfits
  obtain ⟨f, hf, hfit⟩ := List.any_eq_true.mp hfits
  exact (h f hf).delimits before after hfit

/-! ### One replacement -/

/-- No two occurrences of the pattern overlap in the text. -/
def Apart (p text : List α) : Prop :=
  ∀ x y v, text = x ++ p ++ y → v <:+ p → v ≠ [] → v.length < p.length → ¬ p <+: v ++ y

omit [DecidableEq α] in
theorem Apart.of_append {p x text : List α} (h : Apart p (x ++ text)) : Apart p text := by
  intro x' y v htext
  refine h (x ++ x') y v ?_
  rw [htext]
  simp

omit [DecidableEq α] in
theorem apart_of_borderless {p : List α}
    (h : ∀ v, v <:+ p → v ≠ [] → v.length < p.length → ¬ v <+: p) (text : List α) :
    Apart p text := by
  intro x y v _ hv hne hlen hp
  refine h v hv hne hlen ?_
  exact List.prefix_of_prefix_length_le (List.prefix_append v y) hp hlen.le

omit [DecidableEq α] in
theorem apart_of_last {p : List α} {b : α} (hb : b ∉ p) (text : List α) :
    Apart (p ++ [b]) text := by
  refine apart_of_borderless ?_ text
  intro v hv hne hlen hstarts
  obtain ⟨u, c, rfl⟩ := List.eq_nil_or_concat v |>.resolve_left hne
  rw [List.concat_eq_append] at hv hstarts hlen
  obtain ⟨x, hx⟩ := hv
  have hc : c = b := by
    rw [← List.append_assoc] at hx
    exact (List.singleton_inj.mp (List.append_inj' hx rfl).2)
  rw [List.length_append, List.length_append] at hlen
  have hshort : u ++ [c] <+: p :=
    List.prefix_of_prefix_length_le hstarts (List.prefix_append p [b]) (by simp at hlen ⊢; omega)
  exact hb (hc ▸ hshort.subset (by simp))

omit [DecidableEq α] in
theorem eq_of_concat_start {c : α} {B : List α} (hB : c ∉ B) : ∀ {A u : List α}, c ∉ A →
    u ++ [c] <+: A ++ c :: B → u = A
  | [], [], _, _ => rfl
  | [], d :: u, _, h => by
    rw [List.cons_append, List.nil_append, List.cons_prefix_cons] at h
    exact absurd (h.2.subset (by simp)) hB
  | a :: A, [], hA, h => by
    rw [List.nil_append, List.cons_append, List.cons_prefix_cons] at h
    exact absurd (by rw [h.1]; exact List.mem_cons_self) hA
  | a :: A, d :: u, hA, h => by
    rw [List.cons_append, List.cons_append, List.cons_prefix_cons] at h
    rw [h.1, eq_of_concat_start hB (fun hc => hA (List.mem_cons_of_mem a hc)) h.2]

/-- No occurrence of the pattern that starts in the text before ends in this one. -/
def Clear (p before text : List α) : Prop :=
  ∀ v, v <:+ before → v ≠ [] → v.length < p.length → ¬ p <+: v ++ text

omit [DecidableEq α] in
theorem suffix_append_cases {q b z : List α} (h : q <:+ b ++ z) :
    q <:+ z ∨ ∃ v, q = v ++ z ∧ v <:+ b := by
  rcases List.suffix_or_suffix_of_suffix h (List.suffix_append b z) with hz | ⟨v, rfl⟩
  · exact .inl hz
  · exact .inr ⟨v, rfl, List.suffix_append_self_iff.mp h⟩

theorem Clear.not_fits {lead before text u y : List α} {b : α}
    (h : Clear (lead ++ old ++ [b]) before text) (hu : u.length < lead.length)
    (htext : text = u ++ (old ++ y)) : Form.fits ⟨lead, some b⟩ (before ++ u) y = false := by
  refine Bool.eq_false_iff.mpr ?_
  intro hfits
  obtain ⟨hlead, hhead⟩ := Form.fits_iff.mp hfits
  -- the lead reaches into the text before
  obtain ⟨v, hv, hsplit⟩ : ∃ v, v <:+ before ∧ lead = v ++ u := by
    rcases suffix_append_cases hlead with hshort | ⟨v, hv, hsuffix⟩
    · have hle : lead.length ≤ u.length := hshort.length_le
      exact absurd hle (by omega)
    · exact ⟨v, hsuffix, hv⟩
  have hne : v ≠ [] := by
    rintro rfl
    rw [hsplit] at hu
    exact absurd hu (by simp)
  obtain ⟨rest, rfl⟩ : ∃ rest, y = b :: rest := by
    cases y with
    | nil => exact absurd hhead (by simp)
    | cons c rest =>
      simp only [List.head?_cons, Option.some.injEq] at hhead
      exact ⟨rest, by rw [hhead]⟩
  refine h v hv hne ?_ ⟨rest, ?_⟩
  · simp only [hsplit, List.length_append]
    simp
    omega
  · rw [hsplit, htext]
    simp

/-- **A replacement is a substitution** at the places that stand between its lead and its tail. -/
theorem replaceAll_eq_substitute {lead : List α} {b : α} (hold : IsName isName old)
    (hlead : lead ≠ []) (hb : isName b = false) (text : List α) : ∀ before,
    Apart (lead ++ old ++ [b]) text → Clear (lead ++ old ++ [b]) before text →
      replaceAll (lead ++ old ++ [b]) (lead ++ new ++ [b]) text =
        substitute old new (Form.fits ⟨lead, some b⟩) before text := by
  induction hn : text.length using Nat.strong_induction_on generalizing text with
  | h n ih =>
    intro before hapart hclear
    subst hn
    have hlen : 0 < lead.length := List.length_pos_iff.mpr hlead
    by_cases hp : lead ++ old ++ [b] <+: text
    · obtain ⟨y, rfl⟩ := hp
      rw [replaceAll_append (by simp)]
      have hclear' : Clear (lead ++ old ++ [b]) (before ++ (lead ++ old ++ [b])) y := by
        intro v hv hne hshort
        refine hapart [] y v rfl ?_ hne hshort
        exact List.suffix_of_suffix_length_le hv (List.suffix_append _ _) hshort.le
      rw [ih y.length (by simp; omega) y rfl _ hapart.of_append hclear']
      -- nothing is marked in the lead, then the name is
      have htext : lead ++ old ++ [b] ++ y = lead ++ (old ++ b :: y) := by simp
      rw [htext] at hclear ⊢
      have hfits : Form.fits ⟨lead, some b⟩ (before ++ lead) (b :: y) = true :=
        Form.fits_iff.mpr ⟨List.suffix_append _ _, rfl⟩
      rw [substitute_append lead before, substitute_marked hold.nonempty hfits,
        substitute_separator hold hb]
      · simp
      · intro u c u' hu hstarts
        obtain ⟨z, hz⟩ := hstarts
        have hdrop : (c :: (u' ++ (old ++ b :: y))).drop old.length = z := by
          rw [← hz, List.drop_left]
        rw [hdrop]
        refine hclear.not_fits ?_ ?_
        · rw [hu]
          simp
        · rw [hz, hu]
          simp
    · cases text with
      | nil => rfl
      | cons c rest =>
        have hkeep : old <+: c :: rest →
            Form.fits ⟨lead, some b⟩ before ((c :: rest).drop old.length) = false := by
          rintro ⟨z, hz⟩
          have hnot := hclear.not_fits (u := []) (y := z) hlen hz.symm
          rw [← hz, List.drop_left]
          rwa [List.append_nil] at hnot
        rw [replaceAll_cons hp, substitute_cons hkeep]
        rw [ih rest.length (Nat.lt_succ_self _) rest rfl (before ++ [c])]
        · exact Apart.of_append (x := [c]) hapart
        · intro v hv hne hshort
          obtain ⟨u, d, rfl⟩ := List.eq_nil_or_concat v |>.resolve_left hne
          rw [List.concat_eq_append] at hv hshort ⊢
          obtain ⟨x, hx⟩ := hv
          rw [← List.append_assoc] at hx
          obtain ⟨rfl, hd⟩ := List.append_inj' hx rfl
          rw [List.singleton_inj.mp hd, List.append_assoc u]
          by_cases hu : u = []
          · rw [hu]
            exact hp
          · refine hclear u (List.suffix_append x u) hu ?_
            rw [List.length_append] at hshort
            omega

omit [DecidableEq α] in
theorem suffix_word_iff {lead before w : List α} (hold : IsName isName old)
    (hlead : ∃ u c, lead = u ++ [c] ∧ isName c = false) (hbefore : Open isName before)
    (hw : ∀ c ∈ w, isName c = true) :
    lead ++ old <:+ before ++ w ↔ w = old ∧ lead <:+ before := by
  constructor
  · rintro ⟨x, hx⟩
    rw [← List.append_assoc] at hx
    rcases List.append_eq_append_iff.mp hx with ⟨a, hbefore', hold'⟩ | ⟨a, hlead', hw'⟩
    · -- the name would start in the text before
      rcases List.eq_nil_or_concat a with rfl | ⟨a', c, rfl⟩
      · exact ⟨hold'.symm, x, by simpa using hbefore'.symm⟩
      · have hc : isName c = true := hold.all c (by rw [hold']; simp)
        rw [hbefore c (by rw [hbefore']; simp)] at hc
        exact absurd hc (by decide)
    · -- the lead would end in the word
      rcases List.eq_nil_or_concat a with rfl | ⟨a', c, rfl⟩
      · exact ⟨hw', x, by simpa using hlead'⟩
      · obtain ⟨u, d, rfl, hd⟩ := hlead
        rw [List.concat_eq_append, ← List.append_assoc, ← List.append_assoc] at hlead'
        have hdc : d = c := List.singleton_inj.mp (List.append_inj' hlead' rfl).2
        have hc : isName c = true := hw c (by rw [hw']; simp)
        rw [← hdc, hd] at hc
        exact absurd hc (by decide)
  · rintro ⟨rfl, x, rfl⟩
    exact ⟨x, by simp⟩

/-- **A replacement at the end is a substitution** at the end. -/
theorem replaceEnd_eq_substitute {lead : List α} (hold : IsName isName old)
    (hlead : ∃ u c, lead = u ++ [c] ∧ isName c = false) (text : List α) : ∀ before,
    Open isName before →
      replaceEnd (lead ++ old) (lead ++ new) (before ++ text) =
        before ++ substitute old new (Form.fits ⟨lead, none⟩) before text := by
  have hmarks : Delimits isName (Form.fits ⟨lead, none⟩) :=
    Form.Delimited.delimits ⟨hlead, by simp⟩
  induction text using words_induction isName with
  | word w hw =>
    intro before hbefore
    have hsuffix := suffix_word_iff hold hlead hbefore hw
    rw [substitute_last hold hmarks hw, replaceEnd]
    simp only [List.isSuffixOf_iff_suffix, hsuffix, Form.fits_iff, List.head?_nil, and_true]
    split_ifs with h
    · obtain ⟨rfl, x, rfl⟩ := h
      have htake : (x ++ lead ++ w).length - (lead ++ w).length = x.length := by simp
      rw [htake, List.append_assoc x, List.take_left]
      simp
    · rfl
  | step w s rest hw hs ih =>
    intro before hbefore
    have hnot : ¬ (w = old ∧ Form.fits ⟨lead, none⟩ before (s :: rest) = true) := by
      rintro ⟨-, hfits⟩
      exact absurd (Form.fits_iff.mp hfits).2 (by simp)
    have hnext := ih (before ++ w ++ [s]) (open_concat hs)
    rw [substitute_step hold hmarks hw hs, if_neg hnot]
    simpa using hnext

/-! ### What a substitution leaves -/

theorem of_name_start (hold : IsName isName old) (hnew : IsName isName new)
    (hmarks : Delimits isName marks) {s : α} (hs : isName s = false) {b text z : List α}
    (h : old ++ s :: z <+: substitute old new marks b text) :
    ∃ rest, text = old ++ s :: rest ∧ z <+: substitute old new marks (b ++ old ++ [s]) rest := by
  have hclosed : ∀ y : List α, Closed isName (s :: y) := by simpa [Closed] using hs
  induction text using words_induction isName with
  | word w hw =>
    -- a word alone has no separator
    rw [substitute_last hold hmarks hw] at h
    have hc := isName_of_ite hnew hw _ s (h.subset (by simp))
    rw [hs] at hc
    exact absurd hc (by decide)
  | step w t rest hw ht _ =>
    rw [substitute_step hold hmarks hw ht] at h
    have hend : Closed isName (t :: substitute old new marks (b ++ w ++ [t]) rest) := by
      simpa [Closed] using ht
    have hword := eq_of_prefix_word hold (isName_of_ite hnew hw _) hend
      ((List.prefix_append old (s :: z)).trans h) (by
        obtain ⟨y, hy⟩ := h
        rw [← hy, List.append_assoc, List.drop_left]
        exact hclosed (z ++ y))
    have hw' : w = old := by
      split_ifs at hword with hmarked
      · exact hmarked.1
      · exact hword
    rw [hword, List.prefix_append_right_inj, List.cons_prefix_cons] at h
    subst hw'
    exact ⟨rest, by rw [h.1], h.1 ▸ h.2⟩

/-- What starts with a separator and occurs in the result occurs in the text, if it does so from
its start. -/
theorem of_occurrence (hold : IsName isName old) (hnew : IsName isName new)
    (hmarks : Delimits isName marks) {s : α} (hs : isName s = false) {z : List α}
    (hz : ∀ b t, z <+: substitute old new marks b t → z <+: t) (text : List α) :
    ∀ b, s :: z <:+: substitute old new marks b text → s :: z <:+: text := by
  have hskip : ∀ w y : List α, (∀ c ∈ w, isName c = true) → s :: z <:+: w ++ y →
      s :: z <:+: y := by
    intro w y hw hoccurs
    induction w with
    | nil => exact hoccurs
    | cons c w ih =>
      rcases List.infix_cons_iff.mp hoccurs with hstarts | hoccurs
      · rw [List.cons_prefix_cons] at hstarts
        rw [hstarts.1, hw c List.mem_cons_self] at hs
        exact absurd hs (by decide)
      · exact ih (fun d hd => hw d (List.mem_cons_of_mem c hd)) hoccurs
  induction text using words_induction isName with
  | word w hw =>
    intro b h
    rw [substitute_last hold hmarks hw, ← List.append_nil (ite _ _ _)] at h
    exact absurd (hskip _ _ (isName_of_ite hnew hw _) h) (by simp)
  | step w t rest hw ht ih =>
    intro b h
    rw [substitute_step hold hmarks hw ht] at h
    rcases List.infix_cons_iff.mp (hskip _ _ (isName_of_ite hnew hw _) h) with hstarts | hoccurs
    · rw [List.cons_prefix_cons] at hstarts
      obtain ⟨y, hy⟩ := hz _ _ hstarts.2
      exact ⟨w, y, by simp [hstarts.1, hy]⟩
    · exact (ih _ hoccurs).trans ⟨w ++ [t], [], by simp⟩

/-! ### Replacements one after the other -/

def Form.replace (f : Form α) (old new text : List α) : List α :=
  match f.tail with
  | some b => replaceAll (f.lead ++ old ++ [b]) (f.lead ++ new ++ [b]) text
  | none => replaceEnd (f.lead ++ old) (f.lead ++ new) text

/-- The occurrences of a form with the name do not overlap. -/
def Form.Apart (f : Form α) (old text : List α) : Prop :=
  ∀ b ∈ f.tail, Replace.Apart (f.lead ++ old ++ [b]) text

theorem Form.replace_eq_substitute {f : Form α} (hf : f.Delimited isName)
    (hold : IsName isName old) {text : List α} (hapart : f.Apart old text) :
    f.replace old new text = substitute old new f.fits [] text := by
  obtain ⟨lead, tail⟩ := f
  cases tail with
  | none =>
    have hopen : Open isName ([] : List α) := by simp [Open]
    exact replaceEnd_eq_substitute hold hf.lead text [] hopen
  | some b =>
    have hlead : lead ≠ [] := by
      obtain ⟨u, c, hlead, -⟩ := hf.lead
      rw [show lead = u ++ [c] from hlead]
      simp
    refine replaceAll_eq_substitute hold hlead (hf.tail b rfl) text [] (hapart b rfl) ?_
    intro v hv hne
    exact absurd (List.suffix_nil.mp hv) hne

/-- The leads do not tell the two names apart: what a lead starts with, up to an element that can
follow a name, is that element alone, has a separator before it, or has a word before it that
ends neither of the names. -/
def Steady (isName : α → Bool) (old new : List α) (forms : List (Form α)) : Prop :=
  ∀ f ∈ forms, ∀ u s, u ++ [s] <+: f.lead → (∃ g ∈ forms, g.tail = some s) →
    u = [] ∨ (∃ u' c, u = u' ++ [c] ∧ isName c = false) ∨
      ((∀ c ∈ u, isName c = true) ∧ ¬ u <:+ old ∧ ¬ u <:+ new)

/-- The text before a place, and what it has become: the same for all leads. -/
structure Alike (isName : α → Bool) (forms : List (Form α)) (b b' : List α) : Prop where
  left : Open isName b
  right : Open isName b'
  same : ∀ f ∈ forms, ∀ q, q <+: f.lead → (q <:+ b ↔ q <:+ b')

omit [DecidableEq α] in
theorem Alike.keep {forms : List (Form α)} {b b' w : List α} {s : α}
    (h : Alike isName forms b b') (hs : isName s = false) :
    Alike isName forms (b ++ w ++ [s]) (b' ++ w ++ [s]) := by
  refine ⟨open_concat hs, open_concat hs, ?_⟩
  have himp : ∀ b₁ b₂ : List α, ∀ f ∈ forms,
      (∀ q, q <+: f.lead → q <:+ b₁ → q <:+ b₂) → ∀ q, q <+: f.lead →
        q <:+ b₁ ++ (w ++ [s]) → q <:+ b₂ ++ (w ++ [s]) := by
    intro b₁ b₂ f _ hsame q hq hsuffix
    rcases suffix_append_cases hsuffix with hshort | ⟨v, rfl, hv⟩
    · exact List.suffix_append_of_suffix hshort
    · exact List.suffix_append_self_iff.mpr
        (hsame v ((List.prefix_append v _).trans hq) hv)
  intro f hf q hq
  rw [List.append_assoc, List.append_assoc]
  constructor
  · exact himp b b' f hf (fun q hq => (h.same f hf q hq).mp) q hq
  · exact himp b' b f hf (fun q hq => (h.same f hf q hq).mpr) q hq

omit [DecidableEq α] in
theorem not_suffix_name {name b u : List α} (hname : IsName isName name) (hb : Open isName b)
    (hu : (∃ u' c, u = u' ++ [c] ∧ isName c = false) ∨
      ((∀ c ∈ u, isName c = true) ∧ ¬ u <:+ name)) : ¬ u <:+ b ++ name := by
  intro hsuffix
  rcases hu with ⟨u', c, rfl, hc⟩ | ⟨hall, hnot⟩
  · obtain ⟨init, d, rfl⟩ := List.eq_nil_or_concat name |>.resolve_left hname.nonempty
    obtain ⟨x, hx⟩ := hsuffix
    rw [List.concat_eq_append, ← List.append_assoc, ← List.append_assoc] at hx
    have hd : isName d = true := hname.all d (by simp)
    rw [← List.singleton_inj.mp (List.append_inj' hx rfl).2, hc] at hd
    exact absurd hd (by decide)
  · rcases suffix_append_cases hsuffix with hshort | ⟨v, rfl, hv⟩
    · exact hnot hshort
    · rcases List.eq_nil_or_concat v with rfl | ⟨v', c, rfl⟩
      · exact hnot (by simp)
      · obtain ⟨x, rfl⟩ := hv
        have hc : isName c = true := hall c (by simp)
        rw [hb c (by simp)] at hc
        exact absurd hc (by decide)

omit [DecidableEq α] in
theorem Alike.change {forms : List (Form α)} {b b' : List α} {s : α}
    (hold : IsName isName old) (hnew : IsName isName new) (hsteady : Steady isName old new forms)
    (h : Alike isName forms b b') (hs : isName s = false) (htail : ∃ g ∈ forms, g.tail = some s) :
    Alike isName forms (b ++ old ++ [s]) (b' ++ new ++ [s]) := by
  refine ⟨open_concat hs, open_concat hs, ?_⟩
  intro f hf q hq
  rcases List.eq_nil_or_concat q with rfl | ⟨u, c, rfl⟩
  · exact iff_of_true List.nil_suffix List.nil_suffix
  rw [List.concat_eq_append] at hq ⊢
  by_cases hc : c = s
  · subst hc
    rw [List.suffix_append_self_iff, List.suffix_append_self_iff]
    rcases hsteady f hf u c hq htail with rfl | hsep | ⟨hall, hnot, hnot'⟩
    · exact iff_of_true List.nil_suffix List.nil_suffix
    · exact iff_of_false (not_suffix_name hold h.left (.inl hsep))
        (not_suffix_name hnew h.right (.inl hsep))
    · exact iff_of_false (not_suffix_name hold h.left (.inr ⟨hall, hnot⟩))
        (not_suffix_name hnew h.right (.inr ⟨hall, hnot'⟩))
  · have hlast : ∀ z, ¬ u ++ [c] <:+ z ++ [s] := by
      rintro z ⟨x, hx⟩
      rw [← List.append_assoc] at hx
      exact hc (List.singleton_inj.mp (List.append_inj' hx rfl).2)
    exact iff_of_false (hlast _) (hlast _)

theorem substitute_fitsOne {forms done more : List (Form α)} (hold : IsName isName old)
    (hnew : IsName isName new) (hforms : ∀ g ∈ forms, g.Delimited isName)
    (hsteady : Steady isName old new forms) (hdone : ∀ g ∈ done, g ∈ forms)
    (hmore : ∀ g ∈ more, g ∈ forms) (text : List α) :
    substitute old new (fitsOne more) [] (substitute old new (fitsOne done) [] text) =
      substitute old new (fitsOne (done ++ more)) [] text := by
  have hdelimits : ∀ fs : List (Form α), (∀ g ∈ fs, g ∈ forms) → Delimits isName (fitsOne fs) :=
    fun fs hfs => delimits_fitsOne fun g hg => hforms g (hfs g hg)
  have hcompose := substitute_substitute (R := Alike isName forms) hold hnew
    (hdelimits more hmore) (hdelimits done hdone) ?_ ?_ ?_ text [] [] ?_
  · rw [hcompose]
    congr 1
    funext x y
    simp [fitsOne, Bool.or_comm]
  · intro b b' a a' halike hhead
    rw [Bool.eq_iff_iff, fitsOne, fitsOne, List.any_eq_true, List.any_eq_true]
    refine exists_congr fun f => and_congr_right fun hf => ?_
    rw [Form.fits_iff, Form.fits_iff, hhead,
      halike.same f (hmore f hf) f.lead List.prefix_rfl]
  · intro b b' w s halike _ hs
    exact halike.keep hs
  · intro b b' s a halike hmark
    obtain ⟨g, hg, hfit⟩ := List.any_eq_true.mp hmark
    have htail : some s = g.tail := (Form.fits_iff.mp hfit).2
    exact halike.change hold hnew hsteady ((hforms g (hdone g hg)).tail s htail.symm)
      ⟨g, hdone g hg, htail.symm⟩
  · have hopen : Open isName ([] : List α) := by simp [Open]
    exact ⟨hopen, hopen, fun _ _ _ _ => Iff.rfl⟩

/-- **Replacements made one after the other are one substitution** where any of their forms fits. -/
theorem foldl_replace_eq_substitute {forms : List (Form α)} (hold : IsName isName old)
    (hnew : IsName isName new) (hforms : ∀ g ∈ forms, g.Delimited isName)
    (hsteady : Steady isName old new forms) {text : List α}
    (hapart : ∀ f ∈ forms, ∀ done, (∀ g ∈ done, g ∈ forms) →
      f.Apart old (substitute old new (fitsOne done) [] text)) :
    forms.foldl (fun t f => f.replace old new t) text =
      substitute old new (fitsOne forms) [] text := by
  -- the replacements still to be made are what the induction is on
  have hrun : ∀ rest done : List (Form α), (∀ g ∈ done ++ rest, g ∈ forms) →
      rest.foldl (fun t f => f.replace old new t) (substitute old new (fitsOne done) [] text) =
        substitute old new (fitsOne (done ++ rest)) [] text := by
    intro rest
    induction rest with
    | nil =>
      intro done _
      rw [List.append_nil]
      rfl
    | cons f rest ih =>
      intro done hmem
      have hf : f ∈ forms := hmem f (by simp)
      have hdone : ∀ g ∈ done, g ∈ forms := fun g hg => hmem g (by simp [hg])
      have hone : f.fits = fitsOne [f] := by
        funext b a
        simp [fitsOne]
      rw [List.foldl_cons,
        Form.replace_eq_substitute (hforms f hf) hold (hapart f hf done hdone), hone,
        substitute_fitsOne hold hnew hforms hsteady hdone (by simpa using hf), ih (done ++ [f])]
      · rw [List.append_assoc]
        rfl
      · intro g hg
        exact hmem g (by simpa using hg)
  have hnone : substitute old new (fitsOne []) [] text = text := by
    have hkeep : substitute old new (fitsOne []) [] (text ++ []) = _ :=
      substitute_append text [] fun _ _ _ _ _ => rfl
    simpa [substitute, substituteFrom] using hkeep
  have hall := hrun forms [] fun g hg => hg
  rwa [hnone] at hall

end names

end EvidraBench.Lib.Replace
