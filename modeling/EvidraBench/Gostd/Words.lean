import EvidraBench.Gostd.Strings

/-!
# Words

Texts that are split at white space, and texts without certain characters.

Results: `fields_join`, `cut_append`, `cut_of_not_mem`.
-/

namespace EvidraBench.Gostd

/-! ### Splitting into words -/

theorem fieldsFrom_word {w : List Char} (hw : ∀ c ∈ w, isSpace c = false) (rest : List Char) :
    ∀ acc, fieldsFrom acc (w ++ rest) = fieldsFrom (w.reverse ++ acc) rest := by
  induction w with
  | nil =>
    intro acc
    rfl
  | cons c w ih =>
    intro acc
    rw [List.cons_append, fieldsFrom, hw c List.mem_cons_self, if_neg Bool.false_ne_true,
      ih fun d hd => hw d (List.mem_cons_of_mem c hd)]
    simp

theorem toList_join (w : String) (ws : List String) :
    (join (w :: ws) " ").toList = w.toList ++ ws.flatMap fun v => ' ' :: v.toList := by
  induction ws generalizing w with
  | nil => simp [join]
  | cons v ws ih =>
    have hblank : " ".toList = [' '] := rfl
    have hstep : join (w :: v :: ws) " " = join ((w ++ " " ++ v) :: ws) " " := rfl
    rw [hstep, ih, String.toList_append, String.toList_append, hblank]
    simp

def Unspaced (s : String) : Prop := s.toList ≠ [] ∧ (s.toList.all fun c => !isSpace c) = true

instance (s : String) : Decidable (Unspaced s) := inferInstanceAs (Decidable (_ ∧ _))

theorem Unspaced.isSpace_of_mem {s : String} (h : Unspaced s) {c : Char} (hc : c ∈ s.toList) :
    isSpace c = false := by
  simpa using List.all_eq_true.mp h.2 c hc

theorem Unspaced.append {s r : String} (hr : Unspaced r) (hs : Unspaced s) : Unspaced (s ++ r) := by
  refine ⟨?_, ?_⟩
  · rw [String.toList_append]
    exact List.append_ne_nil_of_left_ne_nil hs.1 _
  · rw [String.toList_append, List.all_append, hs.2, hr.2]
    rfl

theorem fields_join {ws : List String} (hws : ∀ w ∈ ws, Unspaced w) :
    fields (join ws " ") = ws := by
  have hsplit : ∀ (ws : List String), (∀ w ∈ ws, Unspaced w) → ∀ w : String, Unspaced w →
      fieldsFrom [] (w.toList ++ ws.flatMap fun v => ' ' :: v.toList) =
        (w :: ws).map String.toList := by
    intro ws
    induction ws with
    | nil =>
      intro _ w hw
      rw [fieldsFrom_word fun c hc => hw.isSpace_of_mem hc]
      simp [fieldsFrom, hw.1]
    | cons v ws ih =>
      intro hws w hw
      have hrest := ih (fun x hx => hws x (List.mem_cons_of_mem v hx)) v (hws v List.mem_cons_self)
      have hblank : isSpace ' ' = true := by decide
      rw [fieldsFrom_word fun c hc => hw.isSpace_of_mem hc, List.flatMap_cons, List.cons_append,
        fieldsFrom, if_pos hblank, if_neg (by simpa using hw.1), hrest]
      simp
  cases ws with
  | nil => rfl
  | cons w ws =>
    rw [fields, toList_join,
      hsplit ws (fun x hx => hws x (List.mem_cons_of_mem w hx)) w (hws w List.mem_cons_self),
      List.map_map]
    have hid : (String.ofList ∘ String.toList) = id := funext fun _ => String.ofList_toList
    rw [hid, List.map_id]

/-! ### Texts without certain characters -/

theorem Unspaced.trimSpace_eq {s : String} (hs : Unspaced s) : trimSpace s = s := by
  have h : ∀ c ∈ s.toList, isSpace c = false := fun c hc => hs.isSpace_of_mem hc
  have hdrop : ∀ l : List Char, (∀ c ∈ l, isSpace c = false) → l.dropWhile isSpace = l := by
    intro l hl
    cases l with
    | nil => rfl
    | cons c l => exact List.dropWhile_cons_of_neg (by simp [hl c List.mem_cons_self])
  rw [trimSpace, trimChars, hdrop _ h, hdrop _ fun c hc => h c (List.mem_reverse.mp hc),
    List.reverse_reverse, String.ofList_toList]

theorem contains_char {s : String} {c : Char} :
    contains s (String.ofList [c]) = true ↔ c ∈ s.toList := by
  rw [contains, String.toList_ofList]
  refine containsChars_iff.trans ⟨fun h => h.subset List.mem_cons_self, fun h => ?_⟩
  obtain ⟨before, after, hs⟩ := List.append_of_mem h
  exact ⟨before, after, by simp [hs]⟩

theorem cutChars_of_not_mem {c : Char} {sep s : List Char} (hsep : c ∈ sep) (h : c ∉ s) :
    cutChars sep s = none := by
  induction s with
  | nil =>
    have hne : sep ≠ [] := List.ne_nil_of_mem hsep
    simp [cutChars, hne]
  | cons d s ih =>
    have hpre : sep.isPrefixOf (d :: s) = false := by
      by_contra hpre
      exact h ((List.isPrefixOf_iff_prefix.mp (Bool.not_eq_false _ ▸ hpre)).subset hsep)
    simp [cutChars, hpre, ih fun hmem => h (List.mem_cons_of_mem d hmem)]

theorem cut_of_not_mem {s : String} {c : Char} (h : c ∉ s.toList) : cut s c = (s, "", false) := by
  have hspan : s.toList.span (· ≠ c) = (s.toList, []) := by
    rw [List.span_eq_takeWhile_dropWhile]
    have hall : ∀ d ∈ s.toList, decide (d ≠ c) = true := by
      intro d hd
      exact decide_eq_true fun heq => h (heq ▸ hd)
    rw [List.takeWhile_eq_self_iff.mpr hall, List.dropWhile_eq_nil_iff.mpr hall]
  rw [cut, hspan]

theorem cut_append {k n : String} {c : Char} (h : c ∉ k.toList) :
    cut (k ++ String.ofList [c] ++ n) c = (k, n, true) := by
  have hall : ∀ d ∈ k.toList, decide (d ≠ c) = true := by
    intro d hd
    exact decide_eq_true fun heq => h (heq ▸ hd)
  have htext : (k ++ String.ofList [c] ++ n).toList = k.toList ++ c :: n.toList := by
    simp
  have hspan : (k ++ String.ofList [c] ++ n).toList.span (· ≠ c) = (k.toList, c :: n.toList) := by
    rw [htext, List.span_eq_takeWhile_dropWhile, List.takeWhile_append_of_pos hall,
      List.dropWhile_append_of_pos hall]
    simp
  rw [cut, hspan]
  simp

end EvidraBench.Gostd
