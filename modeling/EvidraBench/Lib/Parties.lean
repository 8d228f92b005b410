import Mathlib

/-!
# A service that several parties share

Parties call a service one after the other; a call changes the state of the service and is answered.
What a party is to see is its own part of the state, and what is to happen to it is what would
happen if nobody else had called.

Results: `run_alone`, `answers_eq_iff`.
-/

namespace EvidraBench.Lib.Parties

variable {σ π κ ρ : Type} [DecidableEq π]

section run

variable (serve : σ → π → κ → σ × ρ)

/-- Serve the calls of a history: the state after it and the answers, by party. -/
def run : σ → List (π × κ) → σ × List (π × ρ)
  | s, [] => (s, [])
  | s, (p, c) :: h =>
      let served := serve s p c
      let rest := run served.1 h
      (rest.1, (p, served.2) :: rest.2)

end run

def answers (p : π) (rs : List (π × ρ)) : List ρ := (rs.filter (·.1 = p)).map Prod.snd

def alone (p : π) (h : List (π × κ)) : List (π × κ) := h.filter (·.1 = p)

/-- What a service must do for its parties to share it. -/
structure Shared (serve : σ → π → κ → σ × ρ) (part : π → σ → σ) (clear : π → σ → κ → Prop) :
    Prop where
  other : ∀ {s p q c}, q ≠ p → part p (serve s q c).1 = part p s
  answer : ∀ {s p c}, clear p s c → (serve s p c).2 = (serve (part p s) p c).2
  own : ∀ {s p c}, clear p s c → part p (serve s p c).1 = (serve (part p s) p c).1

/-- Every call of the party is clear when it is made. -/
def Clear (serve : σ → π → κ → σ × ρ) (clear : π → σ → κ → Prop) (p : π) :
    σ → List (π × κ) → Prop
  | _, [] => True
  | s, (q, c) :: h => (q = p → clear p s c) ∧ Clear serve clear p (serve s q c).1 h

section lemmas

variable {serve : σ → π → κ → σ × ρ} {part : π → σ → σ} {clear : π → σ → κ → Prop} {p q : π}
  {s : σ} {c : κ} {h : List (π × κ)}

@[simp] theorem alone_cons_other (hq : q ≠ p) : alone p ((q, c) :: h) = alone p h := by
  unfold alone
  rw [List.filter_cons_of_neg (by simpa using hq)]

@[simp] theorem alone_cons_own : alone p ((p, c) :: h) = (p, c) :: alone p h := by
  unfold alone
  rw [List.filter_cons_of_pos (by simp)]

@[simp] theorem answers_run_other (hq : q ≠ p) :
    answers p (run serve s ((q, c) :: h)).2 = answers p (run serve (serve s q c).1 h).2 := by
  unfold answers
  rw [run, List.filter_cons_of_neg (by simpa using hq)]

@[simp] theorem answers_run_own :
    answers p (run serve s ((p, c) :: h)).2 =
      (serve s p c).2 :: answers p (run serve (serve s p c).1 h).2 := by
  unfold answers
  rw [run, List.filter_cons_of_pos (by simp), List.map_cons]

/-- **Clear calls are as if the party were alone.** -/
theorem run_alone (hshared : Shared serve part clear) :
    ∀ {s : σ}, Clear serve clear p s h →
      answers p (run serve s h).2 = answers p (run serve (part p s) (alone p h)).2 ∧
        part p (run serve s h).1 = (run serve (part p s) (alone p h)).1 := by
  induction h with
  | nil => exact fun _ => ⟨rfl, rfl⟩
  | cons call h ih =>
      obtain ⟨q, c⟩ := call
      rintro s ⟨hclear, hrest⟩
      obtain ⟨hanswers, hpart⟩ := ih hrest
      by_cases hq : q = p
      · subst hq
        have hown := hshared.own (hclear rfl)
        rw [hown] at hanswers hpart
        rw [alone_cons_own, answers_run_own, answers_run_own, hanswers, hshared.answer (hclear rfl)]
        exact ⟨rfl, hpart⟩
      · rw [hshared.other hq] at hanswers hpart
        rw [alone_cons_other hq, answers_run_other hq]
        exact ⟨hanswers, hpart⟩

/-- **A party cannot tell** whether it is alone exactly when its calls are clear, if every call that
is not is answered differently. -/
theorem answers_eq_iff (hshared : Shared serve part clear)
    (htell : ∀ {s c}, ¬ clear p s c → (serve s p c).2 ≠ (serve (part p s) p c).2) :
    ∀ {s : σ}, answers p (run serve s h).2 = answers p (run serve (part p s) (alone p h)).2 ↔
      Clear serve clear p s h := by
  refine fun {s} => ⟨fun hanswers => ?_, fun hclear => (run_alone hshared hclear).1⟩
  induction h generalizing s with
  | nil => trivial
  | cons call h ih =>
      obtain ⟨q, c⟩ := call
      by_cases hq : q = p
      · subst hq
        rw [alone_cons_own, answers_run_own, answers_run_own] at hanswers
        obtain ⟨hfirst, hrest⟩ := List.cons.inj hanswers
        have hclear : clear q s c := by
          by_contra hnot
          exact htell hnot hfirst
        rw [← hshared.own hclear] at hrest
        exact ⟨fun _ => hclear, ih hrest⟩
      · rw [alone_cons_other hq, answers_run_other hq, ← hshared.other hq] at hanswers
        exact ⟨fun heq => absurd heq hq, ih hanswers⟩

end lemmas

end EvidraBench.Lib.Parties
