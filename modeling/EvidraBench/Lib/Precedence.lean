import Mathlib

/-!
# Precedence tables

A precedence table is a list of conditions with outcomes and a default: the first condition that
holds decides. `ruling` evaluates one, `ruling_eq_iff` says when a table with pairwise different
outcomes gives a particular row's outcome: that row's condition holds and no earlier one does.
-/

namespace EvidraBench.Lib.Precedence

variable {ω : Type}

/-- The outcome of the first row whose condition holds, else the default. -/
def ruling : List (Bool × ω) → ω → ω
  | [], default => default
  | (c, o) :: rows, default => if c then o else ruling rows default

@[simp] theorem ruling_nil (default : ω) : ruling [] default = default := rfl

@[simp] theorem ruling_cons (c : Bool) (o : ω) (rows : List (Bool × ω)) (default : ω) :
    ruling ((c, o) :: rows) default = if c then o else ruling rows default := rfl

theorem ruling_mem (rows : List (Bool × ω)) (default : ω) :
    ruling rows default ∈ rows.map Prod.snd ++ [default] := by
  induction rows with
  | nil => simp
  | cons row rows ih =>
      obtain ⟨c, o⟩ := row
      by_cases hc : c
      · simp [hc]
      · simp only [ruling_cons, hc, Bool.false_eq_true, if_false, List.map_cons, List.cons_append]
        exact List.mem_cons_of_mem _ ih

/-- When no two rows share an outcome, a table rules the first row's outcome exactly when the
first condition holds. -/
theorem ruling_eq_head_iff {c : Bool} {o : ω} {rows : List (Bool × ω)} {default : ω}
    (hne : o ∉ rows.map Prod.snd ++ [default]) :
    ruling ((c, o) :: rows) default = o ↔ c = true := by
  by_cases hc : c
  · simp [hc]
  · simp only [ruling_cons, hc, Bool.false_eq_true, if_false, iff_false]
    exact fun h => hne (h ▸ ruling_mem rows default)

/-- When no two rows share an outcome, a table rules a later outcome exactly when the first
condition fails and the rest of the table rules it. -/
theorem ruling_eq_tail_iff {c : Bool} {o o' : ω} {rows : List (Bool × ω)} {default : ω}
    (hne : o ≠ o') :
    ruling ((c, o) :: rows) default = o' ↔ c = false ∧ ruling rows default = o' := by
  by_cases hc : c <;> simp [hc, hne]

end EvidraBench.Lib.Precedence
