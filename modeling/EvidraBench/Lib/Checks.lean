import Mathlib

/-!
# Validation by checks

A validator is a sequence of checks that stops at the first failure. `require` is one check and
`checkAll` runs one check for each item of a list; the simp lemmas turn "the validator accepts" into
the conjunction of what the checks ask for.
-/

namespace EvidraBench.Lib

variable {α ε : Type}

/-- Fail with `e` unless `c` holds. -/
def require (c : Bool) (e : ε) : Except ε Unit := if c then .ok () else .error e

/-- Run `f` on the items in order, stopping at the first failure. -/
def checkAll (f : α → Except ε Unit) : List α → Except ε Unit
  | [] => .ok ()
  | x :: xs => do
      f x
      checkAll f xs

@[simp] theorem require_eq_ok {c : Bool} {e : ε} : require c e = .ok () ↔ c = true := by
  cases c <;> simp [require]

theorem seq_eq_ok {β : Type} {x : Except ε α} {f : α → Except ε β} {b : β} :
    (x >>= f) = .ok b ↔ ∃ a, x = .ok a ∧ f a = .ok b := by
  rcases x with e | a
  · simp [bind, Except.bind]
  · simp [bind, Except.bind]

@[simp] theorem check_bind_eq_ok {β : Type} {c : Except ε Unit} {d : Unit → Except ε β} {b : β} :
    (c >>= d) = .ok b ↔ c = .ok () ∧ d () = .ok b := by
  rw [seq_eq_ok]
  exact ⟨fun ⟨(), h⟩ => h, fun h => ⟨(), h⟩⟩

@[simp] theorem mapError_eq_ok {ε' : Type} {x : Except ε α} {f : ε → ε'} {a : α} :
    x.mapError f = .ok a ↔ x = .ok a := by
  cases x <;> simp [Except.mapError]

@[simp] theorem checkAll_eq_ok {f : α → Except ε Unit} :
    ∀ {xs : List α}, checkAll f xs = .ok () ↔ ∀ x ∈ xs, f x = .ok ()
  | [] => by simp [checkAll]
  | x :: xs => by
      rw [checkAll, check_bind_eq_ok, checkAll_eq_ok]
      simp

theorem exists_of_checkAll_zipIdx {f : α × Nat → Except ε Unit} {xs : List α}
    (h : checkAll f xs.zipIdx = .ok ()) {x : α} (hx : x ∈ xs) : ∃ i, f (x, i) = .ok () := by
  obtain ⟨i, hi, rfl⟩ := List.mem_iff_getElem.mp hx
  exact ⟨i, checkAll_eq_ok.mp h _ (List.mem_zipIdx_iff_getElem?.mpr (by simp [hi]))⟩

end EvidraBench.Lib
