import Mathlib

/-!
# Computations that leave a trace

A `Traced ε φ α` performs effects of type `ε` in order and ends with a value or a failure. What it
did before a failure stays in the trace, which is what tells it from `Except`.

Results: `outcome_bind_eq_ok`, `trace_bind`.
-/

namespace EvidraBench.Lib

variable {ε φ α β : Type}

/-- A trace of effects and how the computation ended. -/
structure Traced (ε φ α : Type) where
  trace : List ε
  outcome : Except φ α

namespace Traced

instance : Monad (Traced ε φ) where
  pure a := ⟨[], .ok a⟩
  bind x f :=
    match x.outcome with
    | .ok a => ⟨x.trace ++ (f a).trace, (f a).outcome⟩
    | .error e => ⟨x.trace, .error e⟩

/-- The effects happen if the outcome is a success. -/
def attempt (outcome : Except φ α) (effects : List ε) : Traced ε φ α :=
  match outcome with
  | .ok a => ⟨effects, .ok a⟩
  | .error e => ⟨[], .error e⟩

/-- An attempt that is made only if the condition holds. -/
def attemptIf (c : Bool) (outcome : Except φ Unit) (effects : List ε) : Traced ε φ Unit :=
  if c then attempt outcome effects else pure ()

@[simp] theorem outcome_pure (a : α) : (pure a : Traced ε φ α).outcome = .ok a := rfl

@[simp] theorem trace_pure (a : α) : (pure a : Traced ε φ α).trace = [] := rfl

@[simp] theorem outcome_attempt (x : Except φ α) (es : List ε) : (attempt x es).outcome = x := by
  cases x <;> rfl

theorem trace_attempt {x : Except φ α} {a : α} (h : x = .ok a) (es : List ε) :
    (attempt x es).trace = es := by
  subst h
  rfl

theorem outcome_bind_eq_ok {x : Traced ε φ α} {f : α → Traced ε φ β} {b : β} :
    (x >>= f).outcome = .ok b ↔ ∃ a, x.outcome = .ok a ∧ (f a).outcome = .ok b := by
  rcases x with ⟨trace, e | a⟩
  · simp [bind]
  · simp [bind]

theorem trace_bind {x : Traced ε φ α} {a : α} (h : x.outcome = .ok a) (f : α → Traced ε φ β) :
    (x >>= f).trace = x.trace ++ (f a).trace := by
  simp [bind, h]

theorem exists_of_bind {x : Traced ε φ α} {f : α → Traced ε φ β} {b : β}
    (h : (x >>= f).outcome = .ok b) :
    ∃ a, x.outcome = .ok a ∧ (f a).outcome = .ok b ∧
      (x >>= f).trace = x.trace ++ (f a).trace := by
  obtain ⟨a, hx, hf⟩ := outcome_bind_eq_ok.mp h
  exact ⟨a, hx, hf, trace_bind hx f⟩

theorem mem_trace_attemptIf {c : Bool} {x : Except φ Unit} {es : List ε} {e : ε}
    (h : e ∈ (attemptIf c x es).trace) : e ∈ es := by
  unfold attemptIf at h
  split at h
  · rcases x with _ | _
    · cases h
    · exact h
  · cases h

end Traced

end EvidraBench.Lib
