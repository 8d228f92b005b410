import Mathlib

/-!
# Buffered channels

A channel is a queue of bounded length that is closed at most once: a send on a closed channel and a
second close are faults of the program. A send that would have to wait may be given up instead, and
what it carried is then lost.

Channels are numbered. `each` does one operation to several of them in turn; `each_eq_ok` says what
comes out if the operation succeeds on each and no channel is listed twice.
-/

namespace EvidraBench.Lib

inductive Panic
  | sendOnClosed
  | closeOfClosed
deriving DecidableEq, Repr

/-- What waits to be received, and whether more may come. -/
structure Channel (α : Type) where
  buffer : List α := []
  closed : Bool := false

namespace Channel

variable {α : Type} (capacity : ℕ) (a : α) (c : Channel α)

/-- An open channel after a send that does not wait: what finds no room is lost. -/
def offer : Channel α :=
  if c.buffer.length < capacity then { c with buffer := c.buffer ++ [a] } else c

def trySend : Except Panic (Channel α) :=
  if c.closed then .error .sendOnClosed else .ok (c.offer capacity a)

def shut : Channel α := { c with closed := true }

def close : Except Panic (Channel α) := if c.closed then .error .closeOfClosed else .ok c.shut

/-- A send that does not wait, and then the close. -/
def sendLast : Except Panic (Channel α) := do (← c.trySend capacity a).close

/-- What comes next, or nothing more if the channel is closed; otherwise the receiver waits. -/
def receive : Option (Option α × Channel α) :=
  match c.buffer with
  | a :: rest => some (some a, { c with buffer := rest })
  | [] => if c.closed then some (none, c) else none

variable {capacity a c}

@[simp]
theorem closed_offer : (c.offer capacity a).closed = c.closed := by
  rw [offer]
  split <;> rfl

theorem trySend_of_open (h : c.closed = false) : c.trySend capacity a = .ok (c.offer capacity a) :=
  if_neg (by simp [h])

theorem close_of_open (h : c.closed = false) : c.close = .ok c.shut := if_neg (by simp [h])

theorem sendLast_of_open (h : c.closed = false) :
    c.sendLast capacity a = .ok (c.offer capacity a).shut := by
  rw [sendLast, trySend_of_open h]
  exact close_of_open (closed_offer.trans h)

theorem receive_eq_none : c.receive = none ↔ c.buffer = [] ∧ c.closed = false := by
  rw [receive]
  rcases c with ⟨_ | ⟨a, rest⟩, _ | _⟩ <;> simp

theorem receive_eq_some {next : Option α} {c' : Channel α} (h : c.receive = some (next, c')) :
    (∃ a rest, next = some a ∧ c.buffer = a :: rest ∧ c' = { c with buffer := rest }) ∨
      next = none ∧ c.buffer = [] ∧ c.closed = true ∧ c' = c := by
  rw [receive] at h
  rcases hbuffer : c.buffer with _ | ⟨a, rest⟩
  · rw [hbuffer] at h
    obtain ⟨hclosed, h⟩ := Option.ite_none_right_eq_some.mp h
    obtain ⟨rfl, rfl⟩ := Prod.mk.inj (Option.some.inj h)
    exact .inr ⟨rfl, rfl, hclosed, rfl⟩
  · rw [hbuffer] at h
    obtain ⟨rfl, rfl⟩ := Prod.mk.inj (Option.some.inj h)
    exact .inl ⟨a, rest, rfl, rfl, rfl⟩

/-- One operation on several channels, which stops at the first fault. -/
def each (f : Channel α → Except Panic (Channel α)) :
    List ℕ → (ℕ → Channel α) → Except Panic (ℕ → Channel α)
  | [], cs => .ok cs
  | ch :: chs, cs =>
      match f (cs ch) with
      | .error p => .error p
      | .ok c => each f chs (Function.update cs ch c)

theorem each_eq_ok {f : Channel α → Except Panic (Channel α)} (g : Channel α → Channel α)
    {chs : List ℕ} {cs : ℕ → Channel α} (hnodup : chs.Nodup)
    (hok : ∀ ch ∈ chs, f (cs ch) = .ok (g (cs ch))) :
    each f chs cs = .ok fun ch => if ch ∈ chs then g (cs ch) else cs ch := by
  induction chs generalizing cs with
  | nil => simp [each]
  | cons ch chs ih =>
    obtain ⟨hnot, hnodup⟩ := List.nodup_cons.mp hnodup
    -- the first channel is not among the others, which therefore are as they were
    have hother : ∀ ch' ∈ chs, Function.update cs ch (g (cs ch)) ch' = cs ch' := by
      intro ch' hch'
      exact Function.update_of_ne (ne_of_mem_of_not_mem hch' hnot) _ _
    rw [each, hok ch List.mem_cons_self]
    dsimp only
    rw [ih hnodup]
    · congr 1
      funext ch'
      by_cases hch' : ch' ∈ chs
      · rw [if_pos hch', if_pos (List.mem_cons_of_mem _ hch'), hother ch' hch']
      · rw [if_neg hch']
        by_cases heq : ch' = ch
        · subst heq
          rw [Function.update_self, if_pos List.mem_cons_self]
        · rw [Function.update_of_ne heq, if_neg (by simp [heq, hch'])]
    · intro ch' hch'
      rw [hother ch' hch']
      exact hok ch' (List.mem_cons_of_mem _ hch')

end Channel

end EvidraBench.Lib
