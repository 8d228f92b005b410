import Mathlib

/-!
# Codecs and framed files

A codec writes a value as octets and reads it back. What is read back need not be the value, but a
normal form of it (white space that is not kept, say) that is written alike.

Results: `splitOn_frame`.
-/

namespace EvidraBench.Lib

structure Codec (α : Type) where
  marshal : α → Except String (List UInt8)
  unmarshal : List UInt8 → Except String α

/-- What is written is read back in its normal form, and that is written alike. -/
structure Codec.RoundTrips {α : Type} (c : Codec α) (normal : α → α) : Prop where
  read : ∀ {a : α} {data : List UInt8}, c.marshal a = .ok data → c.unmarshal data = .ok (normal a)
  stable : ∀ {a : α} {data : List UInt8}, c.marshal a = .ok data → c.marshal (normal a) = .ok data

theorem Codec.RoundTrips.normal_eq {α : Type} {c : Codec α} {normal : α → α}
    (h : c.RoundTrips normal) {a b : α} {data : List UInt8} (ha : c.marshal a = .ok data)
    (hb : c.marshal b = .ok data) : normal a = normal b :=
  Except.ok.inj ((h.read ha).symm.trans (h.read hb))

/-- A codec that knows some values by their texts; `strip` is what it ignores of a text. -/
def Codec.ofTable {α : Type} [DecidableEq α] (strip : List UInt8 → List UInt8)
    (table : List (α × List UInt8)) : Codec α where
  marshal a :=
    match table.find? fun r => r.1 = a with
    | some r => .ok r.2
    | none => .error "unknown value"
  unmarshal data :=
    match table.find? fun r => r.2 = strip data with
    | some r => .ok r.1
    | none => .error "unknown text"

theorem Codec.ofTable_roundTrips {α : Type} [DecidableEq α] {strip : List UInt8 → List UInt8}
    {table : List (α × List UInt8)} (hnodup : (table.map Prod.snd).Nodup)
    (hstrip : ∀ r ∈ table, strip r.2 = r.2) : (Codec.ofTable strip table).RoundTrips id := by
  refine ⟨fun {a data} h => ?_, fun h => h⟩
  simp only [Codec.ofTable] at h
  split at h
  case h_2 => cases h
  case h_1 r hfind =>
    obtain rfl := Except.ok.inj h
    have hmem := List.mem_of_find?_eq_some hfind
    obtain rfl : r.1 = a := by simpa using List.find?_some hfind
    simp only [Codec.ofTable, hstrip r hmem]
    split
    case h_1 r' hfind' =>
      have hmem' := List.mem_of_find?_eq_some hfind'
      have htext : r'.2 = r.2 := by simpa using List.find?_some hfind'
      rw [List.inj_on_of_nodup_map hnodup hmem' hmem htext]
      rfl
    case h_2 hnone =>
      exact absurd (List.find?_eq_none.mp hnone r hmem) (by simp)

section Frame

variable {α : Type}

/-- Records one after the other, each ended by the separator. -/
def frame (sep : α) (records : List (List α)) : List α := records.flatMap (· ++ [sep])

theorem frame_append (sep : α) (records : List (List α)) (r : List α) :
    frame sep (records ++ [r]) = frame sep records ++ (r ++ [sep]) := by
  rw [frame, List.flatMap_append]
  simp [frame]

theorem splitOn_frame [DecidableEq α] {sep : α} {records : List (List α)}
    (h : ∀ r ∈ records, sep ∉ r) : (frame sep records).splitOn sep = records ++ [[]] := by
  induction records with
  | nil => exact List.splitOn_nil sep
  | cons r rest ih =>
      have hframe : frame sep (r :: rest) = r ++ sep :: frame sep rest := by simp [frame]
      rw [hframe, List.splitOn_append_cons_self_of_not_mem (h r List.mem_cons_self),
        ih fun r hr => h r (List.mem_cons_of_mem _ hr)]
      rfl

end Frame

end EvidraBench.Lib
