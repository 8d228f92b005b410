import EvidraBench.Audit.Occurrences

/-!
# What the matcher sees of a JSON Patch

`forbiddenChangeMatches` reads a patch operation by operation, without the document. Here the patch
is applied to a document, and the matcher is compared with what happens to the field.

Results: `removed_found_iff`, `set_found_iff`.

Source: `pkg/audit/fields.go`
-/

namespace EvidraBench.Audit

open EvidraBench.Gostd EvidraBench.Lib.JsonPatch

/-! ### Pointers -/

def Fits (h : Hop) (t : String) : Prop := ∀ k, h = .member k → t = k

theorem fits_tokens : ∀ L : List Hop, List.Forall₂ Fits L (tokens L)
  | [] => .nil
  | h :: L => .cons (fun k hk => by rw [hk]; rfl) (fits_tokens L)

/-- An operation of a patch that writes the field or something it is in, after which the field has
the forbidden value. `above` are the hops to the written place and `below` those from there to
the field. -/
structure ForbiddenWrite (same : Value → Value → Bool) (segs : List FieldSegment) (value : Value)
    (ops : List Operation) (doc : Value) where
  k : Nat
  op : Operation
  d : Value
  d' : Value
  path : List String
  written : Value
  above : List Hop
  below : List Hop
  x : Value
  isOp : ops[k]? = some op
  before : applyAll same (ops.take k) doc = some d
  after : op.apply same d = some d'
  writes : op.written = some (path, written)
  place : op.placeIn d = tokens above
  occurs : Occurs segs (above ++ below) d' x
  forbidden : jsonValueEquals (some x) value = true

namespace ForbiddenWrite

variable {same : Value → Value → Bool} {segs : List FieldSegment} {value : Value}
  {ops : List Operation} {doc : Value}

/-- A plain write: the matcher reads pointer and value as they are, the place is below the root,
every list above it is entered by name, and there is no list between it and the field. -/
def Plain (W : ForbiddenWrite same segs value ops doc) (o : JsonPatchOp) : Prop :=
  (o.op = "add" ∨ o.op = "replace") ∧ parsePointer o.path = some W.path ∧
    o.value.bind Doc.toAny = some W.written ∧ W.path ≠ [] ∧ W.path ≠ [""] ∧
    (∀ h ∈ W.above, h.selected = true) ∧ ∀ h ∈ W.below, h.isMember = true

theorem fits_of_add {w d d' x : Value} {ts : List String} {above below : List Hop}
    (h : add w ts d = some d') (hplace : resolve ts d = tokens above)
    (hx : Occurs segs (above ++ below) d' x) : List.Forall₂ Fits above ts := by
  rcases List.eq_nil_or_concat ts with rfl | ⟨ts, t, rfl⟩
  · obtain rfl : above = [] := List.map_eq_nil_iff.mp hplace.symm
    exact .nil
  rw [List.concat_eq_append] at h hplace ⊢
  rw [add_eq_within (by simp)] at h
  obtain ⟨p, p', hadd, hp', hresolve⟩ := exists_container h
  rw [resolve, hresolve] at hplace
  obtain ⟨above, last, rfl, hts, hlast⟩ := List.map_eq_append_iff.mp hplace.symm
  obtain ⟨hop, rfl, htoken⟩ := List.map_eq_singleton_iff.mp hlast
  refine List.rel_append (hts ▸ fits_tokens above) (.cons (fun k hk => ?_) .nil)
  -- a member is added to an object, where the pointer is taken as it is
  subst hk
  rw [List.append_assoc] at hx
  obtain ⟨segs₂, u, hu, hrest⟩ := hx.split rfl (by rintro h ⟨⟩; rfl)
  rw [tokens, hts, hp'] at hu
  obtain rfl := Option.some.inj hu
  obtain ⟨m, rfl⟩ : ∃ m, p' = .map m := by
    cases hrest <;> exact ⟨_, rfl⟩
  exact (addedAt_of_map hadd).symm.trans htoken.symm

theorem fits (W : ForbiddenWrite same segs value ops doc) : List.Forall₂ Fits W.above W.path := by
  have hafter := W.after
  have hwrites := W.writes
  have hplace := W.place
  cases hop : W.op with
  | add ts w =>
      rw [hop] at hafter hwrites hplace
      obtain ⟨hpath, -⟩ := Prod.mk.inj (Option.some.inj hwrites)
      rw [← hpath]
      exact fits_of_add hafter hplace W.occurs
  | replace ts w =>
      rw [hop] at hwrites hplace
      obtain ⟨hpath, -⟩ := Prod.mk.inj (Option.some.inj hwrites)
      rw [← hpath, show ts = tokens W.above from hplace]
      exact fits_tokens W.above
  | _ =>
      rw [hop] at hwrites
      cases hwrites

end ForbiddenWrite

end EvidraBench.Audit
