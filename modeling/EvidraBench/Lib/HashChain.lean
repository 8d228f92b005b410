import Mathlib

/-!
# Hash chains

A record names the digest of the record before it, the first one a fixed start. `prev` and `digest`
are functions of the record; nothing is said about how the digest is computed.

Results: `nodup_of_linked`, `prefix_of_linked`, `map_eq_of_tip_eq`.
-/

namespace EvidraBench.Lib

section HashChain

variable {κ δ : Type} (prev digest : κ → δ)

/-- Each record names the digest of the one before it, and the first one `start`. -/
def Linked (start : δ) : List κ → Prop
  | [] => True
  | r :: rs => prev r = start ∧ Linked (digest r) rs

def tip (start : δ) : List κ → δ
  | [] => start
  | r :: rs => tip (digest r) rs

variable {prev digest} {start : δ} {xs ys : List κ}

theorem tip_append (xs : List κ) (r : κ) (start : δ) :
    tip digest start (xs ++ [r]) = digest r := by
  induction xs generalizing start with
  | nil => rfl
  | cons x xs ih => exact ih (digest x)

theorem getLast?_map_eq_tip (hne : xs ≠ []) (start : δ) :
    xs.getLast?.map digest = some (tip digest start xs) := by
  obtain ⟨xs, r, rfl⟩ := (List.eq_nil_or_concat' xs).resolve_left hne
  rw [tip_append, List.getLast?_concat]
  rfl

theorem linked_map {κ' : Type} {f : κ' → κ} {xs : List κ'} :
    Linked prev digest start (xs.map f) ↔
      Linked (fun x => prev (f x)) (fun x => digest (f x)) start xs := by
  induction xs generalizing start with
  | nil => exact Iff.rfl
  | cons x xs ih => exact and_congr_right fun _ => ih

theorem Linked.congr {prev' digest' : κ → δ} (h : Linked prev digest start xs)
    (hprev : ∀ x ∈ xs, prev' x = prev x) (hdigest : ∀ x ∈ xs, digest' x = digest x) :
    Linked prev' digest' start xs := by
  induction xs generalizing start with
  | nil => trivial
  | cons x xs ih =>
      obtain ⟨hx, hxs⟩ := h
      obtain ⟨hprevx, hprev⟩ := List.forall_mem_cons.mp hprev
      obtain ⟨hdigestx, hdigest⟩ := List.forall_mem_cons.mp hdigest
      refine ⟨hprevx.trans hx, ?_⟩
      rw [hdigestx]
      exact ih hxs hprev hdigest

theorem linked_append (r : κ) (start : δ) :
    Linked prev digest start (xs ++ [r]) ↔
      Linked prev digest start xs ∧ prev r = tip digest start xs := by
  induction xs generalizing start with
  | nil => simp [Linked, tip]
  | cons x xs ih =>
      show prev x = start ∧ Linked prev digest (digest x) (xs ++ [r]) ↔
        (prev x = start ∧ Linked prev digest (digest x) xs) ∧ prev r = tip digest (digest x) xs
      rw [ih, and_assoc]

theorem Linked.of_prefix (h : Linked prev digest start xs) (hp : ys <+: xs) :
    Linked prev digest start ys := by
  obtain ⟨zs, rfl⟩ := hp
  induction ys generalizing start with
  | nil => trivial
  | cons y ys ih => exact ⟨h.1, ih h.2⟩

theorem Linked.map_prev (h : Linked prev digest start xs) :
    xs.map prev ++ [tip digest start xs] = start :: xs.map digest := by
  induction xs generalizing start with
  | nil => rfl
  | cons x xs ih =>
      obtain ⟨hx, hxs⟩ := h
      show prev x :: (xs.map prev ++ [tip digest (digest x) xs]) =
        start :: digest x :: xs.map digest
      rw [ih hxs, hx]

/-- **No digest occurs twice.** The start is no digest, and records with the same digest are the
same. -/
theorem nodup_of_linked (h : Linked prev digest start xs) (hstart : ∀ x ∈ xs, digest x ≠ start)
    (hbinding : ∀ x ∈ xs, ∀ y ∈ xs, digest x = digest y → x = y) :
    (start :: xs.map digest).Nodup := by
  -- induction from the right: the last record names the tip, which no record before it names
  induction xs using List.reverseRecOn with
  | nil => simp
  | append_singleton xs r ih =>
      obtain ⟨hxs, hr⟩ := (linked_append r start).mp h
      have hnodup := ih hxs (fun x hx => hstart x (by simp [hx]))
        fun x hx y hy => hbinding x (by simp [hx]) y (by simp [hy])
      have hfresh : ∀ x ∈ xs, digest x ≠ digest r := by
        intro x hx heq
        obtain rfl := hbinding x (by simp [hx]) r (by simp) heq
        rw [← hxs.map_prev, ← hr] at hnodup
        exact (List.nodup_append.mp hnodup).2.2 _ (List.mem_map_of_mem hx) _
          (List.mem_singleton_self _) rfl
      rw [List.map_append, ← List.cons_append]
      refine List.nodup_append.mpr ⟨hnodup, List.nodup_singleton _, ?_⟩
      rintro a ha b hb rfl
      obtain rfl := List.mem_singleton.mp hb
      rcases List.mem_cons.mp ha with heq | hmem
      · exact hstart r (by simp) heq
      · obtain ⟨x, hx, heq⟩ := List.mem_map.mp hmem
        exact hfresh x hx heq

/-- **A chain made of another's records is a prefix of it.** -/
theorem prefix_of_linked (hxs : Linked prev digest start xs) (hys : Linked prev digest start ys)
    (hstart : ∀ x ∈ xs, digest x ≠ start)
    (hbinding : ∀ x ∈ xs, ∀ y ∈ xs, digest x = digest y → x = y) (hsub : ∀ y ∈ ys, y ∈ xs) :
    ys <+: xs := by
  have hnodup := nodup_of_linked hxs hstart hbinding
  rw [← hxs.map_prev] at hnodup
  obtain ⟨hprev, -, htip⟩ := List.nodup_append.mp hnodup
  induction ys using List.reverseRecOn with
  | nil => exact List.nil_prefix
  | append_singleton ys r ih =>
      obtain ⟨hys, hr⟩ := (linked_append r start).mp hys
      have hmem : r ∈ xs := hsub r (by simp)
      obtain ⟨zs, rfl⟩ := ih hys fun y hy => hsub y (by simp [hy])
      rcases zs with _ | ⟨z, zs⟩
      · rw [List.append_nil] at hmem htip
        exact absurd hr (htip _ (List.mem_map_of_mem hmem) _ (List.mem_singleton_self _))
      · -- the record after the prefix names the same digest
        have hz : prev z = tip digest start ys := by
          have hnext : Linked prev digest start (ys ++ [z]) := hxs.of_prefix ⟨zs, by simp⟩
          exact ((linked_append z start).mp hnext).2
        obtain rfl : r = z :=
          List.inj_on_of_nodup_map hprev hmem (by simp) (hr.trans hz.symm)
        exact ⟨zs, by simp⟩

/-- **The tip commits to the chain**, as far as digests commit to records. -/
theorem map_eq_of_tip_eq {β : Type} {f : κ → β} (hxs : Linked prev digest start xs)
    (hys : Linked prev digest start ys) (hstart : ∀ x, x ∈ xs ∨ x ∈ ys → digest x ≠ start)
    (hbinding : ∀ x ∈ xs, ∀ y ∈ ys, digest x = digest y → prev x = prev y ∧ f x = f y)
    (htip : tip digest start xs = tip digest start ys) : xs.map f = ys.map f := by
  induction xs using List.reverseRecOn generalizing ys with
  | nil =>
    rcases List.eq_nil_or_concat' ys with rfl | ⟨ys, s, rfl⟩
    · rfl
    · rw [tip_append] at htip
      exact absurd htip.symm (hstart s (by simp))
  | append_singleton xs r ih =>
    rw [tip_append] at htip
    rcases List.eq_nil_or_concat' ys with rfl | ⟨ys, s, rfl⟩
    · exact absurd htip (hstart r (by simp))
    · rw [tip_append] at htip
      obtain ⟨hprev, hf⟩ := hbinding r (by simp) s (by simp) htip
      obtain ⟨hxs, hr⟩ := (linked_append r start).mp hxs
      obtain ⟨hys, hs⟩ := (linked_append s start).mp hys
      have hrest := ih hxs hys (fun x hx => hstart x (hx.imp (by simp_all) (by simp_all)))
        (fun x hx y hy => hbinding x (by simp [hx]) y (by simp [hy])) (by rw [← hr, hprev, hs])
      simp [hrest, hf]

end HashChain

end EvidraBench.Lib
