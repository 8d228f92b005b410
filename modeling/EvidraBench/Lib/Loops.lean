import Mathlib

/-!
# Loops

Rules for the loops a program is made of, over arbitrary types.

Results: `foldl_gather`, `flatMap_ite_singleton`, `poll_eq_some`, `poll_isSome`, `foldl_history`,
`any_or`, `all_and`, `flatMap_orderedInsert`.
-/

namespace EvidraBench.Lib

variable {α β : Type}

/-! ### Gathering loops -/

theorem foldl_gather {step : List β × Bool → α → List β × Bool} (out : α → List β)
    (flag : α → Bool) (hstep : ∀ acc a, step acc a = (acc.1 ++ out a, acc.2 || flag a))
    (xs : List α) :
    ∀ acc, xs.foldl step acc = (acc.1 ++ xs.flatMap out, acc.2 || xs.any flag) := by
  induction xs with
  | nil => intro acc; simp
  | cons x xs ih =>
      intro acc
      rw [List.foldl_cons, ih, hstep]
      simp [Bool.or_assoc]

theorem flatMap_ite_map (p : α → Bool) (f : α → β) (xs : List α) :
    (xs.flatMap fun x => if p x then [f x] else []) = (xs.filter p).map f := by
  induction xs with
  | nil => rfl
  | cons x xs ih =>
      rw [List.flatMap_cons, ih]
      by_cases h : p x <;> simp [h]

theorem flatMap_ite_singleton (p : α → Bool) (xs : List α) :
    (xs.flatMap fun x => if p x then [x] else []) = xs.filter p := by
  simpa using flatMap_ite_map p id xs

/-! ### Tests over lists -/

theorem any_or (xs : List α) (f g : α → Bool) :
    (xs.any fun x => f x || g x) = (xs.any f || xs.any g) := by
  induction xs with
  | nil => rfl
  | cons x xs ih => simp only [List.any_cons, ih, Bool.or_assoc, Bool.or_left_comm]

theorem all_and (xs : List α) (f g : α → Bool) :
    (xs.all fun x => f x && g x) = (xs.all f && xs.all g) := by
  induction xs with
  | nil => rfl
  | cons x xs ih => simp only [List.all_cons, ih, Bool.and_assoc, Bool.and_left_comm]

/-! ### Ordered insertion -/

section orderedInsert

variable {α β : Type} {r : α → α → Prop} [DecidableRel r]

/-- An element that contributes nothing, or comes before every element that contributes, is
inserted in front. -/
theorem flatMap_orderedInsert {a : α} {f : α → List β} {xs : List α}
    (h : f a = [] ∨ ∀ b ∈ xs, f b = [] ∨ r a b) :
    (xs.orderedInsert r a).flatMap f = f a ++ xs.flatMap f := by
  induction xs with
  | nil => simp
  | cons b xs ih =>
      rw [List.orderedInsert_cons]
      split_ifs with hab
      · simp
      · have htail : f a = [] ∨ ∀ b ∈ xs, f b = [] ∨ r a b :=
          h.imp_right fun h c hc => h c (List.mem_cons_of_mem _ hc)
        have hempty : f a = [] ∨ f b = [] :=
          h.imp_right fun h => (h b List.mem_cons_self).resolve_right hab
        rw [List.flatMap_cons, ih htail, List.flatMap_cons]
        rcases hempty with hempty | hempty <;> simp [hempty]

end orderedInsert

/-! ### Polling loops -/

section poll

variable {σ ι : Type} {step : σ → ι → σ} {stop : σ → ι → Bool}

variable (step stop) in
/-- Take steps until one says stop; `none` when the inputs run out before. -/
def poll : σ → List ι → Option σ
  | _, [] => none
  | s, i :: rest => if stop (step s i) i then some (step s i) else poll (step s i) rest

variable (step stop) in
def polled : σ → List ι → List ι
  | _, [] => []
  | s, i :: rest => if stop (step s i) i then [i] else i :: polled (step s i) rest

theorem poll_eq_some : ∀ {is : List ι} {s s' : σ}, poll step stop s is = some s' →
    s' = (polled step stop s is).foldl step s
  | [], _, _, h => by simp [poll] at h
  | i :: is, s, s', h => by
      rw [poll] at h
      rw [polled]
      split_ifs at h ⊢
      · exact (Option.some.inj h).symm
      · exact poll_eq_some h

theorem polled_initial : ∀ (is : List ι) (s : σ), polled step stop s is <+: is
  | [], _ => List.prefix_rfl
  | i :: is, s => by
      rw [polled]
      split_ifs
      · exact (List.prefix_append [i] is)
      · exact List.cons_prefix_cons.mpr ⟨rfl, polled_initial is _⟩

theorem poll_isSome {i : ι} : ∀ {is before : List ι} {s : σ},
    polled step stop s is = before ++ [i] → stop ((before ++ [i]).foldl step s) i →
      (poll step stop s is).isSome
  | [], before, _, h, _ => by simp [polled] at h
  | j :: is, before, s, h, hstop => by
      rw [polled] at h
      rw [poll]
      split_ifs at h ⊢ with hj
      · rfl
      · rcases before with _ | ⟨b, before⟩
        · -- the loop went on after `i`, so it did not stop there
          obtain ⟨rfl, -⟩ := List.cons_eq_cons.mp h
          exact absurd (by simpa using hstop) hj
        · obtain ⟨rfl, htail⟩ := List.cons_eq_cons.mp h
          exact poll_isSome htail (by simpa using hstop)

theorem foldl_history {P : List ι → σ → Prop} {s : σ} (hinit : P [] s)
    (hstep : ∀ done s i, P done s → P (done ++ [i]) (step s i)) (is : List ι) :
    P is (is.foldl step s) := by
  induction is using List.reverseRecOn with
  | nil => exact hinit
  | append_singleton done i ih =>
      rw [List.foldl_append]
      exact hstep done _ i ih

end poll

end EvidraBench.Lib
