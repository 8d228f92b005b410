import Mathlib

/-!
# Transition systems

A system has a first state and a step function that takes an action, or refuses it. Several parties
that run at once are one system whose actions say who moves.

Results: `Reach.invariant`, `exec_invariant`, `exists_rest`, `exists_run`, `sum_update`.
-/

namespace EvidraBench.Lib

structure System (σ α : Type) where
  init : σ
  step : σ → α → Option σ

namespace System

variable {σ α : Type} {S : System σ α}

/-! ### Finitely many steps -/

inductive Reach (S : System σ α) : σ → Prop
  | init : Reach S S.init
  | step {s s' : σ} {a : α} : Reach S s → S.step s a = some s' → Reach S s'

/-- The state after some actions, if each is accepted. -/
def exec (S : System σ α) : σ → List α → Option σ
  | s, [] => some s
  | s, a :: as =>
      match S.step s a with
      | some s' => exec S s' as
      | none => none

theorem Reach.invariant {I : σ → Prop} (hinit : I S.init)
    (hstep : ∀ {s s' a}, Reach S s → I s → S.step s a = some s' → I s') {s : σ}
    (h : Reach S s) : I s := by
  induction h with
  | init => exact hinit
  | step hreach hs ih => exact hstep hreach ih hs

theorem exec_cons {s s' : σ} {a : α} {as : List α} (h : S.step s a = some s') :
    S.exec s (a :: as) = S.exec s' as := by
  rw [exec, h]

theorem exec_append {s' : σ} {bs : List α} :
    ∀ {s : σ} {as : List α}, S.exec s as = some s' → S.exec s (as ++ bs) = S.exec s' bs
  | s, [], h => by
      obtain rfl := Option.some.inj h
      rfl
  | s, a :: as, h => by
      rw [exec] at h
      rcases hs : S.step s a with _ | t
      · rw [hs] at h
        cases h
      · rw [hs] at h
        rw [List.cons_append, exec_cons hs]
        exact exec_append h

theorem Reach.exec {s' : σ} :
    ∀ {s : σ} {as : List α}, Reach S s → S.exec s as = some s' → Reach S s'
  | s, [], hreach, h => by
      obtain rfl := Option.some.inj h
      exact hreach
  | s, a :: as, hreach, h => by
      rw [System.exec] at h
      rcases hs : S.step s a with _ | t
      · rw [hs] at h
        cases h
      · rw [hs] at h
        exact Reach.exec (hreach.step hs) h

theorem exec_invariant {I : σ → Prop} {Q : σ → α → Prop}
    (hstep : ∀ {s s' a}, I s → Q s a → S.step s a = some s' → I s') {s' : σ} :
    ∀ {s : σ} {as : List α}, I s →
      (∀ i a t, as[i]? = some a → S.exec s (as.take i) = some t → Q t a) →
      S.exec s as = some s' → I s'
  | s, [], hs, _, h => by
      obtain rfl := Option.some.inj h
      exact hs
  | s, a :: as, hs, hall, h => by
      rw [System.exec] at h
      rcases ht : S.step s a with _ | t
      · rw [ht] at h
        cases h
      · rw [ht] at h
        refine exec_invariant hstep (hstep hs (hall 0 a s rfl rfl) ht) ?_ h
        intro i b u hb hu
        exact hall (i + 1) b u hb ((exec_cons ht).trans hu)

theorem exists_reach_of_exec {β : Type} {view : σ → β} {b : β} {as : List α}
    (h : (S.exec S.init as).map view = some b) : ∃ s, Reach S s ∧ view s = b := by
  obtain ⟨s, hs, hview⟩ := Option.map_eq_some_iff.mp h
  exact ⟨s, Reach.init.exec hs, hview⟩

/-! ### Runs -/

structure Run (S : System σ α) where
  state : ℕ → σ
  act : ℕ → α
  start : state 0 = S.init
  next : ∀ i, S.step (state i) (act i) = some (state (i + 1))

def Enabled (S : System σ α) (P : α → Prop) (s : σ) : Prop := ∃ a, P a ∧ S.step s a ≠ none

/-- The class is not put off for ever while one of its actions is possible. -/
def Run.Fair (r : Run S) (P : α → Prop) : Prop :=
  ∀ i, (∀ j, i ≤ j → S.Enabled P (r.state j)) → ∃ j, i ≤ j ∧ P (r.act j)

theorem Run.reach (r : Run S) : ∀ i, Reach S (r.state i)
  | 0 => by
      rw [r.start]
      exact .init
  | i + 1 => (r.reach i).step (r.next i)

theorem Run.persists {I : σ → Prop} (r : Run S) {i : ℕ} (hi : I (r.state i))
    (hstep : ∀ k, i ≤ k → I (r.state k) → I (r.state (k + 1))) {j : ℕ} (hij : i ≤ j) :
    I (r.state j) := by
  induction j, hij using Nat.le_induction with
  | base => exact hi
  | succ k hk ih => exact hstep k hk ih

/-- **Rest.** A class of actions that use up a measure, which the other actions do not give back,
is at some time not possible any more, from any point on. -/
theorem Run.exists_rest {P : α → Prop} {μ : σ → ℕ} (r : Run S) (hfair : r.Fair P)
    (hdown : ∀ k, P (r.act k) → μ (r.state (k + 1)) < μ (r.state k))
    (hkeep : ∀ k, ¬ P (r.act k) → μ (r.state (k + 1)) ≤ μ (r.state k)) (i : ℕ) :
    ∃ j, i ≤ j ∧ ¬ S.Enabled P (r.state j) := by
  have hle : ∀ k, μ (r.state (k + 1)) ≤ μ (r.state k) := by
    intro k
    by_cases hP : P (r.act k)
    · exact (hdown k hP).le
    · exact hkeep k hP
  -- take the point from which the measure is as low as it ever gets
  obtain ⟨m, ⟨k, hk, rfl⟩, hmin⟩ :
      ∃ m, (∃ k, i ≤ k ∧ μ (r.state k) = m) ∧ ∀ k, i ≤ k → m ≤ μ (r.state k) := by
    have hex : ∃ m, ∃ k, i ≤ k ∧ μ (r.state k) = m := ⟨_, i, le_rfl, rfl⟩
    classical
    refine ⟨Nat.find hex, Nat.find_spec hex, ?_⟩
    intro k hk
    exact Nat.find_min' hex ⟨k, hk, rfl⟩
  by_contra hnone
  push Not at hnone
  obtain ⟨j, hkj, hP⟩ := hfair k fun j hj => hnone j (hk.trans hj)
  have hstill : μ (r.state j) ≤ μ (r.state k) :=
    r.persists (I := fun s => μ s ≤ μ (r.state k)) le_rfl (fun l _ hl => (hle l).trans hl) hkj
  have hlower := hdown j hP
  have hlow := hmin (j + 1) (by omega)
  omega

theorem exists_run {Q : σ → α → Prop}
    (h : ∀ s, Reach S s → ∃ a s', S.step s a = some s' ∧ Q s a) :
    ∃ r : Run S, ∀ i, Q (r.state i) (r.act i) := by
  choose act hact using fun s : { s // Reach S s } => h s.1 s.2
  choose next hnext using hact
  let state : ℕ → { s // Reach S s } := fun i =>
    i.rec ⟨S.init, .init⟩ fun _ s => ⟨next s, s.2.step (hnext s).1⟩
  exact ⟨⟨fun i => (state i).1, fun i => act (state i), rfl, fun i => (hnext (state i)).1⟩,
    fun i => (hnext (state i)).2⟩

end System

/-! ### Sums over the parts of a state -/

theorem sum_update {ι β : Type} [DecidableEq ι] {parts : Finset ι} {i : ι} (hi : i ∈ parts)
    (f : ι → β) (b : β) (g : β → ℕ) :
    ∑ j ∈ parts, g (Function.update f i b j) + g (f i) = ∑ j ∈ parts, g (f j) + g b := by
  have hrest : ∑ j ∈ parts.erase i, g (Function.update f i b j) =
      ∑ j ∈ parts.erase i, g (f j) := by
    refine Finset.sum_congr rfl fun j hj => ?_
    rw [Function.update_of_ne (Finset.ne_of_mem_erase hj)]
  rw [← Finset.add_sum_erase parts _ hi, ← Finset.add_sum_erase parts (fun j => g (f j)) hi, hrest,
    Function.update_self]
  omega

end EvidraBench.Lib
