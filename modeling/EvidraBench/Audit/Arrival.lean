import EvidraBench.Audit.Window

/-!
# The order in which events arrive

The collector hands events to `Store.Add` poll by poll, reads a log again from the start when it has
to, and merges several nodes. What the store then holds should depend on the events alone.

Results: `arrival_insensitive_iff`.

Source: `pkg/audit/events.go`
-/

namespace EvidraBench.Audit

open EvidraBench.Gostd EvidraBench.Lib

/-! ### Runs of `Add` -/

/-- The store after a run of `Store.Add` calls. -/
def ingest (batches : List (List Event)) : Store :=
  batches.foldl (fun s batch => (s.add batch).1) Store.newStore

theorem ingest_eq (batches : List (List Event)) :
    ingest batches = Store.newStore.recordAll batches.flatten := by
  have fold : ∀ (batches : List (List Event)) (s : Store),
      batches.foldl (fun s batch => (s.add batch).1) s = s.recordAll batches.flatten := by
    intro batches
    induction batches with
    | nil => exact fun _ => rfl
    | cons batch batches ih =>
        intro s
        rw [List.foldl_cons, ih, List.flatten_cons, Journal.recordAll_append]
        rfl
  exact fold batches Store.newStore

theorem mem_ingest {batches : List (List Event)}
    (h : ∀ e ∈ batches.flatten, ∀ f ∈ batches.flatten, e.key = f.key → e = f) {e : Event} :
    e ∈ (ingest batches).entries ↔ e ∈ batches.flatten := by
  rw [ingest_eq]
  exact Journal.mem_recordAll_empty h

/-! ### Stores of the same events -/

section congr

variable {s s' : Store} (h : ∀ e, e ∈ s.entries ↔ e ∈ s'.entries)
include h

theorem Store.all_congr : s.all = s'.all := Journal.timeline_congr _ h

theorem Store.window_congr (start finish : Event) :
    s.window start finish = s'.window start finish := by
  have hall : s.timeline Event.effectiveTimestamp = s'.timeline Event.effectiveTimestamp :=
    Store.all_congr h
  have hops : s.ops = s'.ops := by
    unfold Store.ops Journal.groups
    rw [hall]
  have hgroup : ∀ id, s.group id = s'.group id := by
    intro id
    unfold Store.group Journal.groupOf
    rw [hall]
  unfold Store.window
  simp only [hops, hgroup]

end congr

/-! ### What must not depend on the order -/

/-- The same events in the same order, up to events of equal effective timestamp. -/
def SameUpToTies (xs ys : List Event) : Prop :=
  xs.Perm ys ∧ xs.map Event.effectiveTimestamp = ys.map Event.effectiveTimestamp

/-- The same operations, with the same event each, and the same incomplete ids. -/
structure SameWindow (w w' : WindowResult) : Prop where
  ops : ∀ e, e ∈ w.ops ↔ e ∈ w'.ops
  incomplete : ∀ id, id ∈ w.incomplete ↔ id ∈ w'.incomplete
  delegatedOps : ∀ e, e ∈ w.delegatedOps ↔ e ∈ w'.delegatedOps

/-- A run of `Add` calls hands over exactly the events of a set, in any order, batching and
repetition. -/
def Delivers (batches : List (List Event)) (events : Finset Event) : Prop :=
  ∀ e, e ∈ batches.flatten ↔ e ∈ events

/-- Whatever way the events arrive, the listing and every window are the same. -/
def ArrivalInsensitive (events : Finset Event) : Prop :=
  ∀ batches batches', Delivers batches events → Delivers batches' events →
    SameUpToTies (ingest batches).all (ingest batches').all ∧
    ∀ start finish,
      SameWindow ((ingest batches).window start finish) ((ingest batches').window start finish)

theorem delegated_ids_subset (s : Store) (start finish : Event) :
    (s.window start finish).delegatedOps.map Event.auditID ⊆
      (s.window start finish).ops.map Event.auditID := by
  intro id hid
  rw [window_delegated_ids, List.mem_filter] at hid
  rw [window_ops_ids, List.mem_filter]
  refine ⟨hid.1, ?_⟩
  obtain ⟨hconn, hplaced⟩ := Bool.and_eq_true_iff.mp hid.2
  unfold decisive
  -- the decisive event of a channel is its terminal event, else its establishment
  rcases hterm : firstTerminal (s.group id) with _ | c
  · rw [hterm, Option.none_or] at hplaced
    rcases hst : firstStarted (s.group id) with _ | cs
    · simp [hst] at hplaced
    · simpa [hconn, hst] using hplaced
  · simpa [hterm] using hplaced

theorem first_of_key_stays {e f : Event} (hkey : e.key = f.key) (hne : f ≠ e)
    (rest : List Event) :
    e ∈ (ingest [e :: rest]).entries ∧ f ∉ (ingest [e :: rest]).entries := by
  have hin : e ∈ (ingest [e :: rest]).entries := by
    rw [ingest_eq, List.flatten_singleton]
    have hfirst : e ∈ (Store.newStore.record e).entries := by
      simp [Journal.record, Store.newStore, Journal.empty]
    exact Journal.subset_recordAll rest _ hfirst
  exact ⟨hin, fun hf => hne ((ingest [e :: rest]).eq_of_key_eq hf hin hkey.symm)⟩

/-- **Order of arrival.** For a finite set of events, the listing and the windows do not depend on
order, batching and repetition, and delegated operations are among the operations, exactly when no
two events of the set have the same key text. Events of one audit id and stage have one key text, so
they are then equal; that audit id and stage determine the event is not enough.
Source: `Store.Add`, `Store.All`, `Store.Window`, `Event.Key` -/
theorem arrival_insensitive_iff (events : Finset Event) :
    (ArrivalInsensitive events ∧ ∀ batches, Delivers batches events → ∀ start finish,
      ((ingest batches).window start finish).delegatedOps.map Event.auditID ⊆
        ((ingest batches).window start finish).ops.map Event.auditID) ↔
      ∀ e ∈ events, ∀ f ∈ events, e.key = f.key → e = f := by
  constructor
  · rintro ⟨hsame, -⟩ e he f hf hkey
    by_contra hne
    -- hand over `e` first in one run and `f` first in the other
    have hdeliver : ∀ x ∈ events, Delivers [x :: events.toList] events := by
      intro x hx y
      simp only [List.flatten_singleton, List.mem_cons, Finset.mem_toList]
      constructor
      · rintro (rfl | hy)
        · exact hx
        · exact hy
      · exact Or.inr
    obtain ⟨⟨hperm, -⟩, -⟩ := hsame _ _ (hdeliver e he) (hdeliver f hf)
    have hin : e ∈ (ingest [e :: events.toList]).all :=
      (Journal.mem_timeline _).mpr (first_of_key_stays hkey (Ne.symm hne) _).1
    have hout : e ∉ (ingest [f :: events.toList]).entries :=
      (first_of_key_stays hkey.symm hne _).2
    exact hout ((Journal.mem_timeline _).mp (hperm.mem_iff.mp hin))
  · intro hkeys
    refine ⟨fun batches batches' hb hb' => ?_, fun batches _ start finish =>
      delegated_ids_subset _ start finish⟩
    have hstored : ∀ {batches : List (List Event)}, Delivers batches events →
        ∀ e, e ∈ (ingest batches).entries ↔ e ∈ events := by
      intro batches hb e
      rw [mem_ingest, hb e]
      intro e he f hf hkey
      exact hkeys e ((hb e).mp he) f ((hb f).mp hf) hkey
    have hentries : ∀ e, e ∈ (ingest batches).entries ↔ e ∈ (ingest batches').entries := by
      intro e
      rw [hstored hb, hstored hb']
    rw [Store.all_congr hentries]
    refine ⟨⟨List.Perm.refl _, rfl⟩, fun start finish => ?_⟩
    rw [Store.window_congr hentries start finish]
    exact ⟨fun _ => Iff.rfl, fun _ => Iff.rfl, fun _ => Iff.rfl⟩

/-- Two events of different audit ids and stages with one key text. -/
def collidingEvents : Event × Event :=
  (sampleEvent "a|b" "c" "patch" "/api/v1/pods/web" 3,
    sampleEvent "a" "b|c" "delete" "/api/v1/pods/web" 4)

/-- Audit id and stage tell the two events apart, and the store holds whichever came first. -/
theorem arrival_order_shows :
    (∀ e ∈ ({collidingEvents.1, collidingEvents.2} : Finset Event),
      ∀ f ∈ ({collidingEvents.1, collidingEvents.2} : Finset Event),
        e.auditID = f.auditID → e.stage = f.stage → e = f) ∧
    Delivers [[collidingEvents.1, collidingEvents.2]] {collidingEvents.1, collidingEvents.2} ∧
    Delivers [[collidingEvents.2, collidingEvents.1]] {collidingEvents.1, collidingEvents.2} ∧
    ¬ SameUpToTies (ingest [[collidingEvents.1, collidingEvents.2]]).all
      (ingest [[collidingEvents.2, collidingEvents.1]]).all := by
  refine ⟨by decide, ?_, ?_, ?_⟩
  · intro e
    simp
  · intro e
    simp [or_comm]
  · rintro ⟨hperm, -⟩
    have hin : collidingEvents.1 ∈ (ingest [[collidingEvents.1, collidingEvents.2]]).all := by
      decide
    have hout : collidingEvents.1 ∉ (ingest [[collidingEvents.2, collidingEvents.1]]).all := by
      decide
    exact hout (hperm.mem_iff.mp hin)

end EvidraBench.Audit
