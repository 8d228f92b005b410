import EvidraBench.Benchsvc.Runs
import EvidraBench.Lib.Parties

/-!
# Tenants that ingest runs into one table

`internal/benchsvc/service.go`: `IngestRun`, `IngestRunBatch` and `DeleteRun`, each one transaction.
Reads and deletions ask for the tenant of a run, but the id that a caller chooses is the primary key
of all runs, so that an id is taken for everyone once anyone has used it.

Results: `shared_runs`, `serve_ne`, `ingest_isolated_iff`.
-/

namespace EvidraBench.Benchsvc

open EvidraBench.Gostd EvidraBench.Lib

/-! ### Requests -/

/-- A run and the artifacts that come with it. An empty text or message is an absent artifact.
Source: `IngestRunRequest` -/
structure IngestRunRequest where
  id : String
  columns : RunColumns
  /-- `none` is the zero time. -/
  createdAt : Option Int := none
  transcript : Bytes := []
  toolCalls : Bytes := []
  timeline : Bytes := []
  autopsy : Bytes := []
  scorecard : Bytes := []
  runError : Bytes := []
  runEvents : Bytes := []

/-- The artifacts that a request has, with their types.
Source: `ingestArtifacts` -/
def IngestRunRequest.ingestArtifacts (req : IngestRunRequest) : List (String × Artifact) :=
  [("transcript", ⟨"text/plain", req.transcript⟩),
    ("tool_calls", ⟨"application/json", req.toolCalls⟩),
    ("timeline", ⟨"application/json", req.timeline⟩),
    ("failure_autopsy", ⟨"application/json", req.autopsy⟩),
    ("scorecard", ⟨"application/json", req.scorecard⟩),
    ("run_error", ⟨"application/json", req.runError⟩),
    ("run_events", ⟨"application/json", req.runEvents⟩)].filter fun a => !a.2.data.isEmpty

/-- The row of a request, or why its values are refused.
Source: `IngestRun`, the arguments of `insertQ` -/
def IngestRunRequest.row (db : Postgres) (tenantID : String) (now : Int) (req : IngestRunRequest) :
    Except String RunRow := do
  let columns ← db.columns req.id req.columns
  return { id := req.id, tenantID, columns, createdAt := req.createdAt.getD now }

/-! ### Transactions -/

namespace RunStore

/-- Store artifacts of a run one after the other; `wrap` is the text of an error by artifact type.
Source: `IngestRun`, the loop over the artifacts -/
def storeArtifacts (db : Postgres) (wrap : String → String) (id : String) :
    RunStore → List (String × Artifact) → Except String RunStore
  | s, [] => .ok s
  | s, (kind, a) :: rest =>
      match s.storeArtifact id kind a with
      | none => .error (wrap kind ++ db.foreignKey)
      | some s => storeArtifacts db wrap id s rest

def commit {α : Type} (s : RunStore) (tx : Except String (RunStore × α)) :
    RunStore × Except String α :=
  match tx with
  | .error e => (s, .error e)
  | .ok (s', result) => (s', .ok result)

/-- Insert a run and store its artifacts; `none` if its id is taken.
Source: `IngestRun`, `IngestRunBatch`: `insertQ` and `artifactQ` -/
def addRun (db : Postgres) (wrap : String → String) (s : RunStore) (r : RunRow)
    (artifacts : List (String × Artifact)) : Option (Except String RunStore) :=
  (s.insertRun r).map fun s => s.storeArtifacts db wrap r.id artifacts

/-- The statements of `IngestRun`.
Source: `IngestRun` -/
def ingestRunTx (db : Postgres) (tenantID : String) (s : RunStore) (req : IngestRunRequest)
    (now : Int) : Except String (RunStore × Nat) :=
  match req.row db tenantID now with
  | .error e => .error ("benchsvc.IngestRun: insert run: " ++ e)
  | .ok r =>
      match s.addRun db (fun kind => "benchsvc.IngestRun: store " ++ kind ++ ": ") r
        req.ingestArtifacts with
      | none => .error ("benchsvc.IngestRun: insert run: " ++ db.duplicateKey)
      | some (.error e) => .error e
      | some (.ok s) => .ok (s, 1)

/-- The turns of the loop of `IngestRunBatch`: a run whose id is taken is passed over. Each run
comes with the time of its turn.
Source: `IngestRunBatch` -/
def ingestBatchTx (db : Postgres) (tenantID : String) :
    RunStore → Nat → List (IngestRunRequest × Int) → Except String (RunStore × Nat)
  | s, inserted, [] => .ok (s, inserted)
  | s, inserted, (req, now) :: rest =>
      match req.row db tenantID now with
      | .error e => .error ("benchsvc.IngestRunBatch: insert run " ++ req.id ++ ": " ++ e)
      | .ok r =>
          match s.addRun db
            (fun kind => "benchsvc.IngestRunBatch: " ++ kind ++ " for " ++ req.id ++ ": ") r
            req.ingestArtifacts with
          | none => ingestBatchTx db tenantID s inserted rest
          | some (.error e) => .error e
          | some (.ok s) => ingestBatchTx db tenantID s (inserted + 1) rest

end RunStore

/-! ### Calls -/

inductive RunCall
  | ingest (req : IngestRunRequest) (now : Int)
  | ingestBatch (runs : List (IngestRunRequest × Int))
  | delete (id : String)

/-- What a call returns: an error, or how many runs it inserted or deleted. A batch alone returns
the number; for the other calls it is one. -/
abbrev RunAnswer := Except String Nat

/-- Serve a call. A batch without runs starts no transaction, which comes to the same.
Source: `IngestRun`, `IngestRunBatch`; `internal/benchsvc/queries_runs.go` `DeleteRun` -/
def serve (db : Postgres) (s : RunStore) (tenantID : String) : RunCall → RunStore × RunAnswer
  | .ingest req now => s.commit (s.ingestRunTx db tenantID req now)
  | .ingestBatch runs => s.commit (s.ingestBatchTx db tenantID 0 runs)
  | .delete id =>
      match db.parameter id with
      | some e => (s, .error ("bench.DeleteRun: " ++ e))
      | none =>
          match s.deleteRun tenantID id with
          | none => (s, .error "not found")
          | some s => (s, .ok 1)

/-! ### Adding a run -/

namespace RunStore

section addRun

variable (db : Postgres) (wrap : String → String) {s : RunStore} {tenantID id : String}
  {r : RunRow} (artifacts : List (String × Artifact))

/-- The artifacts of a run are stored, in the part of its tenant as in the whole and in no other
part. -/
theorem storeArtifacts_ok (howner : s.owner id = some tenantID) :
    ∃ s', s.storeArtifacts db wrap id artifacts = .ok s' ∧ s'.runs = s.runs ∧
      (s.part tenantID).storeArtifacts db wrap id artifacts = .ok (s'.part tenantID) ∧
      ∀ other, other ≠ tenantID → s'.part other = s.part other := by
  induction artifacts generalizing s with
  | nil => exact ⟨s, rfl, rfl, rfl, fun _ _ => rfl⟩
  | cons named artifacts ih =>
      obtain ⟨kind, a⟩ := named
      obtain ⟨s₁, hs₁⟩ := exists_storeArtifact (howner ▸ Option.some_ne_none tenantID) kind a
      have hruns := (storeArtifact_eq_some hs₁).1
      have howner₁ : s₁.owner id = some tenantID := by
        unfold owner
        rw [hruns]
        exact howner
      obtain ⟨s', hs', hruns', hpart, hother⟩ := ih howner₁
      refine ⟨s', ?_, hruns'.trans hruns, ?_, fun other hne => ?_⟩
      · rw [storeArtifacts, hs₁]
        exact hs'
      · rw [storeArtifacts, storeArtifact_part hs₁ howner]
        exact hpart
      · have howner' : s.owner id ≠ some other := by
          rw [howner]
          exact fun heq => hne (Option.some.inj heq).symm
        rw [hother other hne, part_storeArtifact_other hs₁ howner']

theorem addRun_taken (h : s.owner r.id ≠ none) : s.addRun db wrap r artifacts = none := by
  unfold addRun
  rw [insertRun_eq_none.mpr h, Option.map_none]

/-- A run whose id is free is added, in the part of its tenant as in the whole and in no other
part. -/
theorem addRun_free (h : s.owner r.id = none) :
    ∃ s', s.addRun db wrap r artifacts = some (.ok s') ∧
      (∀ id, s'.owner id = if r.id = id then some r.tenantID else s.owner id) ∧
      (s.part r.tenantID).addRun db wrap r artifacts = some (.ok (s'.part r.tenantID)) ∧
      ∀ other, other ≠ r.tenantID → s'.part other = s.part other := by
  obtain ⟨s₁, hs₁⟩ : ∃ s₁, s.insertRun r = some s₁ := by
    rw [← Option.ne_none_iff_exists', ne_eq, insertRun_eq_none]
    exact fun hne => hne h
  have howner₁ : s₁.owner r.id = some r.tenantID := by rw [owner_insertRun hs₁, if_pos rfl]
  obtain ⟨s', hs', hruns, hpart, hother⟩ := storeArtifacts_ok db wrap artifacts howner₁
  refine ⟨s', ?_, fun id => ?_, ?_, fun other hne => ?_⟩
  · unfold addRun
    rw [hs₁, Option.map_some, hs']
  · rw [← owner_insertRun hs₁]
    unfold owner
    rw [hruns]
  · unfold addRun
    rw [insertRun_part hs₁ rfl, Option.map_some, hpart]
  · rw [hother other hne, part_insertRun_other hs₁ hne.symm]

end addRun

end RunStore

/-! ### Transactions and parts -/

def IngestRunRequest.Accepted (db : Postgres) (req : IngestRunRequest) : Prop :=
  ∃ columns, db.columns req.id req.columns = .ok columns

def RunStore.Open (s : RunStore) (tenantID id : String) : Prop :=
  ∀ other, s.owner id = some other → other = tenantID

section transactions

variable {db : Postgres} {s : RunStore} {tenantID id : String} {req : IngestRunRequest} {now : Int}
  {r : RunRow} {runs : List (IngestRunRequest × Int)}

theorem IngestRunRequest.row_eq_ok (h : req.row db tenantID now = .ok r) :
    r.id = req.id ∧ r.tenantID = tenantID := by
  unfold row at h
  cases hcolumns : db.columns req.id req.columns with
  | error e =>
      rw [hcolumns] at h
      cases h
  | ok columns =>
      rw [hcolumns] at h
      cases h
      exact ⟨rfl, rfl⟩

theorem IngestRunRequest.row_of_accepted (h : req.Accepted db) (tenantID : String) (now : Int) :
    ∃ r, req.row db tenantID now = .ok r := by
  obtain ⟨columns, hcolumns⟩ := h
  unfold row
  rw [hcolumns]
  exact ⟨_, rfl⟩

theorem IngestRunRequest.row_of_not_accepted (h : ¬ req.Accepted db) :
    ∃ e, ∀ tenantID now, req.row db tenantID now = .error e := by
  cases hcolumns : db.columns req.id req.columns with
  | error e =>
      refine ⟨e, fun tenantID now => ?_⟩
      unfold row
      rw [hcolumns]
      rfl
  | ok columns => exact absurd ⟨columns, hcolumns⟩ h

namespace RunStore

theorem owner_part_of_not_open (h : ¬ s.Open tenantID id) :
    s.owner id ≠ none ∧ (s.part tenantID).owner id = none := by
  unfold Open at h
  push Not at h
  obtain ⟨other, howner, hne⟩ := h
  rw [owner_part, howner, if_neg fun heq => hne (Option.some.inj heq)]
  exact ⟨Option.some_ne_none other, rfl⟩

theorem owner_part_of_open (h : s.Open tenantID id) :
    (s.part tenantID).owner id = s.owner id := by
  rw [owner_part]
  cases howner : s.owner id with
  | none => rfl
  | some other => rw [h other howner, if_pos rfl]

theorem open_of_addRun {s' : RunStore} (hopen : s.Open tenantID id)
    (htenant : r.tenantID = tenantID)
    (howner : ∀ id, s'.owner id = if r.id = id then some r.tenantID else s.owner id) :
    s'.Open tenantID id := by
  intro other hother
  rw [howner] at hother
  split_ifs at hother with hid
  · rw [← htenant]
    exact (Option.some.inj hother).symm
  · exact hopen other hother

/-! #### One run -/

theorem ingestRunTx_other {s' : RunStore} {n : Nat} {other : String}
    (h : s.ingestRunTx db tenantID req now = .ok (s', n)) (hne : other ≠ tenantID) :
    s'.part other = s.part other := by
  unfold ingestRunTx at h
  split at h
  · cases h
  · rename_i r hrow
    obtain ⟨-, rfl⟩ := IngestRunRequest.row_eq_ok hrow
    by_cases howner : s.owner r.id = none
    · obtain ⟨s₁, hadd, -, -, hother⟩ := addRun_free db _ req.ingestArtifacts howner
      rw [hadd] at h
      cases h
      exact hother other hne
    · rw [addRun_taken db _ _ howner] at h
      cases h

theorem ingestRunTx_part (hopen : req.Accepted db → s.Open tenantID req.id) :
    (s.part tenantID).ingestRunTx db tenantID req now =
      (s.ingestRunTx db tenantID req now).map fun p => (p.1.part tenantID, p.2) := by
  by_cases haccepted : req.Accepted db
  · obtain ⟨r, hrow⟩ := IngestRunRequest.row_of_accepted haccepted tenantID now
    obtain ⟨hid, rfl⟩ := IngestRunRequest.row_eq_ok hrow
    have hpart := owner_part_of_open (hopen haccepted)
    rw [← hid] at hpart
    unfold ingestRunTx
    rw [hrow]
    by_cases howner : s.owner r.id = none
    · obtain ⟨s₁, hadd, -, haddPart, -⟩ := addRun_free db
        (fun kind => "benchsvc.IngestRun: store " ++ kind ++ ": ") req.ingestArtifacts howner
      simp only [hadd, haddPart]
      rfl
    · simp only [addRun_taken db _ _ howner, addRun_taken db _ _ (hpart ▸ howner)]
      rfl
  · obtain ⟨e, hrow⟩ := IngestRunRequest.row_of_not_accepted haccepted
    unfold ingestRunTx
    rw [hrow]
    rfl

theorem ingestRunTx_taken (now : Int) (haccepted : req.Accepted db)
    (hopen : ¬ s.Open tenantID req.id) :
    s.ingestRunTx db tenantID req now =
        .error ("benchsvc.IngestRun: insert run: " ++ db.duplicateKey) ∧
      ∃ s', (s.part tenantID).ingestRunTx db tenantID req now = .ok (s', 1) := by
  obtain ⟨r, hrow⟩ := IngestRunRequest.row_of_accepted haccepted tenantID now
  obtain ⟨hid, rfl⟩ := IngestRunRequest.row_eq_ok hrow
  obtain ⟨howner, hfree⟩ := owner_part_of_not_open hopen
  rw [← hid] at howner hfree
  unfold ingestRunTx
  rw [hrow]
  obtain ⟨s', hadd, -⟩ := addRun_free db
    (fun kind => "benchsvc.IngestRun: store " ++ kind ++ ": ") req.ingestArtifacts hfree
  refine ⟨?_, s', ?_⟩
  · simp only [addRun_taken db _ _ howner]
  · simp only [hadd]

/-! #### A batch -/

def newIDs (s : RunStore) (runs : List (IngestRunRequest × Int)) : Nat :=
  ((runs.map fun p => p.1.id).toFinset.filter fun id => s.owner id = none).card

theorem newIDs_cons_taken (howner : s.owner req.id ≠ none) :
    s.newIDs ((req, now) :: runs) = s.newIDs runs := by
  unfold newIDs
  rw [List.map_cons, List.toFinset_cons, Finset.filter_insert, if_neg howner]

theorem newIDs_cons_free {s' : RunStore} (howner : s.owner req.id = none)
    (howners : ∀ id, s'.owner id = if req.id = id then some tenantID else s.owner id) :
    s.newIDs ((req, now) :: runs) = s'.newIDs runs + 1 := by
  unfold newIDs
  have hrest : ((runs.map fun p => p.1.id).toFinset.filter fun id => s'.owner id = none) =
      ((runs.map fun p => p.1.id).toFinset.filter fun id => s.owner id = none).erase req.id := by
    ext id
    rw [Finset.mem_erase, Finset.mem_filter, Finset.mem_filter, howners]
    by_cases hid : req.id = id
    · simp [hid]
    · simp [hid, Ne.symm hid]
  rw [hrest, List.map_cons, List.toFinset_cons, Finset.filter_insert, if_pos howner,
    ← Finset.card_erase_add_one (Finset.mem_insert_self _ _), Finset.erase_insert_eq_erase]

theorem ingestBatchTx_cons_taken {n : Nat} (hrow : req.row db tenantID now = .ok r)
    (howner : s.owner r.id ≠ none) :
    s.ingestBatchTx db tenantID n ((req, now) :: runs) = s.ingestBatchTx db tenantID n runs := by
  rw [ingestBatchTx, hrow]
  simp only [addRun_taken db _ _ howner]

theorem ingestBatchTx_cons_free (hrow : req.row db tenantID now = .ok r)
    (howner : s.owner r.id = none) :
    ∃ s' : RunStore,
      (∀ id, s'.owner id = if r.id = id then some tenantID else s.owner id) ∧
      (∀ other, other ≠ tenantID → s'.part other = s.part other) ∧
      (∀ n, s.ingestBatchTx db tenantID n ((req, now) :: runs) =
        s'.ingestBatchTx db tenantID (n + 1) runs) ∧
      ∀ n, (s.part tenantID).ingestBatchTx db tenantID n ((req, now) :: runs) =
        (s'.part tenantID).ingestBatchTx db tenantID (n + 1) runs := by
  obtain ⟨-, rfl⟩ := IngestRunRequest.row_eq_ok hrow
  obtain ⟨s', hadd, howners, haddPart, hother⟩ := addRun_free db
    (fun kind => "benchsvc.IngestRunBatch: " ++ kind ++ " for " ++ req.id ++ ": ")
    req.ingestArtifacts howner
  refine ⟨s', howners, hother, fun n => ?_, fun n => ?_⟩
  · rw [ingestBatchTx, hrow]
    simp only [hadd]
  · rw [ingestBatchTx, hrow]
    simp only [haddPart]

theorem ingestBatchTx_other {s' : RunStore} {n m : Nat} {other : String}
    (h : s.ingestBatchTx db tenantID n runs = .ok (s', m)) (hne : other ≠ tenantID) :
    s'.part other = s.part other := by
  induction runs generalizing s n with
  | nil =>
      cases h
      rfl
  | cons run runs ih =>
      obtain ⟨req, now⟩ := run
      cases hrow : req.row db tenantID now with
      | error e =>
          rw [ingestBatchTx, hrow] at h
          cases h
      | ok r =>
          by_cases howner : s.owner r.id = none
          · obtain ⟨s₁, -, hother, hturn, -⟩ := ingestBatchTx_cons_free hrow howner
            rw [hturn] at h
            rw [ih h, hother other hne]
          · rw [ingestBatchTx_cons_taken hrow howner] at h
            exact ih h

theorem ingestBatchTx_part {n : Nat} (hopen : ∀ p ∈ runs, s.Open tenantID p.1.id) :
    (s.part tenantID).ingestBatchTx db tenantID n runs =
      (s.ingestBatchTx db tenantID n runs).map fun p => (p.1.part tenantID, p.2) := by
  induction runs generalizing s n with
  | nil => rfl
  | cons run runs ih =>
      obtain ⟨req, now⟩ := run
      obtain ⟨hfirst, hrest⟩ := List.forall_mem_cons.mp hopen
      cases hrow : req.row db tenantID now with
      | error e =>
          rw [ingestBatchTx, ingestBatchTx, hrow]
          rfl
      | ok r =>
          obtain ⟨hid, htenant⟩ := IngestRunRequest.row_eq_ok hrow
          by_cases howner : s.owner r.id = none
          · obtain ⟨s₁, howners, -, hturn, hturnPart⟩ := ingestBatchTx_cons_free hrow howner
            rw [hturn, hturnPart]
            exact ih fun p hp => open_of_addRun (hrest p hp) htenant (htenant ▸ howners)
          · have hpart := owner_part_of_open hfirst
            rw [← hid] at hpart
            rw [ingestBatchTx_cons_taken hrow howner,
              ingestBatchTx_cons_taken hrow (hpart ▸ howner)]
            exact ih hrest

theorem ingestBatchTx_refused (tenantID : String) (h : ¬ ∀ p ∈ runs, p.1.Accepted db) :
    ∃ e, ∀ s n, ingestBatchTx db tenantID s n runs = .error e := by
  induction runs with
  | nil => exact absurd (List.forall_mem_nil _) h
  | cons run runs ih =>
      obtain ⟨req, now⟩ := run
      by_cases haccepted : req.Accepted db
      · obtain ⟨e, hrest⟩ := ih fun hall => h (List.forall_mem_cons.mpr ⟨haccepted, hall⟩)
        obtain ⟨r, hrow⟩ := IngestRunRequest.row_of_accepted haccepted tenantID now
        refine ⟨e, fun s n => ?_⟩
        by_cases howner : s.owner r.id = none
        · obtain ⟨s₁, -, -, hturn, -⟩ := ingestBatchTx_cons_free hrow howner
          rw [hturn, hrest]
        · rw [ingestBatchTx_cons_taken hrow howner, hrest]
      · obtain ⟨e, hrow⟩ := IngestRunRequest.row_of_not_accepted haccepted
        exact ⟨_, fun s n => by rw [ingestBatchTx, hrow]⟩

theorem ingestBatchTx_count (tenantID : String) (h : ∀ p ∈ runs, p.1.Accepted db) (s : RunStore)
    (n : Nat) :
    ∃ s', s.ingestBatchTx db tenantID n runs = .ok (s', n + s.newIDs runs) := by
  induction runs generalizing s n with
  | nil => exact ⟨s, rfl⟩
  | cons run runs ih =>
      obtain ⟨req, now⟩ := run
      obtain ⟨hfirst, hrest⟩ := List.forall_mem_cons.mp h
      obtain ⟨r, hrow⟩ := IngestRunRequest.row_of_accepted hfirst tenantID now
      obtain ⟨hid, -⟩ := IngestRunRequest.row_eq_ok hrow
      by_cases howner : s.owner r.id = none
      · obtain ⟨s₁, howners, -, hturn, -⟩ := ingestBatchTx_cons_free hrow howner
        obtain ⟨s', hs'⟩ := ih hrest s₁ (n + 1)
        refine ⟨s', ?_⟩
        rw [hturn, hs', newIDs_cons_free (hid ▸ howner) (hid ▸ howners)]
        congr 2
        omega
      · obtain ⟨s', hs'⟩ := ih hrest s n
        refine ⟨s', ?_⟩
        rw [ingestBatchTx_cons_taken hrow howner, hs', newIDs_cons_taken (hid ▸ howner)]

theorem newIDs_lt (h : ¬ ∀ p ∈ runs, s.Open tenantID p.1.id) :
    s.newIDs runs < (s.part tenantID).newIDs runs := by
  push Not at h
  obtain ⟨p, hp, hopen⟩ := h
  obtain ⟨howner, hfree⟩ := owner_part_of_not_open hopen
  refine Finset.card_lt_card (Finset.ssubset_iff_of_subset ?_ |>.mpr ⟨p.1.id, ?_, ?_⟩)
  · refine Finset.monotone_filter_right _ fun id _ hnone => ?_
    rw [owner_part, hnone]
    rfl
  · exact Finset.mem_filter.mpr ⟨List.mem_toFinset.mpr (List.mem_map_of_mem hp), hfree⟩
  · exact fun hmem => howner (Finset.mem_filter.mp hmem).2

/-! #### Commits -/

theorem commit_other {tx : Except String (RunStore × Nat)} {other : String}
    (h : ∀ s' n, tx = .ok (s', n) → s'.part other = s.part other) :
    (s.commit tx).1.part other = s.part other := by
  cases htx : tx with
  | error e => rfl
  | ok result => exact h result.1 result.2 htx

theorem commit_part (tx : Except String (RunStore × Nat)) :
    (s.part tenantID).commit (tx.map fun p => (p.1.part tenantID, p.2)) =
      ((s.commit tx).1.part tenantID, (s.commit tx).2) := by
  cases tx <;> rfl

end RunStore

end transactions

/-! ### Tenants -/

/-- A call brings no id of a run of another tenant, unless the database refuses its values anyway.
-/
def RunCall.Open (db : Postgres) (tenantID : String) (s : RunStore) : RunCall → Prop
  | .ingest req _ => req.Accepted db → s.Open tenantID req.id
  | .ingestBatch runs => (∀ p ∈ runs, p.1.Accepted db) → ∀ p ∈ runs, s.Open tenantID p.1.id
  | .delete _ => True

section serve

variable {db : Postgres} {s : RunStore} {tenantID other : String} {call : RunCall}

theorem part_serve_other (hne : other ≠ tenantID) :
    (serve db s other call).1.part tenantID = s.part tenantID := by
  cases call with
  | ingest req now =>
      exact RunStore.commit_other fun s' n h => RunStore.ingestRunTx_other h hne.symm
  | ingestBatch runs =>
      exact RunStore.commit_other fun s' n h => RunStore.ingestBatchTx_other h hne.symm
  | delete id =>
      rw [serve]
      split
      · rfl
      · split
        · rfl
        · rename_i h
          exact RunStore.part_deleteRun_other h hne

theorem serve_part (hopen : call.Open db tenantID s) :
    serve db (s.part tenantID) tenantID call =
      ((serve db s tenantID call).1.part tenantID, (serve db s tenantID call).2) := by
  cases call with
  | ingest req now =>
      rw [serve, serve, RunStore.ingestRunTx_part hopen, RunStore.commit_part]
  | ingestBatch runs =>
      rw [serve, serve]
      by_cases haccepted : ∀ p ∈ runs, p.1.Accepted db
      · rw [RunStore.ingestBatchTx_part (hopen haccepted), RunStore.commit_part]
      · obtain ⟨e, he⟩ := RunStore.ingestBatchTx_refused tenantID haccepted
        rw [he, he]
        rfl
  | delete id =>
      rw [serve, serve, RunStore.deleteRun_part]
      cases db.parameter id with
      | some e => rfl
      | none => cases s.deleteRun tenantID id <;> rfl

theorem shared_runs (db : Postgres) :
    Parties.Shared (serve db) RunStore.part fun tenantID s call => call.Open db tenantID s where
  other hne := part_serve_other hne
  answer hopen := by rw [serve_part hopen]
  own hopen := by rw [serve_part hopen]

theorem serve_ne (hopen : ¬ call.Open db tenantID s) :
    (serve db s tenantID call).2 ≠ (serve db (s.part tenantID) tenantID call).2 := by
  cases call with
  | ingest req now =>
      unfold RunCall.Open at hopen
      push Not at hopen
      obtain ⟨hrefused, s', hadded⟩ := RunStore.ingestRunTx_taken now hopen.1 hopen.2
      rw [serve, serve, hrefused, hadded]
      exact fun heq => by cases heq
  | ingestBatch runs =>
      unfold RunCall.Open at hopen
      rw [Classical.not_imp] at hopen
      obtain ⟨haccepted, hforeign⟩ := hopen
      obtain ⟨s₁, h₁⟩ := RunStore.ingestBatchTx_count tenantID haccepted s 0
      obtain ⟨s₂, h₂⟩ := RunStore.ingestBatchTx_count tenantID haccepted (s.part tenantID) 0
      have hlt := RunStore.newIDs_lt hforeign
      rw [serve, serve, h₁, h₂, Nat.zero_add, Nat.zero_add]
      exact fun heq => hlt.ne (Except.ok.inj heq)
  | delete id => exact absurd trivial hopen

end serve

theorem RunStore.part_empty (tenantID : String) : empty.part tenantID = empty := by
  refine RunStore.ext rfl (funext₂ fun id kind => ?_)
  show empty.getArtifact tenantID id kind = none
  exact ite_self none

/-- **When tenants do not interfere.** Whatever calls tenants make, in whatever order, one of them
is answered and reads afterwards as if the others had made none exactly when each of its calls was
open: it brought no id under which a run of another tenant was stored at that moment.
Source: `IngestRun`, `IngestRunBatch`; `internal/benchsvc/queries_runs.go` `DeleteRun`;
`internal/benchdb/migrations/001_init.up.sql`
-/
theorem ingest_isolated_iff (db : Postgres) (tenantID : String) (calls : List (String × RunCall)) :
    let shared := Parties.run (serve db) .empty calls
    let own := Parties.run (serve db) .empty (Parties.alone tenantID calls)
    (Parties.answers tenantID shared.2 = Parties.answers tenantID own.2 ∧
        (∀ id, shared.1.getRun tenantID id = own.1.getRun tenantID id) ∧
        shared.1.listRuns tenantID = own.1.listRuns tenantID ∧
        ∀ id kind, shared.1.getArtifact tenantID id kind = own.1.getArtifact tenantID id kind) ↔
      Parties.Clear (serve db) (fun tenantID s call => call.Open db tenantID s) tenantID .empty
        calls := by
  have hiff := Parties.answers_eq_iff (p := tenantID) (h := calls) (shared_runs db)
    (fun hopen => serve_ne hopen) (s := .empty)
  rw [RunStore.part_empty] at hiff
  refine ⟨fun h => hiff.mp h.1, fun hclear => ⟨hiff.mpr hclear, ?_⟩⟩
  have hpart := (Parties.run_alone (shared_runs db) hclear).2
  rw [RunStore.part_empty] at hpart
  -- each read is a read of the part, and the parts are the same
  rw [← hpart]
  exact ⟨fun id => RunStore.getRun_part.symm, RunStore.listRuns_part.symm,
    fun id kind => RunStore.getArtifact_part.symm⟩

/-- A run of tenant `b` keeps tenant `a` from using its id: the run is refused when it comes
alone, and when it comes in a batch it is dropped, with no error. -/
theorem ingest_foreign_id :
    let db : Postgres := ⟨fun _ columns => .ok columns, fun _ => none, "duplicate key", "no run"⟩
    let req : IngestRunRequest := { id := "run-1", columns := { scenarioID := "s", model := "m" } }
    let serveAll := fun calls => Parties.run (serve db) .empty calls
    Parties.answers "a" (serveAll [("b", .ingest req 1), ("a", .ingest req 2)]).2 =
        [.error "benchsvc.IngestRun: insert run: duplicate key"] ∧
      Parties.answers "a" (serveAll [("a", .ingest req 2)]).2 = [.ok 1] ∧
      Parties.answers "a" (serveAll [("b", .ingest req 1), ("a", .ingestBatch [(req, 2)])]).2 =
        [.ok 0] ∧
      Parties.answers "a" (serveAll [("a", .ingestBatch [(req, 2)])]).2 = [.ok 1] := by
  refine ⟨rfl, rfl, rfl, rfl⟩

end EvidraBench.Benchsvc
