import EvidraBench.Gostd.Scalars
import EvidraBench.Lib.Table

/-!
# Runs and their artifacts

The tables `bench_runs` and `bench_artifacts` of `internal/benchdb` and the statements of
`internal/benchsvc` on them. A run is kept under an id of the caller's choice, its artifacts under
that id and their type, and every read asks for the tenant of the run.

Results: `getRun_part`, `listRuns_part`, `getArtifact_part`.

What PostgreSQL makes of the values of an insert is a parameter (`Postgres`).

Source: `internal/benchdb/migrations/001_init.up.sql`
-/

namespace EvidraBench.Benchsvc

open EvidraBench.Gostd EvidraBench.Lib

/-! ### Rows -/

/-- The columns of a run that its request fills in, other than its id and its time. A JSON column
that the request leaves empty is null.
Source: `bench_runs`; `pkg/bench/types.go` `RunRecord` -/
structure RunColumns where
  scenarioID : String
  model : String
  provider : String := ""
  adapter : String := ""
  toolServer : String := ""
  toolServerVersion : String := ""
  scenarioVersion : String := ""
  skillID : String := ""
  skillVersion : String := ""
  skillSource : String := ""
  skillSHA256 : String := ""
  passed : Bool := false
  duration : Float64 := ⟨false, 0, 0⟩
  exitCode : Int := 0
  turns : Int := 0
  memoryWindow : Int := 0
  promptTokens : Int := 0
  completionTokens : Int := 0
  estimatedCost : Float64 := ⟨false, 0, 0⟩
  checksPassed : Int := 0
  checksTotal : Int := 0
  checksJSON : Option String := none
  metadataJSON : Option String := none
deriving DecidableEq

/-- A row of `bench_runs`.
Source: `bench_runs` -/
structure RunRow where
  id : String
  tenantID : String
  columns : RunColumns
  createdAt : Int
  archived : Bool := false
deriving DecidableEq

/-- What is stored under a run and an artifact type.
Source: `bench_artifacts` -/
structure Artifact where
  contentType : String
  data : Bytes
deriving DecidableEq

/-- The two tables. The primary key of an artifact is its run and its type, and a run that is
deleted takes its artifacts along. -/
@[ext]
structure RunStore where
  runs : Table RunRow.id
  artifacts : String → String → Option Artifact
  references : ∀ id kind, artifacts id kind ≠ none → runs.find id ≠ none

/-- What the server and its driver say about an insert. -/
structure Postgres where
  /-- The columns as they are stored, or why their values are refused: a text with a zero octet, a
  text that is no JSON, an integer out of range. -/
  columns : String → RunColumns → Except String RunColumns
  /-- Why a text is refused as a parameter. -/
  parameter : String → Option String
  /-- A taken primary key. -/
  duplicateKey : String
  /-- A run that is not there. -/
  foreignKey : String

namespace RunStore

def empty : RunStore := ⟨Table.empty, fun _ _ => none, fun _ _ h => absurd rfl h⟩

/-! ### Statements -/

def owner (s : RunStore) (id : String) : Option String := (s.runs.find id).map RunRow.tenantID

/-- Source: `internal/benchsvc/queries_runs.go` `GetRun` -/
def getRun (s : RunStore) (tenantID id : String) : Option RunRow :=
  (s.runs.find id).filter fun r => r.tenantID = tenantID && !r.archived

/-- The rows that every query of `ListRuns` selects from, before it filters, orders and pages
them.
Source: `internal/benchsvc/queries_runs.go` `ListRuns`; `internal/benchsvc/queries.go`
`buildWhere` -/
def listRuns (s : RunStore) (tenantID : String) : List RunRow :=
  s.runs.rows.filter fun r => r.tenantID = tenantID && !r.archived

/-- Source: `internal/benchsvc/queries_artifacts.go` `GetArtifact` -/
def getArtifact (s : RunStore) (tenantID id kind : String) : Option Artifact :=
  if s.owner id = some tenantID then s.artifacts id kind else none

/-- Insert a row; `none` if its id is taken.
Source: `internal/benchsvc/service.go` `IngestRun`, `insertQ` -/
def insertRun (s : RunStore) (r : RunRow) : Option RunStore :=
  match h : s.runs.insert r with
  | none => none
  | some runs => some
      { runs := runs
        artifacts := s.artifacts
        references := by
          intro id kind hartifact
          obtain ⟨r', hr'⟩ := Option.ne_none_iff_exists'.mp (s.references id kind hartifact)
          rw [Table.find_insert_of_some h hr']
          exact Option.some_ne_none r' }

/-- Store an artifact over what is there; `none` without its run.
Source: `internal/benchsvc/queries_artifacts.go` `StoreArtifact`; `internal/benchsvc/service.go`
`artifactQ` -/
def storeArtifact (s : RunStore) (id kind : String) (a : Artifact) : Option RunStore :=
  if h : s.runs.find id = none then none
  else some
    { runs := s.runs
      artifacts := Function.update s.artifacts id (Function.update (s.artifacts id) kind (some a))
      references := by
        intro id' kind' hartifact
        by_cases hid : id' = id
        · rwa [hid]
        · rw [Function.update_of_ne hid] at hartifact
          exact s.references id' kind' hartifact }

/-- Delete a run of the tenant and its artifacts; `none` if there is none.
Source: `internal/benchsvc/queries_runs.go` `DeleteRun` -/
def deleteRun (s : RunStore) (tenantID id : String) : Option RunStore :=
  if s.owner id = some tenantID then some
    { runs := s.runs.restrict fun r => r.id ≠ id
      artifacts := Function.update s.artifacts id fun _ => none
      references := by
        intro id' kind hartifact
        by_cases hid : id' = id
        · rw [hid, Function.update_self] at hartifact
          exact absurd rfl hartifact
        · rw [Function.update_of_ne hid] at hartifact
          obtain ⟨r, hr⟩ := Option.ne_none_iff_exists'.mp (s.references id' kind hartifact)
          rw [Table.find_restrict, hr, Option.filter_some_pos]
          · exact Option.some_ne_none r
          · rw [(Table.find_eq_some.mp hr).2]
            exact decide_eq_true hid }
  else none

/-! ### The part of a tenant -/

section owner

variable {s s' : RunStore} {tenantID id kind : String} {r : RunRow} {a : Artifact}

theorem owner_eq_some :
    s.owner id = some tenantID ↔ ∃ r, s.runs.find id = some r ∧ r.tenantID = tenantID :=
  Option.map_eq_some_iff

theorem owner_eq_none : s.owner id = none ↔ s.runs.find id = none := Option.map_eq_none_iff

theorem artifacts_of_owner_eq_none (h : s.owner id = none) : s.artifacts id kind = none := by
  by_contra hne
  exact s.references id kind hne (owner_eq_none.mp h)

theorem insertRun_eq_some :
    s.insertRun r = some s' ↔ s.runs.insert r = some s'.runs ∧ s'.artifacts = s.artifacts := by
  unfold insertRun
  split
  · rename_i h
    simp [h]
  · rename_i runs h
    have hrow : s.runs.insert r = some s'.runs ↔ runs = s'.runs := by rw [h, Option.some.injEq]
    rw [hrow, Option.some.injEq, RunStore.ext_iff]
    exact and_congr_right fun _ => eq_comm

theorem insertRun_eq_none : s.insertRun r = none ↔ s.owner r.id ≠ none := by
  rw [ne_eq, owner_eq_none, ← ne_eq, ← Table.insert_eq_none]
  unfold insertRun
  split
  · rename_i h
    simp [h]
  · rename_i runs h
    simp [h]

theorem owner_of_insertRun (h : s.insertRun r = some s') : s.owner r.id = none := by
  by_contra howner
  rw [insertRun_eq_none.mpr howner] at h
  cases h

theorem owner_insertRun (h : s.insertRun r = some s') :
    s'.owner id = if r.id = id then some r.tenantID else s.owner id := by
  unfold owner
  rw [Table.find_insert (insertRun_eq_some.mp h).1]
  split_ifs <;> rfl

theorem storeArtifact_eq_some (h : s.storeArtifact id kind a = some s') :
    s'.runs = s.runs ∧ s'.artifacts =
      Function.update s.artifacts id (Function.update (s.artifacts id) kind (some a)) := by
  unfold storeArtifact at h
  split at h
  · cases h
  · obtain rfl := Option.some.inj h
    exact ⟨rfl, rfl⟩

theorem exists_storeArtifact (h : s.owner id ≠ none) (kind : String) (a : Artifact) :
    ∃ s', s.storeArtifact id kind a = some s' := by
  unfold storeArtifact
  rw [dif_neg fun hnone => h (owner_eq_none.mpr hnone)]
  exact ⟨_, rfl⟩

theorem deleteRun_eq_some (h : s.deleteRun tenantID id = some s') :
    s.owner id = some tenantID ∧ s'.runs = s.runs.restrict (fun r => r.id ≠ id) ∧
      s'.artifacts = Function.update s.artifacts id fun _ => none := by
  unfold deleteRun at h
  split_ifs at h with howner
  obtain rfl := Option.some.inj h
  exact ⟨howner, rfl, rfl⟩

end owner

/-- The runs of a tenant and their artifacts, and nothing else. -/
def part (tenantID : String) (s : RunStore) : RunStore where
  runs := s.runs.restrict fun r => r.tenantID = tenantID
  artifacts id kind := s.getArtifact tenantID id kind
  references := by
    intro id kind hartifact
    unfold getArtifact at hartifact
    split_ifs at hartifact with howner
    · obtain ⟨r, hr, htenant⟩ := owner_eq_some.mp howner
      rw [Table.find_restrict, hr, Option.filter_some_pos]
      · exact Option.some_ne_none r
      · exact decide_eq_true htenant
    · exact absurd rfl hartifact

section part

variable {s s' : RunStore} {tenantID other id kind : String} {r : RunRow} {a : Artifact}

theorem owner_part : (s.part tenantID).owner id =
    if s.owner id = some tenantID then some tenantID else none := by
  unfold owner part
  rw [Table.find_restrict]
  cases hfind : s.runs.find id with
  | none => simp
  | some r =>
      by_cases htenant : r.tenantID = tenantID
      · simp [htenant]
      · simp [htenant]

@[simp] theorem getRun_part : (s.part tenantID).getRun tenantID id = s.getRun tenantID id := by
  unfold getRun part
  rw [Table.find_restrict, Option.filter_filter]
  congr 1
  funext r
  cases decide (r.tenantID = tenantID) <;> rfl

@[simp] theorem listRuns_part : (s.part tenantID).listRuns tenantID = s.listRuns tenantID := by
  unfold listRuns part
  show (s.runs.rows.filter _).filter _ = _
  rw [List.filter_filter]
  congr 1
  funext r
  cases decide (r.tenantID = tenantID) <;> simp

@[simp] theorem getArtifact_part :
    (s.part tenantID).getArtifact tenantID id kind = s.getArtifact tenantID id kind := by
  show (if (s.part tenantID).owner id = some tenantID then s.getArtifact tenantID id kind
    else none) = s.getArtifact tenantID id kind
  rw [owner_part]
  unfold getArtifact
  split_ifs with howner <;> simp_all

/-! ### Statements and parts -/

theorem part_ext (hruns : s'.runs.restrict (fun r => r.tenantID = tenantID) =
      s.runs.restrict fun r => r.tenantID = tenantID)
    (hartifacts : ∀ id kind, s'.getArtifact tenantID id kind = s.getArtifact tenantID id kind) :
    s'.part tenantID = s.part tenantID :=
  RunStore.ext hruns (funext₂ hartifacts)

theorem insertRun_part (h : s.insertRun r = some s') (hr : r.tenantID = tenantID) :
    (s.part tenantID).insertRun r = some (s'.part tenantID) := by
  obtain ⟨hruns, hartifacts⟩ := insertRun_eq_some.mp h
  refine insertRun_eq_some.mpr ⟨Table.insert_restrict hruns (decide_eq_true hr), ?_⟩
  funext id kind
  show s'.getArtifact tenantID id kind = s.getArtifact tenantID id kind
  unfold getArtifact
  rw [owner_insertRun h, hartifacts]
  by_cases hid : r.id = id
  · -- the id was free, so that it had no artifacts
    rw [artifacts_of_owner_eq_none (hid ▸ owner_of_insertRun h), ite_self, ite_self]
  · rw [if_neg hid]

theorem part_insertRun_other (h : s.insertRun r = some s') (hr : r.tenantID ≠ tenantID) :
    s'.part tenantID = s.part tenantID := by
  obtain ⟨hruns, hartifacts⟩ := insertRun_eq_some.mp h
  refine part_ext (Table.restrict_insert_of_not hruns (decide_eq_false hr)) fun id kind => ?_
  unfold getArtifact
  rw [owner_insertRun h, hartifacts]
  by_cases hid : r.id = id
  · rw [artifacts_of_owner_eq_none (hid ▸ owner_of_insertRun h), ite_self, ite_self]
  · rw [if_neg hid]

theorem getArtifact_storeArtifact (h : s.storeArtifact id kind a = some s') (id' kind' : String) :
    s'.getArtifact tenantID id' kind' =
      if id' = id ∧ kind' = kind ∧ s.owner id = some tenantID then some a
      else s.getArtifact tenantID id' kind' := by
  obtain ⟨hruns, hartifacts⟩ := storeArtifact_eq_some h
  unfold getArtifact owner
  rw [hruns, hartifacts]
  by_cases hid : id' = id
  · subst hid
    rw [Function.update_self]
    by_cases hkind : kind' = kind
    · subst hkind
      rw [Function.update_self]
      split_ifs <;> simp_all
    · rw [Function.update_of_ne hkind]
      split_ifs <;> simp_all
  · have hother : ¬ (id' = id ∧ kind' = kind ∧
        Option.map RunRow.tenantID (s.runs.find id) = some tenantID) := fun heq => hid heq.1
    rw [Function.update_of_ne hid, if_neg hother]

theorem storeArtifact_part (h : s.storeArtifact id kind a = some s')
    (howner : s.owner id = some tenantID) :
    (s.part tenantID).storeArtifact id kind a = some (s'.part tenantID) := by
  have howned : (s.part tenantID).owner id ≠ none := by
    rw [owner_part, if_pos howner]
    exact Option.some_ne_none _
  obtain ⟨t, ht⟩ := exists_storeArtifact howned kind a
  obtain ⟨hruns, hartifacts⟩ := storeArtifact_eq_some ht
  rw [ht, Option.some.injEq]
  refine RunStore.ext ?_ ?_
  · rw [hruns]
    show s.runs.restrict _ = s'.runs.restrict _
    rw [(storeArtifact_eq_some h).1]
  · rw [hartifacts]
    funext id' kind'
    show _ = s'.getArtifact tenantID id' kind'
    rw [getArtifact_storeArtifact h]
    by_cases hid : id' = id
    · subst hid
      rw [Function.update_self]
      by_cases hkind : kind' = kind
      · subst hkind
        rw [Function.update_self, if_pos ⟨rfl, rfl, howner⟩]
      · rw [Function.update_of_ne hkind, if_neg fun heq => hkind heq.2.1]
        rfl
    · rw [Function.update_of_ne hid, if_neg fun heq => hid heq.1]
      rfl

theorem part_storeArtifact_other (h : s.storeArtifact id kind a = some s')
    (howner : s.owner id ≠ some tenantID) : s'.part tenantID = s.part tenantID := by
  refine part_ext (by rw [(storeArtifact_eq_some h).1]) fun id' kind' => ?_
  rw [getArtifact_storeArtifact h, if_neg fun heq => howner heq.2.2]

theorem getArtifact_deleteRun (h : s.deleteRun other id = some s') (id' kind' : String) :
    s'.getArtifact tenantID id' kind' =
      if id' = id then none else s.getArtifact tenantID id' kind' := by
  obtain ⟨-, hruns, hartifacts⟩ := deleteRun_eq_some h
  unfold getArtifact
  rw [hartifacts]
  by_cases hid : id' = id
  · rw [hid, Function.update_self, if_pos rfl, ite_self]
  · have howner : s'.owner id' = s.owner id' := by
      unfold owner
      rw [hruns, Table.find_restrict]
      cases hfind : s.runs.find id' with
      | none => rfl
      | some r =>
          rw [Option.filter_some_pos]
          rw [(Table.find_eq_some.mp hfind).2]
          exact decide_eq_true hid
    rw [Function.update_of_ne hid, if_neg hid, howner]

theorem deleteRun_part :
    (s.part tenantID).deleteRun tenantID id = (s.deleteRun tenantID id).map (part tenantID) := by
  by_cases howner : s.owner id = some tenantID
  · have howned : (s.part tenantID).owner id = some tenantID := by rw [owner_part, if_pos howner]
    obtain ⟨s', hs'⟩ : ∃ s', s.deleteRun tenantID id = some s' := by
      unfold deleteRun
      rw [if_pos howner]
      exact ⟨_, rfl⟩
    obtain ⟨t, ht⟩ : ∃ t, (s.part tenantID).deleteRun tenantID id = some t := by
      unfold deleteRun
      rw [if_pos howned]
      exact ⟨_, rfl⟩
    obtain ⟨-, hruns, -⟩ := deleteRun_eq_some hs'
    obtain ⟨-, hruns', hartifacts'⟩ := deleteRun_eq_some ht
    rw [hs', ht, Option.map_some, Option.some.injEq]
    refine RunStore.ext ?_ ?_
    · rw [hruns']
      apply Table.ext
      show (s.runs.rows.filter _).filter _ = s'.runs.rows.filter _
      rw [hruns]
      exact List.filter_comm _ _ _
    · rw [hartifacts']
      funext id' kind'
      show _ = s'.getArtifact tenantID id' kind'
      rw [getArtifact_deleteRun hs']
      by_cases hid : id' = id
      · rw [hid, Function.update_self, if_pos rfl]
      · rw [Function.update_of_ne hid, if_neg hid]
        rfl
  · have howned : (s.part tenantID).owner id ≠ some tenantID := by
      rw [owner_part, if_neg howner]
      exact fun h => by cases h
    unfold deleteRun
    rw [if_neg howner, if_neg howned]
    rfl

theorem part_deleteRun_other (h : s.deleteRun other id = some s') (hne : other ≠ tenantID) :
    s'.part tenantID = s.part tenantID := by
  obtain ⟨howner, hruns, -⟩ := deleteRun_eq_some h
  have hnot : s.owner id ≠ some tenantID := by
    rw [howner]
    exact fun heq => hne (Option.some.inj heq)
  refine part_ext ?_ fun id' kind' => ?_
  · rw [hruns]
    apply Table.ext
    show (s.runs.rows.filter _).filter _ = s.runs.rows.filter _
    rw [List.filter_filter]
    refine List.filter_congr fun r hr => ?_
    by_cases htenant : r.tenantID = tenantID
    · have hid : r.id ≠ id := by
        intro hid
        refine hnot (owner_eq_some.mpr ⟨r, ?_, htenant⟩)
        exact Table.find_eq_some.mpr ⟨hr, hid⟩
      simp [htenant, hid]
    · simp [htenant]
  · rw [getArtifact_deleteRun h]
    split_ifs with hid
    · unfold getArtifact
      rw [hid, if_neg hnot]
    · rfl

end part

end RunStore

end EvidraBench.Benchsvc
