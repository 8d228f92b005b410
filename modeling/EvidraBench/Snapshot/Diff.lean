import EvidraBench.Audit.Fields

/-!
# State snapshots and their difference

`pkg/snapshot`: checkpoints of the cluster state, read through the evidence reader and normalized,
and the comparison of two of them.

Results: `diff_eq`.

The package hashes with SHA-256. The digests are only ever compared and displayed, so the model
takes the hash functions as parameters (`Hashing`), and every result holds for all of them.

Source: `pkg/snapshot/snapshot.go`
-/

namespace EvidraBench.Snapshot

open EvidraBench.Gostd

/-! ### Checkpoints -/

/-- One namespaced resource to read.
Source: `Target` -/
structure Target where
  ns : String
  resource : String
  /-- The kind of items that carry none. -/
  kind : String
deriving DecidableEq, Repr

structure Key where
  kind : String
  ns : String
  name : String
deriving DecidableEq, Repr

def Key.string (k : Key) : String := k.kind ++ "/" ++ k.ns ++ "/" ++ k.name

abbrev Members := List (String × Value)

/-- One checkpoint: the normalized objects by key. The source keeps each object as its marshalled
text, which determines it.
Source: `Set` -/
structure Set where
  name : String
  objects : AList (fun _ : Key => Members)
  /-- Targets that could not be read. -/
  unreadable : List String := []

structure Hashing where
  /-- The digest that replaces a secret payload. -/
  payload : Members → String
  /-- Source: `pkg/snapshot/diff.go` `digestOf`. -/
  object : Members → String
  /-- Source: `pkg/snapshot/snapshot.go` `Set.Digest`. -/
  set : Set → String

/-! ### Normalization -/

def volatileTop : List String :=
  ["resourceVersion", "uid", "creationTimestamp", "deletionTimestamp",
    "deletionGracePeriodSeconds", "managedFields", "selfLink", "generation"]

def volatileAnnotations : List String :=
  ["control-plane.alpha.kubernetes.io/leader", "kubectl.kubernetes.io/last-applied-configuration",
    "leader.election.kubernetes.io/holder"]

def isVolatileKey (k : String) : Bool :=
  ["lastTransitionTime", "lastProbeTime", "lastUpdateTime", "startTime", "finishTime",
    "transitionTime", "lastScheduleTime", "lastSyncTime", "initializationTime", "lastTimestamp",
    "firstTimestamp", "eventTime"].contains k

def looksLikeTimestamp (v : String) : Bool :=
  20 ≤ v.utf8ByteSize && contains v "T" && (hasSuffix v "Z" || 2 ≤ v.toList.count ':')

/-- Whether a string member of a status is dropped.
Source: `stripVolatile`, the `string` case -/
def volatileText (k v : String) : Bool :=
  (isVolatileKey k && looksLikeTimestamp v) || k == "resourceVersion" ||
    k == "controllerRevisionHash"

mutual

def stripVolatile : Members → Members
  | [] => []
  | (k, v) :: rest =>
      match v with
      | .str s => if volatileText k s then stripVolatile rest else (k, .str s) :: stripVolatile rest
      | .map m => (k, .map (stripVolatile m)) :: stripVolatile rest
      | .list xs => (k, .list (stripItems xs)) :: stripVolatile rest
      | v => (k, v) :: stripVolatile rest

/-- The items of a list inside a status: objects are stripped, other items stay. -/
def stripItems : List Value → List Value
  | [] => []
  | v :: rest =>
      match v with
      | .map m => .map (stripVolatile m) :: stripItems rest
      | v => v :: stripItems rest

end

/-- Replace the payloads of a secret by their digests.
Source: `secretRedact` -/
def secretRedact (h : Hashing) (kind : String) (obj : Members) : Members :=
  if !equalFold kind "Secret" then obj
  else
    ["data", "stringData"].foldl (fun obj field =>
      match obj.lookup field with
      | some (.map val) => mapInsert field (.map [("evidra:digest", .str (h.payload val))]) obj
      | _ => obj) obj

/-- The metadata of an object, without what changes on its own.
Source: `NormalizeObject` -/
def normalizeMeta (metadata : Members) : Members :=
  let metadata := metadata.filter fun kv => !volatileTop.contains kv.1
  match metadata.lookup "annotations" with
  | some (.map anns) =>
      let anns := anns.filter fun kv => !volatileAnnotations.contains kv.1
      if anns.isEmpty then metadata.filter fun kv => kv.1 ≠ "annotations"
      else mapInsert "annotations" (.map anns) metadata
  | _ => metadata

/-- The key and the normalized form of an object; kind and namespace default to the target's.
Source: `NormalizeObject` -/
def normalizeObject (h : Hashing) (obj : Members) (fallbackKind fallbackNS : String) :
    Key × Members :=
  let text := fun (kvs : Members) (k : String) => ((kvs.lookup k).getD .nil).asString
  let metadata := ((obj.lookup "metadata").getD .nil).asMap
  let kind := if text obj "kind" = "" then fallbackKind else text obj "kind"
  let ns := if text metadata "namespace" = "" then fallbackNS else text metadata "namespace"
  let obj := match obj.lookup "status" with
    | some (.map status) => mapInsert "status" (.map (stripVolatile status)) obj
    | _ => obj
  (⟨kind, ns, text metadata "name"⟩,
    mapInsert "metadata" (.map (normalizeMeta metadata)) (secretRedact h kind obj))

/-- Read one target into a checkpoint.
Source: `NewSet`, the loop body -/
def readTarget (h : Hashing) (list : Target → Except String Members) (s : Set) (t : Target) : Set :=
  match list t with
  | .error e =>
      { s with unreadable := s.unreadable ++ [t.ns ++ "/" ++ t.resource ++ ": " ++ e] }
  | .ok doc =>
      ((doc.lookup "items").getD .nil).asList.foldl (fun s raw =>
        match raw with
        | .map obj =>
            let (key, data) := normalizeObject h obj t.kind t.ns
            { s with objects := s.objects.insert key data }
        | _ => s) s

/-- A checkpoint of the targets, through a lister.
Source: `NewSet` -/
def newSet (h : Hashing) (name : String) (targets : List Target)
    (list : Target → Except String Members) : Set :=
  targets.foldl (readTarget h list) { name, objects := ∅ }

/-! ### The difference -/

/-- One out-of-scope state change.
Source: `pkg/snapshot/diff.go` `Violation` -/
structure Violation where
  source : String := "snapshot"
  object : String
  /-- `modified`, `created` or `deleted`. -/
  kind : String
  fromDigest : String := ""
  toDigest : String := ""
deriving DecidableEq, Repr

/-- A digest is ASCII, so its first bytes are its first characters.
Source: `pkg/snapshot/diff.go` `trunc` -/
def trunc (d : String) : String :=
  if 12 < d.toList.length then String.ofList (d.toList.take 12)
  else if d = "" then "-"
  else d

/-- Source: `pkg/snapshot/diff.go` `Violation.String` -/
def Violation.string (v : Violation) : String :=
  v.kind ++ " " ++ v.object ++ " (" ++ trunc v.fromDigest ++ " -> " ++ trunc v.toDigest ++ ")"

/-- What of an object is compared: everything but its status.
Source: `pkg/snapshot/diff.go` `comparable` -/
def comparable (data : Option Members) : Option Members :=
  data.map fun obj => obj.filter fun kv => kv.1 ≠ "status"

/-- Whether an object was created, deleted or changed outside its status.
Source: `pkg/snapshot/diff.go` `Diff`, the comparison -/
def changed (before after : Set) (k : Key) : Bool :=
  match comparable (before.objects.lookup k), comparable (after.objects.lookup k) with
  | some b, some a => !Value.sameEntries b a
  | _, _ => true

/-- The violation of a changed object.
Source: `pkg/snapshot/diff.go` `Diff`, the literal `v` -/
def violationOf (h : Hashing) (before after : Set) (k : Key) : Violation :=
  let b := comparable (before.objects.lookup k)
  let a := comparable (after.objects.lookup k)
  { object := k.string
    kind := if b.isNone then "created" else if a.isNone then "deleted" else "modified"
    fromDigest := (b.map h.object).getD ""
    toDigest := (a.map h.object).getD "" }

/-- The keys of both checkpoints, sorted by their text.
Source: `pkg/snapshot/diff.go` `Diff`, `keys` -/
def diffKeys (before after : Set) : List Key :=
  (dedupe (before.objects.keys ++ after.objects.keys)).insertionSort (·.string ≤ ·.string)

/-- Whether a change is exempt. Without a predicate none is. -/
def exempt (allowed : Option (Key → Bool)) (k : Key) : Bool := (allowed.map (· k)).getD false

/-- One turn of the loop of `diff`. -/
def diffKey (h : Hashing) (before after : Set) (allowed : Option (Key → Bool))
    (acc : List Violation × Nat) (k : Key) : List Violation × Nat :=
  if !changed before after k then acc
  else if exempt allowed k then (acc.1, acc.2 + 1)
  else (acc.1 ++ [violationOf h before after k], acc.2)

/-- The violations and the number of allowed changes between two checkpoints.
Source: `pkg/snapshot/diff.go` `Diff` -/
def diff (h : Hashing) (before after : Set) (allowed : Option (Key → Bool)) :
    List Violation × Nat :=
  (diffKeys before after).foldl (diffKey h before after allowed) ([], 0)

/-! ### What the difference reports -/

section diff

variable {h : Hashing} {before after : Set} {allowed : Option (Key → Bool)}

theorem foldl_diffKey (keys : List Key) (acc : List Violation × Nat) :
    keys.foldl (diffKey h before after allowed) acc =
      (acc.1 ++ (keys.filter fun k => changed before after k && !exempt allowed k).map
          (violationOf h before after),
        acc.2 + (keys.filter fun k => changed before after k && exempt allowed k).length) := by
  induction keys generalizing acc with
  | nil => simp
  | cons k keys ih =>
      rw [List.foldl_cons, ih]
      unfold diffKey
      cases hchanged : changed before after k
      · simp [hchanged]
      · cases hexempt : exempt allowed k
        · simp [hchanged, hexempt]
        · simp [hchanged, hexempt]
          omega

theorem diff_eq :
    diff h before after allowed =
      (((diffKeys before after).filter fun k => changed before after k && !exempt allowed k).map
          (violationOf h before after),
        ((diffKeys before after).filter fun k =>
          changed before after k && exempt allowed k).length) := by
  unfold diff
  rw [foldl_diffKey]
  simp

@[simp] theorem mem_diffKeys {k : Key} :
    k ∈ diffKeys before after ↔ k ∈ before.objects ∨ k ∈ after.objects := by
  unfold diffKeys
  rw [List.mem_insertionSort, mem_dedupe, List.mem_append, AList.mem_keys, AList.mem_keys]

end diff

end EvidraBench.Snapshot
