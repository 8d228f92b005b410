import EvidraBench.Audit.MergeSound
import EvidraBench.Lib.Loops

/-!
# Fields that a full update leaves out

The body of an update is the whole object, so a forbidden field that is not in it is removed.
`absentWalk` looks for a place where the field path ends too early. `resolves` says what it is
compared with: the path leads to something that is not null, in every entry of the lists on its
way that it selects.

The walk is exact on the way to the last step (`absentWalk_eq`). At the last step it takes the
siblings of one list in order, and

Results: `fullReplace_exact_iff`, `removal_misjudged`.

and on the way it passes over the entries of a list that are not objects.

Source: `pkg/audit/fields.go`
-/

namespace EvidraBench.Audit

open EvidraBench.Gostd EvidraBench.Lib

/-! ### What it is to resolve -/

def isNull : Value → Bool
  | .nil => true
  | _ => false

def isMap : Value → Bool
  | .map _ => true
  | _ => false

/-- The entries that a list step is about: those of the wanted name, or every one. -/
def stepEntries (seg : FieldSegment) (items : List Value) : List Value :=
  if seg.pred = "" then items else items.filter fun e => entryName e == seg.pred

/-- Whether the field path leads to a value that is not null: along object keys, and in a list
through every entry that the step is about. A list that a plain last step leads to is the
value of the field. -/
def resolves : List FieldSegment → Value → Bool
  | [], v => !isNull v
  | seg :: rest, v =>
      match v.asMap.lookup seg.key with
      | none => false
      | some (.list items) =>
          rest.isEmpty && seg.pred == "" ||
            !(stepEntries seg items).isEmpty && (stepEntries seg items).all (resolves rest)
      | some w => resolves rest w

/-! ### The way to the last step -/

/-- The nodes that meet at the last step, one group for each object or list that they are in;
`way` is the path without its last step. -/
def siblings : List FieldSegment → List Value → List (List Value)
  | [], nodes => [nodes]
  | seg :: way, nodes =>
      nodes.flatMap fun n =>
        match n.asMap.lookup seg.key with
        | some (.map c) => siblings way [.map c]
        | some (.list items) => siblings way (selectEntries seg items)
        | _ => []

/-- The way breaks off somewhere: a key that is missing, a scalar, a list without an object that
the step selects. -/
def broken : List FieldSegment → List Value → Bool
  | [], _ => false
  | seg :: way, nodes =>
      nodes.any fun n =>
        match n.asMap.lookup seg.key with
        | some (.map c) => broken way [.map c]
        | some (.list items) =>
            (selectEntries seg items).isEmpty || broken way (selectEntries seg items)
        | _ => true

/-- A plain step on the way leads through a list with an entry that is not an object. -/
def foreign : List FieldSegment → List Value → Bool
  | [], _ => false
  | seg :: way, nodes =>
      nodes.any fun n =>
        match n.asMap.lookup seg.key with
        | some (.map c) => foreign way [.map c]
        | some (.list items) =>
            seg.pred == "" && items.any (fun e => !isMap e) ||
              foreign way (selectEntries seg items)
        | _ => false

/-! ### The last step -/

def nullAt (last : FieldSegment) (n : Value) : Bool :=
  match n.asMap.lookup last.key with
  | some .nil => true
  | _ => false

def scalarAt (last : FieldSegment) (n : Value) : Bool :=
  match n.asMap.lookup last.key with
  | none | some (.map _) | some (.list _) => false
  | some _ => true

/-- The field is missing, or is a list without an object that the step selects. -/
def lacks (last : FieldSegment) (n : Value) : Bool :=
  match n.asMap.lookup last.key with
  | none => true
  | some (.list items) => (selectEntries last items).isEmpty
  | _ => false

/-- Some sibling lacks the field, and none before it has a scalar there. -/
def openlyLacking (last : FieldSegment) (group : List Value) : Bool :=
  (group.takeWhile fun n => !scalarAt last n).any (lacks last)

/-! ### The walks -/

theorem all_isMap_cons {n : Value} {nodes : List Value} (h : (n :: nodes).all isMap = true) :
    (∃ m, n = .map m) ∧ nodes.all isMap = true := by
  rw [List.all_cons, Bool.and_eq_true] at h
  refine ⟨?_, h.2⟩
  cases n with
  | map m => exact ⟨m, rfl⟩
  | _ => cases h.1

theorem all_isMap_selectEntries (seg : FieldSegment) (items : List Value) :
    (selectEntries seg items).all isMap = true := by
  rw [List.all_eq_true]
  intro e he
  rw [(mem_selectEntries.mp he).2.1]
  rfl

theorem absentNodes_way {descend : List Value → Bool} {seg : FieldSegment} {nodes : List Value}
    {anyMap : Bool} (hmaps : nodes.all isMap = true) :
    absentNodes descend seg false anyMap nodes =
      ((nodes.any fun n =>
        match n.asMap.lookup seg.key with
        | some (.map c) => descend [.map c]
        | some (.list items) =>
            (selectEntries seg items).isEmpty || descend (selectEntries seg items)
        | _ => true) || !anyMap && nodes.isEmpty) := by
  induction nodes generalizing anyMap with
  | nil => simp [absentNodes]
  | cons n nodes ih =>
    obtain ⟨⟨m, rfl⟩, hnodes⟩ := all_isMap_cons hmaps
    rw [absentNodes, List.any_cons]
    simp only [Value.asMap]
    rcases m.lookup seg.key with - | v
    · simp
    · cases v <;> simp [ih hnodes, Bool.or_assoc, Value.asMap]

theorem absentNodes_last {last : FieldSegment} {nodes : List Value} {anyMap : Bool}
    (hmaps : nodes.all isMap = true) :
    absentNodes (fun _ => false) last true anyMap nodes =
      (openlyLacking last nodes || !anyMap && nodes.isEmpty) := by
  induction nodes generalizing anyMap with
  | nil => simp [absentNodes, openlyLacking]
  | cons n nodes ih =>
    obtain ⟨⟨m, rfl⟩, hnodes⟩ := all_isMap_cons hmaps
    rw [absentNodes]
    rcases hv : m.lookup last.key with - | v
    · simp [openlyLacking, scalarAt, lacks, Value.asMap, hv]
    · cases v <;>
        simp [openlyLacking, scalarAt, lacks, Value.asMap, hv, ih hnodes]

theorem absentWalk_eq {last : FieldSegment} {way : List FieldSegment} {nodes : List Value}
    (hmaps : nodes.all isMap = true) (hnodes : nodes ≠ []) :
    absentWalk (way ++ [last]) nodes =
      (broken way nodes || (siblings way nodes).any (openlyLacking last)) := by
  induction way generalizing nodes with
  | nil =>
    have hbelow : absentWalk [] = fun _ => false := by funext nodes; rfl
    rw [List.nil_append, absentWalk, List.isEmpty_nil, hbelow, absentNodes_last hmaps]
    simp [broken, siblings, hnodes]
  | cons seg way ih =>
    have hrest : (way ++ [last]).isEmpty = false := by simp
    rw [List.cons_append, absentWalk, hrest, absentNodes_way hmaps]
    simp only [broken, siblings, List.any_flatMap, List.isEmpty_eq_false_iff.mpr hnodes,
      Bool.and_false, Bool.or_false]
    rw [← any_or]
    apply List.any_congr rfl
    intro n
    rcases n.asMap.lookup seg.key with - | v
    · rfl
    · cases v with
      | map c => exact ih rfl (List.cons_ne_nil _ _)
      | list items =>
        simp only
        cases hempty : (selectEntries seg items).isEmpty with
        | true => simp
        | false =>
          rw [ih (all_isMap_selectEntries seg items) (List.isEmpty_eq_false_iff.mp hempty),
            Bool.or_assoc]
      | _ => rfl

theorem walkMerge_eq {last : FieldSegment} {way : List FieldSegment} {nodes : List Value} :
    walkMerge "removed" .nil (way ++ [last]) nodes =
      (siblings way nodes).any fun group => group.any (nullAt last) := by
  induction way generalizing nodes with
  | nil =>
    simp only [List.nil_append, walkMerge, siblings, List.any_cons, List.any_nil, Bool.or_false]
    apply List.any_congr rfl
    intro n
    rw [nullAt]
    rcases n.asMap.lookup last.key with - | v
    · rfl
    · cases v <;> rfl
  | cons seg way ih =>
    have hrest : (way ++ [last]).isEmpty = false := by simp
    simp only [List.cons_append, walkMerge, siblings, List.any_flatMap, hrest]
    apply List.any_congr rfl
    intro n
    rcases n.asMap.lookup seg.key with - | v
    · rfl
    · cases v <;> simp [ih]

/-! ### Resolution along the same way -/

theorem resolves_of_not_isMap {segs : List FieldSegment} {v : Value} (hsegs : segs ≠ [])
    (hv : isMap v = false) : resolves segs v = false := by
  cases segs with
  | nil => exact absurd rfl hsegs
  | cons seg rest =>
    cases v with
    | map m => cases hv
    | _ => rfl

/-- The entries that a step is about, and those that the walk selects: they differ by entries that
are not objects, and in these nothing resolves. -/
theorem all_stepEntries {seg : FieldSegment} {rest : List FieldSegment} (hrest : rest ≠ [])
    (items : List Value) :
    (!(stepEntries seg items).isEmpty && (stepEntries seg items).all (resolves rest)) =
      (!(selectEntries seg items).isEmpty &&
        !(seg.pred == "" && items.any fun e => !isMap e) &&
        (selectEntries seg items).all (resolves rest)) := by
  by_cases hpred : seg.pred = ""
  · rw [stepEntries, if_pos hpred, hpred]
    cases hforeign : items.any fun e => !isMap e with
    | true =>
      obtain ⟨e, he, hmap⟩ := List.any_eq_true.mp hforeign
      have hfalse : items.all (resolves rest) = false := by
        rw [List.all_eq_false]
        exact ⟨e, he, by simp [resolves_of_not_isMap hrest (by simpa using hmap)]⟩
      simp [hfalse]
    | false =>
      have hsame : selectEntries seg items = items := by
        rw [selectEntries, List.filter_eq_self]
        intro e he
        have hmap := List.any_eq_false.mp hforeign e he
        cases e with
        | map m => simp [hpred]
        | _ => exact absurd rfl hmap
      simp [hsame]
  · have hsame : stepEntries seg items = selectEntries seg items := by
      rw [stepEntries, if_neg hpred, selectEntries]
      apply List.filter_congr
      intro e _
      cases e with
      | map m => simp [entryName, Value.asMap, hpred]
      | _ => simpa [entryName, Value.asMap, Value.asString] using hpred
    have hplain : (seg.pred == "") = false := by simpa using hpred
    simp [hsame, hplain]

/-- The path resolves if the way does not break off, no list on it has an entry that is not an
object, and the last step resolves in every group of siblings. The induction is on the way. -/
theorem resolves_eq {last : FieldSegment} {way : List FieldSegment} {nodes : List Value} :
    nodes.all (resolves (way ++ [last])) =
      (!broken way nodes && !foreign way nodes &&
        (siblings way nodes).all fun group => group.all (resolves [last])) := by
  induction way generalizing nodes with
  | nil => simp [broken, foreign, siblings]
  | cons seg way ih =>
    have hne : way ++ [last] ≠ [] := by simp
    have hrest : (way ++ [last]).isEmpty = false := by simp
    simp only [broken, foreign, siblings, List.all_flatMap, List.not_any_eq_all_not, ← all_and]
    apply List.all_congr rfl
    intro n
    rw [List.cons_append, resolves]
    rcases n.asMap.lookup seg.key with - | v
    · rfl
    · cases v with
      | map c =>
        have hchild : [Value.map c].all (resolves (way ++ [last])) = _ := ih
        simpa using hchild
      | list items =>
        simp only [hrest, Bool.false_and, Bool.false_or]
        rw [all_stepEntries hne, ih]
        cases (selectEntries seg items).isEmpty <;>
          cases seg.pred == "" && items.any (fun e => !isMap e) <;> simp
      | _ => exact resolves_of_not_isMap hne rfl

/-! ### The judgement of a full update -/

/-- The path resolves, but somewhere a plain last step leads to a list with no object in it, and
no sibling before it has a scalar there. -/
def falseAlarm (way : List FieldSegment) (last : FieldSegment) (root : Value) : Bool :=
  resolves (way ++ [last]) root && (siblings way [root]).any (openlyLacking last)

/-- What is wrong with the path is out of sight: the way does not break off, no field is null and
none is openly lacking, and what is left are entries on the way that are not objects, and
siblings without the field after one with a scalar. -/
def hidden (way : List FieldSegment) (last : FieldSegment) (root : Value) : Bool :=
  !broken way [root] && !((siblings way [root]).any fun group => group.any (nullAt last)) &&
    !(siblings way [root]).any (openlyLacking last) &&
    (foreign way [root] ||
      (siblings way [root]).any fun group => group.any fun n => !resolves [last] n)

def judgedExactly (segs : List FieldSegment) (root : Value) : Bool :=
  match segs.getLast? with
  | none => true
  | some last => !falseAlarm segs.dropLast last root && !hidden segs.dropLast last root

theorem resolves_of_nullAt {last : FieldSegment} {n : Value} (h : nullAt last n = true) :
    resolves [last] n = false := by
  unfold nullAt at h
  split at h
  next hnil => simp [resolves, hnil, isNull]
  · cases h

theorem walks_exact_iff (way : List FieldSegment) (last : FieldSegment)
    (m : List (String × Value)) :
    ((walkMerge "removed" .nil (way ++ [last]) [.map m] ||
        absentWalk (way ++ [last]) [.map m]) = !resolves (way ++ [last]) (.map m)) ↔
      (!falseAlarm way last (.map m) && !hidden way last (.map m)) = true := by
  have hsingle : resolves (way ++ [last]) (.map m) =
      [Value.map m].all (resolves (way ++ [last])) := by simp
  have hnull : ((siblings way [.map m]).any fun group => group.any (nullAt last)) = true →
      ((siblings way [.map m]).all fun group => group.all (resolves [last])) = false := by
    intro hnull
    obtain ⟨group, hgroup, hany⟩ := List.any_eq_true.mp hnull
    obtain ⟨n, hn, hnil⟩ := List.any_eq_true.mp hany
    rw [List.all_eq_false]
    refine ⟨group, hgroup, ?_⟩
    rw [Bool.not_eq_true, List.all_eq_false]
    exact ⟨n, hn, by simp [resolves_of_nullAt hnil]⟩
  have hfails : ((siblings way [.map m]).any fun group => group.any fun n => !resolves [last] n) =
      !((siblings way [.map m]).all fun group => group.all (resolves [last])) := by
    simp [List.not_all_eq_any_not]
  rw [walkMerge_eq, absentWalk_eq rfl (List.cons_ne_nil _ _)]
  unfold falseAlarm hidden
  rw [hsingle, resolves_eq, hfails]
  revert hnull
  cases broken way [.map m] <;> cases foreign way [.map m] <;>
    cases ((siblings way [.map m]).any fun group => group.any (nullAt last)) <;>
    cases ((siblings way [.map m]).any (openlyLacking last)) <;>
    cases ((siblings way [.map m]).all fun group => group.all (resolves [last])) <;> simp

/-- **Full updates.** For every body that is a JSON object and every field path: a removal is
reported exactly if the path does not resolve, if and only if the body decodes and neither a false
alarm nor a hidden removal is in it; a body with a number out of range does not decode and is never
reported.
Source: `ForbiddenChangeMatches`, `mergeAbsent`, `absentWalk` -/
theorem fullReplace_exact_iff {body : String} {root : Value} (hread : readMerge body = some root)
    (field : String) :
    ((forbiddenChangeMatches body field "removed" .nil true).1 = true ↔
        resolves (parseFieldPath field) root = false) ↔
      if (unmarshal .any body.toList).isSome then judgedExactly (parseFieldPath field) root = true
      else resolves (parseFieldPath field) root = true := by
  obtain ⟨m, rfl⟩ : ∃ m, root = .map m := by
    unfold readMerge at hread
    split at hread
    · exact ⟨_, (Option.some.inj hread).symm⟩
    · cases hread
  rw [forbiddenChangeMatches_object hread]
  cases (unmarshal .any body.toList).isSome with
  | false => simp
  | true =>
    rw [if_pos rfl]
    rcases List.eq_nil_or_concat (parseFieldPath field) with hnil | ⟨way, last, hway⟩
    · simp [hnil, judgedExactly, walkMerge, absentWalk, resolves, isNull]
    · rw [hway, List.concat_eq_append, judgedExactly, List.getLast?_concat, List.dropLast_concat]
      simp only
      rw [← walks_exact_iff]
      cases resolves (way ++ [last]) (.map m) <;> simp

/-! ### The matcher on any body -/

/-- The field is left out of an object: the way breaks off, or a field is openly lacking. -/
def leftOut (segs : List FieldSegment) (root : Value) : Bool :=
  match segs.getLast? with
  | none => false
  | some last => broken segs.dropLast [root] || (siblings segs.dropLast [root]).any
      (openlyLacking last)

/-- A body, read as a patch of the object or as the object itself, performs a change on a field:
an operation of a JSON Patch does, or an object gives the field, or a full update leaves it
out. -/
def Performs (body : String) (segs : List FieldSegment) (change : String) (value : Value)
    (fullReplace : Bool) : Prop :=
  segs ≠ [] ∧
    ((hasPrefix (trimSpace body) "[" = true ∧ ∃ ops, decodePatch body = some ops ∧
        ∃ o ∈ ops, patchOpMatches (rulePath segs true) change value o = true) ∨
      ∃ root, readMerge body = some root ∧ (unmarshal .any body.toList).isSome ∧
        ((∃ y, Mentions segs root y ∧ leafMatches change value y = true) ∨
          fullReplace = true ∧ change = "removed" ∧ leftOut segs root = true))

theorem absentWalk_iff_leftOut {segs : List FieldSegment} {m : List (String × Value)} :
    absentWalk segs [.map m] = leftOut segs (.map m) := by
  rcases List.eq_nil_or_concat segs with rfl | ⟨way, last, rfl⟩
  · rfl
  · rw [List.concat_eq_append, absentWalk_eq rfl (List.cons_ne_nil _ _), leftOut,
      List.getLast?_concat, List.dropLast_concat]

theorem exists_readMerge {body : String} (h : isObject (unmarshal .any body.toList) = true) :
    ∃ root, readMerge body = some root := by
  unfold unmarshal at h
  unfold readMerge
  cases hscan : Doc.scan body.toList with
  | none => simp [hscan, isObject] at h
  | some d =>
    simp only [hscan, Option.bind_eq_bind, Option.bind_some, Doc.decode_any] at h
    cases d with
    | obj text ms => exact ⟨_, rfl⟩
    | arr text ds =>
      simp only [Doc.toAny] at h
      cases hitems : Doc.itemsToAny ds <;> simp [hitems, isObject] at h
    | num lit =>
      simp only [Doc.toAny] at h
      cases hnum : parseFloat lit.toList <;> simp [hnum, isObject] at h
    | _ => simp [Doc.toAny, isObject] at h

theorem forbiddenChangeMatches_iff {body field change : String} {value : Value}
    {fullReplace : Bool} :
    (forbiddenChangeMatches body field change value fullReplace).1 = true ↔
      Performs body (parseFieldPath field) change value fullReplace := by
  unfold Performs
  cases hread : readMerge body with
  | some root =>
    obtain ⟨text, ms, -, hroot, -, hbracket⟩ := scan_of_readMerge hread
    obtain ⟨m, rfl⟩ : ∃ m, root = .map m := ⟨_, hroot.symm⟩
    have hwalk : walkMerge change value (parseFieldPath field) [.map m] = true ↔ _ :=
      walkMerge_iff
    simp only [List.mem_singleton, exists_eq_left] at hwalk
    have hsegs : leftOut (parseFieldPath field) (.map m) = true → parseFieldPath field ≠ [] := by
      intro hleft hnil
      rw [hnil] at hleft
      cases hleft
    rw [forbiddenChangeMatches_object hread, hbracket, absentWalk_iff_leftOut]
    simp only [Bool.and_eq_true, Bool.or_eq_true, hwalk, beq_iff_eq, Option.some.injEq,
      exists_eq_left', Bool.false_eq_true, false_and, false_or, and_assoc]
    constructor
    · rintro ⟨hdecodes, ⟨y, hy, hleaf⟩ | hleft⟩
      · exact ⟨hy.ne_nil, hdecodes, .inl ⟨y, hy, hleaf⟩⟩
      · exact ⟨hsegs hleft.2.2, hdecodes, .inr hleft⟩
    · rintro ⟨-, hdecodes, hperforms⟩
      exact ⟨hdecodes, hperforms⟩
  | none =>
    have hobject : isObject (unmarshal .any body.toList) = false := by
      rw [← Bool.not_eq_true]
      intro hobject
      obtain ⟨root, hroot⟩ := exists_readMerge hobject
      rw [hread] at hroot
      cases hroot
    unfold forbiddenChangeMatches jsonPatchMatches
    simp only [hobject, Bool.not_false, if_true, reduceCtorEq, false_and, exists_false, or_false]
    cases hsegs : (parseFieldPath field).isEmpty with
    | true => simp [List.isEmpty_iff.mp hsegs]
    | false =>
      cases hbracket : hasPrefix (trimSpace body) "[" with
      | false => split_ifs <;> simp
      | true =>
        have hne := List.isEmpty_eq_false_iff.mp hsegs
        cases hops : decodePatch body with
        | none => simp
        | some ops => simp [hne]

def emptyArgs : String := "\x7b\"spec\":\x7b\"args\":[]\x7d\x7d"

/-- A list of which the second entry lacks the field. -/
def secondBare : String := "\x7b\"spec\":[\x7b\"x\":1\x7d,\x7b\x7d]\x7d"

def probeKept : String := "\x7b\"spec\":\x7b\"probe\":\x7b\"port\":80\x7d\x7d\x7d"

/-- The probe resolves, and no removal is reported. -/
theorem fullReplace_exact_iff_probe :
    ∃ root, readMerge probeKept = some root ∧
      resolves (parseFieldPath "spec.probe") root = true ∧
      (forbiddenChangeMatches probeKept "spec.probe" "removed" .nil true).1 = false := by
  have hread : readMerge probeKept = some ((readMerge probeKept).get (by decide +kernel)) :=
    (Option.some_get _).symm
  have hexact := (fullReplace_exact_iff hread "spec.probe").mpr (by decide +kernel)
  refine ⟨_, hread, by decide +kernel, ?_⟩
  rw [← Bool.not_eq_true, hexact]
  decide +kernel

/-- **A false alarm and a miss.** An update that carries an empty list is reported as its removal;
one that leaves the field out of the second entry of a list, after a scalar in the first, is not.
Source: `absentWalk` -/
theorem removal_misjudged :
    (∃ root, readMerge emptyArgs = some root ∧
      resolves (parseFieldPath "spec.args") root = true ∧
      forbiddenChangeMatches emptyArgs "spec.args" "removed" .nil true = (true, true)) ∧
    ∃ root, readMerge secondBare = some root ∧
      resolves (parseFieldPath "spec.x") root = false ∧
      forbiddenChangeMatches secondBare "spec.x" "removed" .nil true = (false, true) :=
  ⟨⟨(readMerge emptyArgs).get (by decide +kernel), (Option.some_get _).symm, by decide +kernel,
      by decide +kernel⟩,
    ⟨(readMerge secondBare).get (by decide +kernel), (Option.some_get _).symm, by decide +kernel,
      by decide +kernel⟩⟩

end EvidraBench.Audit
