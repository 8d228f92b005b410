import EvidraBench.Audit.Occurrences
import EvidraBench.Lib.JsonMerge

/-!
# What the matcher sees of a merge object

`forbiddenChangeMatches` walks a merge body along the field path, without the document. Here the
body is merged into a document, and the matcher is compared with what happens to the field.

Results: `walkMerge_iff`, `lost_of_merge`, `origin_of_merge`, `merge_found_iff`.

Source: `pkg/audit/fields.go`
-/

namespace EvidraBench.Audit

open EvidraBench.Gostd EvidraBench.Lib.JsonPatch EvidraBench.Lib.JsonMerge

/-! ### Bodies -/

def readMerge (body : String) : Option Value :=
  match Doc.scan body.toList with
  | some (.obj text ms) => some (ofDoc (.obj text ms))
  | _ => none

def merged (patch doc : Value) : Value := merge entryName patch (some doc)

/-- The field path `segs` leads in a merge body to `y`: along members, through the entries of a
list that the step selects, and with the last step to the member itself.
Source: `walkMerge` -/
inductive Mentions : List FieldSegment → Value → Value → Prop where
  | leaf {key pred : String} {m : List (String × Value)} {y : Value} (hy : m.lookup key = some y) :
      Mentions [⟨key, pred⟩] (.map m) y
  | object {key pred : String} {rest : List FieldSegment} {m c : List (String × Value)}
      {y : Value} (hc : m.lookup key = some (.map c)) (hy : Mentions rest (.map c) y) :
      Mentions (⟨key, pred⟩ :: rest) (.map m) y
  | entry {key pred : String} {rest : List FieldSegment} {m : List (String × Value)}
      {items : List Value} {e y : Value} (hc : m.lookup key = some (.list items)) (he : e ∈ items)
      (hname : pred = "" ∨ entryName e = pred) (hy : Mentions rest e y) :
      Mentions (⟨key, pred⟩ :: rest) (.map m) y

theorem Mentions.eq_map {segs : List FieldSegment} {v y : Value} (h : Mentions segs v y) :
    v = .map v.asMap := by
  cases h <;> rfl

theorem Mentions.ne_nil {segs : List FieldSegment} {v y : Value} (h : Mentions segs v y) :
    segs ≠ [] := by
  cases h <;> exact List.cons_ne_nil _ _

theorem mem_selectEntries {seg : FieldSegment} {items : List Value} {e : Value} :
    e ∈ selectEntries seg items ↔
      e ∈ items ∧ e = .map e.asMap ∧ (seg.pred = "" ∨ entryName e = seg.pred) := by
  rw [selectEntries, List.mem_filter]
  refine and_congr_right fun _ => ?_
  cases e with
  | map m => simp [Value.asMap, entryName]
  | _ => simp [Value.asMap]

theorem walkMerge_iff {change : String} {value : Value} :
    ∀ {segs : List FieldSegment} {nodes : List Value}, walkMerge change value segs nodes = true ↔
      ∃ n ∈ nodes, ∃ y, Mentions segs n y ∧ leafMatches change value y = true
  | [], nodes => by
      rw [walkMerge]
      exact ⟨fun h => (Bool.false_ne_true h).elim, fun ⟨_, _, _, hy, _⟩ => absurd rfl hy.ne_nil⟩
  | ⟨key, pred⟩ :: rest, nodes => by
      rw [walkMerge, List.any_eq_true]
      refine exists_congr fun n => and_congr_right fun _ => ?_
      constructor
      · intro h
        split at h
        · cases h
        rename_i v hv
        rw [eq_map_of_lookup hv]
        split_ifs at h with hrest
        · obtain rfl := List.isEmpty_iff.mp hrest
          exact ⟨v, .leaf hv, h⟩
        split at h
        · rename_i c
          obtain ⟨n', hn', y, hy, hleaf⟩ := walkMerge_iff.mp h
          obtain rfl := List.mem_singleton.mp hn'
          exact ⟨y, .object hv hy, hleaf⟩
        · rename_i items
          obtain ⟨e, he, y, hy, hleaf⟩ := walkMerge_iff.mp h
          obtain ⟨hmem, -, hname⟩ := mem_selectEntries.mp he
          exact ⟨y, .entry hv hmem hname hy, hleaf⟩
        · cases h
      · rintro ⟨y, hy, hleaf⟩
        cases hy with
        | leaf hv => simpa [Value.asMap, hv] using hleaf
        | object hc hy =>
            have hrest := List.isEmpty_eq_false_iff.mpr hy.ne_nil
            simp only [Value.asMap, hc, hrest, Bool.false_eq_true, if_false]
            exact walkMerge_iff.mpr ⟨_, List.mem_singleton_self _, y, hy, hleaf⟩
        | entry hc he hname hy =>
            have hrest := List.isEmpty_eq_false_iff.mpr hy.ne_nil
            simp only [Value.asMap, hc, hrest, Bool.false_eq_true, if_false]
            exact walkMerge_iff.mpr
              ⟨_, mem_selectEntries.mpr ⟨he, hy.eq_map, hname⟩, y, hy, hleaf⟩

theorem scan_of_readMerge {body : String} {patch : Value} (hread : readMerge body = some patch) :
    ∃ text ms, Doc.scan body.toList = some (.obj text ms) ∧ ofDoc (.obj text ms) = patch ∧
      hasPrefix (trimSpace body) "\x7b" = true ∧ hasPrefix (trimSpace body) "[" = false := by
  obtain ⟨text, ms, hscan⟩ : ∃ text ms, Doc.scan body.toList = some (.obj text ms) := by
    unfold readMerge at hread
    split at hread
    · exact ⟨_, _, by assumption⟩
    · cases hread
  have hpatch : ofDoc (.obj text ms) = patch := by
    rw [readMerge, hscan] at hread
    exact Option.some.inj hread
  have hbrace : hasPrefix (trimSpace body) "\x7b" = true := Doc.hasPrefix_of_scan hscan rfl
  have hbracket : hasPrefix (trimSpace body) "[" = false := by
    obtain ⟨rest, hrest⟩ := List.isPrefixOf_iff_prefix.mp hbrace
    rw [hasPrefix, ← hrest]
    rfl
  exact ⟨text, ms, hscan, hpatch, hbrace, hbracket⟩

/-- An object body is interpreted as one: the merge walk, and for a full update the walk for what
is absent. -/
theorem forbiddenChangeMatches_object {body field : String} {patch : Value}
    (hread : readMerge body = some patch) (change : String) (value : Value) (fullReplace : Bool) :
    (forbiddenChangeMatches body field change value fullReplace).1 =
      ((unmarshal .any body.toList).isSome &&
        (walkMerge change value (parseFieldPath field) [patch] ||
          fullReplace && change == "removed" && absentWalk (parseFieldPath field) [patch])) := by
  obtain ⟨text, ms, hscan, hpatch, hbrace, hbracket⟩ := scan_of_readMerge hread
  have hany : unmarshal .any body.toList = (Doc.obj text ms).toAny := by
    rw [unmarshal, hscan]
    exact Doc.decode_any _ _
  have hmap : unmarshal (.map .any) body.toList = (Doc.obj text ms).toAny := by
    rw [unmarshal, hscan]
    show (Doc.decodeEntries .any [] ms).map Value.map = _
    rw [Doc.decodeEntries_any, Doc.toAny]
  unfold forbiddenChangeMatches mergeMatches mergeAbsent
  dsimp only
  rw [hbracket, hbrace, hany, hmap]
  by_cases hsegs : parseFieldPath field = []
  · rw [hsegs]
    simp [walkMerge, absentWalk]
  rcases hroot : (Doc.obj text ms).toAny with _ | root
  · simp [isObject]
  obtain ⟨m, -, rfl⟩ := Option.map_eq_some_iff.mp hroot
  have hsame : Value.map m = patch := (ofDoc_of_toAny hroot).symm.trans hpatch
  rw [hsame]
  have hobject : isObject (some patch) = true := by rw [← hsame]; rfl
  cases hfound : walkMerge change value (parseFieldPath field) [patch] <;>
    cases habsent : fullReplace && change == "removed" && absentWalk (parseFieldPath field) [patch]
      <;> simp_all

theorem forbiddenChangeMatches_merge {body field : String} {patch : Value}
    (hread : readMerge body = some patch) (change : String) (value : Value) :
    (forbiddenChangeMatches body field change value false).1 = true ↔
      (unmarshal .any body.toList).isSome ∧
        ∃ y, Mentions (parseFieldPath field) patch y ∧ leafMatches change value y = true := by
  have hwalk : walkMerge change value (parseFieldPath field) [patch] = true ↔ _ := walkMerge_iff
  simp only [List.mem_singleton, exists_eq_left] at hwalk
  rw [forbiddenChangeMatches_object hread, Bool.false_and, Bool.false_and, Bool.or_false,
    Bool.and_eq_true, hwalk]

/-! ### Fields merged away -/

/-- A value of a body that replaces what it meets, or deletes it, instead of being merged into it.
-/
def Replaces (w c : Value) : Prop :=
  (∀ m, w = .map m → ∀ m', c ≠ .map m') ∧
    ∀ ps, w = .list ps → ∀ items, c = .list items → allNamed entryName ps = true →
      allNamed entryName items = false

/-- A body that replaces or deletes something the field is in. A list entry is taken as the
entries of the body before it have left it. -/
inductive Overwrites : List FieldSegment → Value → Value → Prop where
  | here {key pred : String} {rest : List FieldSegment} {m pm : List (String × Value)}
      {c w : Value} (hbelow : rest ≠ [] ∨ pred ≠ "") (hc : m.lookup key = some c)
      (hw : pm.lookup key = some w) (hreplaces : Replaces w c) :
      Overwrites (⟨key, pred⟩ :: rest) (.map m) (.map pm)
  | object {key pred : String} {rest : List FieldSegment} {m pm c w : List (String × Value)}
      (hc : m.lookup key = some (.map c)) (hw : pm.lookup key = some (.map w))
      (hrest : Overwrites rest (.map c) (.map w)) :
      Overwrites (⟨key, pred⟩ :: rest) (.map m) (.map pm)
  | entry {key pred : String} {rest : List FieldSegment} {m pm : List (String × Value)}
      {items before after : List Value} {p e : Value} (hc : m.lookup key = some (.list items))
      (hw : pm.lookup key = some (.list (before ++ p :: after)))
      (he : e ∈ mergeItems entryName before items) (hname : entryName e = entryName p)
      (hpred : pred = "" ∨ entryName e = pred) (hrest : Overwrites rest e p) :
      Overwrites (⟨key, pred⟩ :: rest) (.map m) (.map pm)

theorem eq_map_of_entryName {e : Value} (h : entryName e ≠ "") : e = .map e.asMap := by
  cases e with
  | map m => rfl
  | _ => exact absurd rfl h

theorem entryName_merge {p : Value} (h : entryName p ≠ "") (t : Option Value) :
    entryName (merge entryName p t) = entryName p := by
  cases p with
  | map m =>
      rw [merge, entryName, Value.asMap, lookup_mergeMembers]
      rcases hname : m.lookup "name" with _ | v
      · simp [entryName, Value.asMap, hname, Value.asString] at h
      · cases v with
        | str n => simp [entryName, Value.asMap, hname, mergedMember, merge]
        | _ => simp [entryName, Value.asMap, hname, Value.asString] at h
  | _ => exact absurd rfl h

theorem eq_map_of_present {segs : List FieldSegment} {v : Value} (hsegs : segs ≠ [])
    (h : Present segs v) : v = .map v.asMap := by
  obtain ⟨L, x, hx⟩ := h
  cases hx with
  | here => exact absurd rfl hsegs
  | _ => rfl

theorem lookup_merged {pm m : List (String × Value)} {key : String} {w c : Value}
    (hc : m.lookup key = some c) (hw : pm.lookup key = some w) (hnil : w ≠ .nil) :
    (mergeMembers entryName pm m).lookup key = some (merge entryName w (some c)) := by
  rw [lookup_mergeMembers, hc, hw, mergedMember_some hnil]

theorem merge_list {ps items : List Value} (hps : allNamed entryName ps = true)
    (hitems : allNamed entryName items = true) :
    merge entryName (.list ps) (some (.list items)) = .list (mergeItems entryName ps items) := by
  rw [merge, if_pos hps, namedItems, if_pos hitems]

theorem replaces_or_merged (w : Value) (items : List Value) :
    Replaces w (.list items) ∨
      ∃ ps, w = .list ps ∧ allNamed entryName ps = true ∧ allNamed entryName items = true := by
  by_cases hmerged : ∃ ps, w = .list ps ∧ allNamed entryName ps = true ∧
      allNamed entryName items = true
  · exact Or.inr hmerged
  · refine Or.inl ⟨fun m _ m' h => (by cases h), fun ps hw items' hitems hps => ?_⟩
    obtain rfl := Value.list.inj hitems
    by_contra hnamed
    exact hmerged ⟨ps, hw, hps, Bool.eq_true_of_not_eq_false hnamed⟩

/-- A field below the entries of a list that is merged away, when it is known how fields below an
entry are. -/
theorem lost_below_list {key pred : String} {rest : List FieldSegment}
    {m pm : List (String × Value)} {items : List Value} {e : Value}
    (ih : ∀ {doc : Value} {pm : List (String × Value)}, Present rest doc →
      ¬ Present rest (merged (.map pm) doc) →
        Mentions rest (.map pm) .nil ∨ Overwrites rest doc (.map pm))
    (hbelow : rest ≠ [] ∨ pred ≠ "") (hc : m.lookup key = some (.list items)) (he : e ∈ items)
    (hpred : pred = "" ∨ entryName e = pred) (hpresent : Present rest e)
    (hgone : ∀ ys, (mergeMembers entryName pm m).lookup key = some (.list ys) →
      ∀ y ∈ ys, (pred = "" ∨ entryName y = pred) → ¬ Present rest y) :
    Mentions (⟨key, pred⟩ :: rest) (.map pm) .nil ∨
      Overwrites (⟨key, pred⟩ :: rest) (.map m) (.map pm) := by
  rcases hw : pm.lookup key with _ | w
  · have hkept : (mergeMembers entryName pm m).lookup key = some (.list items) := by
      rw [lookup_mergeMembers, hc, hw, mergedMember]
    exact absurd hpresent (hgone items hkept e he hpred)
  rcases replaces_or_merged w items with hreplaces | ⟨ps, rfl, hps, hitems⟩
  · exact Or.inr (.here hbelow hc hw hreplaces)
  have hlookup := lookup_merged hc hw (by simp)
  rw [merge_list hps hitems] at hlookup
  -- one entry of the body took the field from the entry of its name
  obtain ⟨before, p, after, rfl, e', he', hname, ⟨hpred', hpresent'⟩, hlost⟩ :=
    exists_step_of_items_lost (Q := fun e => (pred = "" ∨ entryName e = pred) ∧ Present rest e)
      ⟨e, he, hpred, hpresent⟩ fun y hy hQ => hgone _ hlookup y hy hQ.1 hQ.2
  have hp : p ∈ before ++ p :: after := List.mem_append_right _ List.mem_cons_self
  have hnamed : entryName p ≠ "" := by simpa using List.all_eq_true.mp hps p hp
  have hkeeps : entryName (merge entryName p (some e')) = entryName e' :=
    (entryName_merge hnamed _).trans hname.symm
  have hbelow' : ¬ Present rest (merge entryName p (some e')) := fun hstill =>
    hlost ⟨hkeeps ▸ hpred', hstill⟩
  rw [eq_map_of_entryName hnamed] at hbelow'
  have hstep := ih hpresent' hbelow'
  rw [← eq_map_of_entryName hnamed] at hstep
  exact hstep.imp (.entry hw hp (hname ▸ hpred')) (.entry hc hw he' hname hpred')

/-- **How a field is merged away.** The body gives null to it, or overwrites something it is in. -/
theorem lost_of_merge : ∀ {segs : List FieldSegment} {doc : Value} {pm : List (String × Value)},
    Present segs doc → ¬ Present segs (merged (.map pm) doc) →
      Mentions segs (.map pm) .nil ∨ Overwrites segs doc (.map pm)
  | [], _, _, _, hgone => absurd ⟨[], _, .here _⟩ hgone
  | ⟨key, pred⟩ :: rest, doc, pm, ⟨L, x, hx⟩, hgone => by
      rw [merged, merge] at hgone
      cases hx with
      | @member _ _ L m c _ hc hx =>
          rw [members, Value.asMap] at hgone
          rcases hw : pm.lookup key with _ | w
          · refine absurd ⟨_, x, .member ?_ hx⟩ hgone
            rw [lookup_mergeMembers, hc, hw, mergedMember]
          by_cases hrest : rest = []
          · -- the field itself is only lost to null
            subst hrest
            by_cases hnil : w = .nil
            · exact Or.inl (.leaf (hnil ▸ hw))
            · exact absurd ⟨_, _, .member (lookup_merged hc hw hnil) (.here _)⟩ hgone
          obtain ⟨cm, rfl⟩ : ∃ cm, c = .map cm := ⟨_, eq_map_of_present hrest ⟨L, x, hx⟩⟩
          by_cases hmap : ∃ wm, w = .map wm
          · obtain ⟨wm, rfl⟩ := hmap
            have hbelow : ¬ Present rest (merged (.map wm) (.map cm)) := by
              rintro ⟨L', x', hx'⟩
              exact hgone ⟨_, x', .member (lookup_merged hc hw (by simp)) hx'⟩
            exact (lost_of_merge ⟨L, x, hx⟩ hbelow).imp (.object hw) (.object hc hw)
          · refine Or.inr (.here (Or.inl hrest) hc hw ⟨fun wm h => (hmap ⟨wm, h⟩).elim, ?_⟩)
            rintro ps - items ⟨⟩
      | @named _ _ _ L m items i e _ hpred hc he hname hx =>
          rw [members, Value.asMap] at hgone
          refine lost_below_list lost_of_merge (Or.inr hpred) hc (List.mem_of_getElem? he)
            (Or.inr hname) ⟨L, x, hx⟩ ?_
          rintro ys hys y hy hname' ⟨L', x', hx'⟩
          obtain ⟨j, hj⟩ := List.getElem?_of_mem hy
          exact hgone ⟨_, _, .named hpred hys hj (hname'.resolve_left hpred) hx'⟩
      | @stray _ _ L m items i e _ hrest hc he hx =>
          rw [members, Value.asMap] at hgone
          refine lost_below_list lost_of_merge (Or.inl hrest) hc (List.mem_of_getElem? he)
            (Or.inl rfl) ⟨L, x, hx⟩ ?_
          rintro ys hys y hy - ⟨L', x', hx'⟩
          obtain ⟨j, hj⟩ := List.getElem?_of_mem hy
          exact hgone ⟨_, _, .stray hrest hys hj hx'⟩

/-! ### Values merged in -/

/-- A value that is neither an object nor a list. -/
def Scalar (x : Value) : Prop := (∀ m, x ≠ .map m) ∧ ∀ xs, x ≠ .list xs

theorem ne_nil_of_scalar {rest : List FieldSegment} {L : List Hop} {e x : Value} (hx : Scalar x)
    (h : Occurs rest L e x) (hname : entryName e ≠ "") : rest ≠ [] := by
  rintro rfl
  cases h
  exact hx.1 _ (eq_map_of_entryName hname)

theorem mentions_of_occurs {segs : List FieldSegment} {L : List Hop} {v x : Value}
    (h : Occurs segs L v x) (hx : Scalar x) (hsegs : segs ≠ []) : Mentions segs v x := by
  induction h with
  | here => exact absurd rfl hsegs
  | @member key rest L m c x hc hc' ih =>
      by_cases hrest : rest = []
      · subst hrest
        cases hc'
        exact .leaf hc
      · rw [eq_map_of_present hrest ⟨L, x, hc'⟩] at hc ih
        exact .object hc (ih hx hrest)
  | named hpred hc he hname he' ih =>
      have hrest := ne_nil_of_scalar hx he' (by rw [hname]; exact hpred)
      exact .entry hc (List.mem_of_getElem? he) (Or.inr hname) (ih hx hrest)
  | stray hrest hc he he' ih =>
      exact .entry hc (List.mem_of_getElem? he) (Or.inl rfl) (ih hx hrest)

theorem lookup_merged_cases {pm : List (String × Value)} {t : Option Value} {key : String}
    {c : Value} (h : (mergeMembers entryName pm (members t)).lookup key = some c) :
    (members t).lookup key = some c ∨
      ∃ w, pm.lookup key = some w ∧ c = merge entryName w ((members t).lookup key) := by
  rw [lookup_mergeMembers] at h
  rcases hw : pm.lookup key with _ | w
  · rw [hw] at h
    exact Or.inl h
  · refine Or.inr ⟨w, rfl, ?_⟩
    rw [hw] at h
    cases w with
    | nil => cases h
    | _ => exact (Option.some.inj h).symm

theorem eq_some_map_of_lookup {t : Option Value} {key : String} {c : Value}
    (h : (members t).lookup key = some c) : t = some (.map (members t)) := by
  cases t with
  | none => cases h
  | some d => exact congrArg some (eq_map_of_lookup h)

theorem eq_map_of_merge {w : Value} {t : Option Value} {m : List (String × Value)}
    (h : merge entryName w t = .map m) : w = .map w.asMap := by
  cases w with
  | map wm => rfl
  | list ps =>
      rw [merge] at h
      split_ifs at h
  | _ => rw [merge] at h; cases h

theorem eq_list_of_merge {w : Value} {t : Option Value} {ys : List Value}
    (h : merge entryName w t = .list ys) :
    ∃ ps, w = .list ps ∧ (ys = ps ∨
      allNamed entryName ps = true ∧ ys = mergeItems entryName ps (namedItems entryName t)) := by
  cases w with
  | list ps =>
      rw [merge] at h
      split_ifs at h with hps
      · exact ⟨ps, rfl, Or.inr ⟨hps, (Value.list.inj h).symm⟩⟩
      · exact ⟨ps, rfl, Or.inl (Value.list.inj h).symm⟩
  | _ => rw [merge] at h; cases h

theorem eq_of_merge_scalar {w x : Value} {t : Option Value} (h : merge entryName w t = x)
    (hx : Scalar x) : w = x := by
  subst h
  cases w with
  | map wm =>
      rw [merge] at hx
      exact absurd rfl (hx.1 _)
  | list ps =>
      rw [merge] at hx
      split_ifs at hx
      · exact absurd rfl (hx.2 _)
      · exact absurd rfl (hx.2 _)
  | _ => rfl

theorem exists_of_mem_namedItems {t : Option Value} {e : Value}
    (h : e ∈ namedItems entryName t) : ∃ items, t = some (.list items) ∧ e ∈ items := by
  unfold namedItems at h
  split at h
  · split_ifs at h
    · exact ⟨_, rfl, h⟩
    · cases h
  · cases h

/-- A scalar below a selected entry of a merged list, when it is known where those below a merged
entry come from. -/
theorem origin_below_list {pred : String} {rest : List FieldSegment} {t : Option Value}
    {ps : List Value}
    (ih : ∀ {t : Option Value} {pm : List (String × Value)} {L : List Hop} {x : Value}, Scalar x →
      Occurs rest L (merge entryName (.map pm) t) x →
        Mentions rest (.map pm) x ∨ ∃ d L', t = some d ∧ Occurs rest L' d x)
    (hps : allNamed entryName ps = true) :
    ∀ e ∈ mergeItems entryName ps (namedItems entryName t), (pred = "" ∨ entryName e = pred) →
      ∀ L x, Scalar x → Occurs rest L e x →
        (∃ p ∈ ps, (pred = "" ∨ entryName p = pred) ∧ Mentions rest p x) ∨
          ∃ items, t = some (.list items) ∧
            ∃ e' ∈ items, (pred = "" ∨ entryName e' = pred) ∧ ∃ L', Occurs rest L' e' x := by
  refine mergeItems_induction ?_ ?_
  · intro e he hpred L x _ hx
    obtain ⟨items, rfl, hitem⟩ := exists_of_mem_namedItems he
    exact Or.inr ⟨items, rfl, e, hitem, hpred, L, hx⟩
  · intro p hp old hold hpred L x hscalar hx
    have hnamed : entryName p ≠ "" := by simpa using List.all_eq_true.mp hps p hp
    rw [entryName_merge hnamed] at hpred
    rw [eq_map_of_entryName hnamed] at hx
    rcases ih hscalar hx with hmention | ⟨e, L', rfl, hx'⟩
    · rw [← eq_map_of_entryName hnamed] at hmention
      exact Or.inl ⟨p, hp, hpred, hmention⟩
    · obtain ⟨hname, horigin⟩ := hold e rfl
      exact horigin (by rw [hname]; exact hpred) L' x hscalar hx'

theorem origin_in_list {key pred : String} {rest : List FieldSegment}
    {pm : List (String × Value)} {t : Option Value} {ys : List Value} {e x : Value} {L : List Hop}
    (ih : ∀ {t : Option Value} {pm : List (String × Value)} {L : List Hop} {x : Value}, Scalar x →
      Occurs rest L (merge entryName (.map pm) t) x →
        Mentions rest (.map pm) x ∨ ∃ d L', t = some d ∧ Occurs rest L' d x)
    (hys : (mergeMembers entryName pm (members t)).lookup key = some (.list ys)) (he : e ∈ ys)
    (hpred : pred = "" ∨ entryName e = pred) (hrest : rest ≠ []) (hscalar : Scalar x)
    (hx : Occurs rest L e x) :
    Mentions (⟨key, pred⟩ :: rest) (.map pm) x ∨
      ∃ items, (members t).lookup key = some (.list items) ∧
        ∃ e' ∈ items, (pred = "" ∨ entryName e' = pred) ∧ ∃ L', Occurs rest L' e' x := by
  rcases lookup_merged_cases hys with hold | ⟨w, hw, hmerge⟩
  · exact Or.inr ⟨ys, hold, e, he, hpred, L, hx⟩
  obtain ⟨ps, rfl, rfl | ⟨hps, rfl⟩⟩ := eq_list_of_merge hmerge.symm
  · exact Or.inl (.entry hw he hpred (mentions_of_occurs hx hscalar hrest))
  rcases origin_below_list ih hps e he hpred L x hscalar hx with ⟨p, hp, hpred', hmention⟩ | hdoc
  · exact Or.inl (.entry hw hp hpred' hmention)
  · exact Or.inr hdoc

/-- **Where a merged scalar comes from.** A scalar that the field has after the merge is one that
the body gives to the field, or one that the document held there. -/
theorem origin_of_merge : ∀ {segs : List FieldSegment} {t : Option Value}
    {pm : List (String × Value)} {L : List Hop} {x : Value}, Scalar x →
      Occurs segs L (merge entryName (.map pm) t) x →
        Mentions segs (.map pm) x ∨ ∃ d L', t = some d ∧ Occurs segs L' d x
  | [], _, _, _, _, hscalar, hx => by
      rw [merge] at hx
      cases hx
      exact absurd rfl (hscalar.1 _)
  | ⟨key, pred⟩ :: rest, t, pm, L, x, hscalar, hx => by
      rw [merge] at hx
      cases hx with
      | @member _ _ L _ c _ hc hx =>
          rcases lookup_merged_cases hc with hold | ⟨w, hw, rfl⟩
          · exact Or.inr ⟨_, _, eq_some_map_of_lookup hold, .member hold hx⟩
          by_cases hrest : rest = []
          · subst hrest
            cases hx
            exact Or.inl (.leaf (hw.trans (congrArg some (eq_of_merge_scalar rfl hscalar))))
          · have hmap := eq_map_of_merge (eq_map_of_present hrest ⟨L, x, hx⟩)
            rw [hmap] at hx hw
            rcases origin_of_merge hscalar hx with hmention | ⟨d, L', hd, hx'⟩
            · exact Or.inl (.object hw hmention)
            · exact Or.inr ⟨_, _, eq_some_map_of_lookup hd, .member hd hx'⟩
      | @named _ _ _ L _ ys i e _ hpred hc he hname hx =>
          have hrest := ne_nil_of_scalar hscalar hx (by rw [hname]; exact hpred)
          refine (origin_in_list origin_of_merge hc (List.mem_of_getElem? he) (Or.inr hname) hrest
            hscalar hx).imp_right ?_
          rintro ⟨items, hitems, e', he', hname', L', hx'⟩
          obtain ⟨j, hj⟩ := List.getElem?_of_mem he'
          exact ⟨_, _, eq_some_map_of_lookup hitems,
            .named hpred hitems hj (hname'.resolve_left hpred) hx'⟩
      | @stray _ _ L _ ys i e _ hrest hc he hx =>
          refine (origin_in_list origin_of_merge hc (List.mem_of_getElem? he) (Or.inl rfl) hrest
            hscalar hx).imp_right ?_
          rintro ⟨items, hitems, e', he', -, L', hx'⟩
          obtain ⟨j, hj⟩ := List.getElem?_of_mem he'
          exact ⟨_, _, eq_some_map_of_lookup hitems, .stray hrest hitems hj hx'⟩

/-! ### The matcher on a merge body -/

theorem leafMatches_removed {y : Value} : leafMatches "removed" .nil y = true ↔ y = .nil := by
  cases y <;> simp [leafMatches]

/-- **When a merge body is found.** A field that is merged away is found exactly when the body
decodes and gives null to the field itself; otherwise something the field is in is overwritten. A
forbidden value that the field has after the merge is found exactly when the body decodes and gives
it to the field; a scalar that the body does not give was there before.
Source: `ForbiddenChangeMatches`, `mergeMatches`, `walkMerge` -/
theorem merge_found_iff {body field : String} {patch : Value}
    (hread : readMerge body = some patch) (doc : Value) :
    (Present (parseFieldPath field) doc → ¬ Present (parseFieldPath field) (merged patch doc) →
      ((forbiddenChangeMatches body field "removed" .nil false).1 = true ↔
        (unmarshal .any body.toList).isSome ∧ Mentions (parseFieldPath field) patch .nil) ∧
      (Mentions (parseFieldPath field) patch .nil ∨
        Overwrites (parseFieldPath field) doc patch)) ∧
    ∀ value L x, Occurs (parseFieldPath field) L (merged patch doc) x →
      jsonValueEquals (some x) value = true → (∃ y, Mentions (parseFieldPath field) patch y) →
      ((forbiddenChangeMatches body field "set" value false).1 = true ↔
        (unmarshal .any body.toList).isSome ∧ ∃ y, Mentions (parseFieldPath field) patch y ∧
          jsonValueEquals (some y) value = true) ∧
      (Scalar x → Mentions (parseFieldPath field) patch x ∨
        ∃ L', Occurs (parseFieldPath field) L' doc x) := by
  obtain ⟨pm, rfl⟩ : ∃ pm, patch = .map pm := by
    unfold readMerge at hread
    split at hread
    · exact ⟨_, (Option.some.inj hread).symm⟩
    · cases hread
  constructor
  · intro hpresent hgone
    refine ⟨?_, lost_of_merge hpresent hgone⟩
    rw [forbiddenChangeMatches_merge hread]
    simp only [leafMatches_removed, exists_eq_right]
  · intro value L x hx _ _
    refine ⟨forbiddenChangeMatches_merge hread "set" value, fun hscalar => ?_⟩
    rcases origin_of_merge hscalar hx with hmention | ⟨d, L', hd, hx'⟩
    · exact Or.inl hmention
    · obtain rfl := Option.some.inj hd
      exact Or.inr ⟨L', hx'⟩

def flagged : Value := .map [("spec", .map [("x", .bool true)])]

def nullX : String := "\x7b\"spec\":\x7b\"x\":null\x7d\x7d"

def nullSpec : String := "\x7b\"spec\":null\x7d"

/-- The flag is deleted, and the matcher sees it. -/
theorem merge_found_iff_flag :
    ∃ patch, readMerge nullX = some patch ∧ Present (parseFieldPath "spec.x") flagged ∧
      ¬ Present (parseFieldPath "spec.x") (merged patch flagged) ∧
      Mentions (parseFieldPath "spec.x") patch .nil := by
  have hread : readMerge nullX = some ((readMerge nullX).get (by decide +kernel)) :=
    (Option.some_get _).symm
  have hpresent : Present (parseFieldPath "spec.x") flagged := by decide +kernel
  have hgone : ¬ Present (parseFieldPath "spec.x")
      (merged ((readMerge nullX).get (by decide +kernel)) flagged) := by decide +kernel
  have hfound := ((merge_found_iff hread flagged).1 hpresent hgone).1
  exact ⟨_, hread, hpresent, hgone, (hfound.mp (by decide +kernel)).2⟩

/-- **A field deleted with what it is in is not seen.** The body deletes `spec`, and the matcher
interprets it and finds nothing.
Source: `walkMerge` -/
theorem nulled_ancestor_missed :
    ∃ patch, readMerge nullSpec = some patch ∧ Present (parseFieldPath "spec.x") flagged ∧
      ¬ Present (parseFieldPath "spec.x") (merged patch flagged) ∧
      forbiddenChangeMatches nullSpec "spec.x" "removed" .nil false = (false, true) :=
  ⟨(readMerge nullSpec).get (by decide +kernel), (Option.some_get _).symm, by decide +kernel,
    by decide +kernel, by decide +kernel⟩

end EvidraBench.Audit
