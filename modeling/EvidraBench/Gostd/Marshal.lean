import EvidraBench.Gostd.Write

/-!
# `json.Marshal` of generic values

What `encoding/json` writes for a value an `any` target can hold (`Value.nil`, `bool`, `float`,
`str`, `list`, `map`), and that it is read back.

Results: `text_json`, `unmarshal_marshalAny`.
-/

namespace EvidraBench.Gostd

/-! ### Generic values -/

mutual

/-- A value that an `any` target can hold, with at most so many open brackets. -/
def Generic : Value → Nat → Prop
  | .nil, _ | .bool _, _ | .str _, _ => True
  | .float x, _ => x.Normal
  | .list xs, depth => 0 < depth ∧ GenericItems xs (depth - 1)
  | .map kvs, depth =>
      0 < depth ∧ kvs.Pairwise (fun a b => a.1 < b.1) ∧ GenericEntries kvs (depth - 1)
  | _, _ => False

def GenericItems : List Value → Nat → Prop
  | [], _ => True
  | x :: xs, depth => Generic x depth ∧ GenericItems xs depth

def GenericEntries : List (String × Value) → Nat → Prop
  | [], _ => True
  | (_, v) :: kvs, depth => Generic v depth ∧ GenericEntries kvs depth

end

def separator {α : Type} (rest : List α) : List Char := if rest.isEmpty then [] else [',']

mutual

/-- What `json.Marshal` writes for a generic value. -/
def marshalAny : Value → List Char
  | .nil => ['n', 'u', 'l', 'l']
  | .bool true => ['t', 'r', 'u', 'e']
  | .bool false => ['f', 'a', 'l', 's', 'e']
  | .float x => formatFloat x
  | .str s => jsonString s
  | .list xs => '[' :: marshalItems xs
  | .map kvs => '{' :: marshalMembers kvs
  -- no other value is generic
  | _ => []

/-- The items of an array and its closing bracket. -/
def marshalItems : List Value → List Char
  | [] => [']']
  | x :: xs => marshalAny x ++ separator xs ++ marshalItems xs

/-- The members of an object, in the order of their keys, and its closing brace. -/
def marshalMembers : List (String × Value) → List Char
  | [] => ['}']
  | (k, v) :: kvs =>
      jsonString k ++ ':' :: marshalAny v ++ separator kvs ++ marshalMembers kvs

end

theorem mapInsert_of_lt {α : Type} {k : String} {v : α} {acc : List (String × α)}
    (h : ∀ a ∈ acc, a.1 < k) : mapInsert k v acc = acc ++ [(k, v)] := by
  induction acc with
  | nil => rfl
  | cons a acc ih =>
      have ha : a.1 < k := h a List.mem_cons_self
      rw [mapInsert, if_neg ha.ne', if_neg ha.not_gt,
        ih fun b hb => h b (List.mem_cons_of_mem a hb)]
      rfl

theorem membersToAny_of_sorted {ms : List (String × Doc)} {kvs : List (String × Value)}
    (h : List.Forall₂ (fun m kv => m.1 = kv.1 ∧ m.2.toAny = some kv.2) ms kvs)
    (hsorted : kvs.Pairwise fun a b => a.1 < b.1) :
    ∀ {acc : List (String × Value)}, (∀ a ∈ acc, ∀ kv ∈ kvs, a.1 < kv.1) →
      Doc.membersToAny acc ms = some (acc ++ kvs) := by
  induction h with
  | nil =>
      intro acc _
      rw [Doc.membersToAny, List.append_nil]
  | @cons m kv ms kvs hm hms ih =>
      intro acc hacc
      obtain ⟨k, d⟩ := m
      obtain ⟨k', v⟩ := kv
      obtain ⟨rfl, hv⟩ := hm
      obtain ⟨hfirst, hsorted⟩ := List.pairwise_cons.mp hsorted
      rw [Doc.membersToAny, hv]
      simp only [Option.bind_eq_bind, Option.bind_some]
      rw [mapInsert_of_lt fun a ha => hacc a ha _ List.mem_cons_self, ih hsorted]
      · rw [List.append_assoc, List.singleton_append]
      · intro a ha kv hkv
        rcases List.mem_append.mp ha with ha | ha
        · exact hacc a ha kv (List.mem_cons_of_mem _ hkv)
        · rw [List.mem_singleton.mp ha]
          exact hfirst kv hkv

mutual

/-- The document that is written for a generic value. -/
def Value.json : Value → Json
  | .bool b => .bool b
  | .float x => .num (formatFloat x)
  | .str s => .str s
  | .list xs => .arr (Value.jsonItems xs)
  | .map kvs => .obj (Value.jsonMembers kvs)
  | _ => .null

def Value.jsonItems : List Value → List Json
  | [] => []
  | x :: xs => x.json :: Value.jsonItems xs

def Value.jsonMembers : List (String × Value) → List (String × Json)
  | [] => []
  | (k, v) :: kvs => (k, v.json) :: Value.jsonMembers kvs

end

theorem next_jsonItems (level : Nat) (xs : List Value) :
    Layout.compact.next level (Value.jsonItems xs) = separator xs := by
  cases xs <;> rfl

theorem next_jsonMembers (level : Nat) (kvs : List (String × Value)) :
    Layout.compact.next level (Value.jsonMembers kvs) = separator kvs := by
  cases kvs <;> rfl

theorem first_compact {α : Type} (level : Nat) (items : List α) :
    Layout.compact.first level items = [] := ite_self []

mutual

theorem text_json : (v : Value) → ∀ {depth level : Nat}, Generic v depth →
    v.json.text .compact level = marshalAny v
  | .nil, _, _, _ | .bool true, _, _, _ | .bool false, _, _, _ | .float _, _, _, _
  | .str _, _, _, _ => rfl
  | .list xs, _, level, hv => by
      rw [Value.json, Json.text, marshalAny, first_compact, itemsText_jsonItems xs hv.2]
      rfl
  | .map kvs, _, level, hv => by
      rw [Value.json, Json.text, marshalAny, first_compact, membersText_jsonMembers kvs hv.2.2]
      rfl

theorem itemsText_jsonItems : (xs : List Value) → ∀ {depth level : Nat}, GenericItems xs depth →
    Json.itemsText .compact level (Value.jsonItems xs) = marshalItems xs
  | [], _, _, _ => rfl
  | x :: xs, _, level, hxs => by
      rw [Value.jsonItems, Json.itemsText, marshalItems, text_json x hxs.1, next_jsonItems,
        itemsText_jsonItems xs hxs.2, List.append_assoc]

theorem membersText_jsonMembers : (kvs : List (String × Value)) → ∀ {depth level : Nat},
    GenericEntries kvs depth →
      Json.membersText .compact level (Value.jsonMembers kvs) = marshalMembers kvs
  | [], _, _, _ => rfl
  | (k, v) :: kvs, _, level, hkvs => by
      rw [Value.jsonMembers, Json.membersText, marshalMembers, text_json v hkvs.1,
        next_jsonMembers, membersText_jsonMembers kvs hkvs.2]
      simp [Layout.compact]

end

mutual

theorem ok_json : (v : Value) → ∀ {depth : Nat}, Generic v depth → v.json.Ok depth
  | .nil, _, _ | .bool _, _, _ | .str _, _, _ => trivial
  | .float _, _, hv => isLiteral_formatFloat hv
  | .list xs, _, hv => ⟨hv.1, ok_jsonItems xs hv.2⟩
  | .map kvs, _, hv => ⟨hv.1, ok_jsonMembers kvs hv.2.2⟩

theorem ok_jsonItems : (xs : List Value) → ∀ {depth : Nat}, GenericItems xs depth →
    Json.ItemsOk (Value.jsonItems xs) depth
  | [], _, _ => trivial
  | x :: xs, _, hxs => ⟨ok_json x hxs.1, ok_jsonItems xs hxs.2⟩

theorem ok_jsonMembers : (kvs : List (String × Value)) → ∀ {depth : Nat},
    GenericEntries kvs depth → Json.MembersOk (Value.jsonMembers kvs) depth
  | [], _, _ => trivial
  | (_, v) :: kvs, _, hkvs => ⟨ok_json v hkvs.1, ok_jsonMembers kvs hkvs.2⟩

end

mutual

theorem toAny_of_json : (v : Value) → ∀ {depth : Nat} {d : Doc}, Generic v depth →
    d.json = v.json → d.toAny = some v
  | .nil, _, d, _, h => by rw [Doc.eq_null_of_json h, Doc.toAny]
  | .bool b, _, d, _, h => by rw [Doc.eq_bool_of_json h, Doc.toAny]
  | .float x, _, d, hv, h => by
      rw [Doc.eq_num_of_json h, Doc.toAny, String.toList_ofList, parseFloat_formatFloat hv]
      rfl
  | .str s, _, d, _, h => by
      obtain ⟨lit, rfl, hlit⟩ := Doc.exists_str_of_json h
      rw [Doc.toAny, hlit]
  | .list xs, _, d, hv, h => by
      obtain ⟨raw, ds, rfl, hds⟩ := Doc.exists_arr_of_json h
      rw [Doc.toAny, itemsToAny_of_json xs hv.2 hds]
      rfl
  | .map kvs, _, d, hv, h => by
      obtain ⟨raw, ms, rfl, hms⟩ := Doc.exists_obj_of_json h
      rw [Doc.toAny, membersToAny_of_sorted (forall₂_of_json kvs hv.2.2 hms) hv.2.1 (by simp)]
      rfl

theorem itemsToAny_of_json : (xs : List Value) → ∀ {depth : Nat} {ds : List Doc},
    GenericItems xs depth → Doc.jsonItems ds = Value.jsonItems xs → Doc.itemsToAny ds = some xs
  | [], _, [], _, _ => rfl
  | x :: xs, _, d :: ds, hxs, h => by
      obtain ⟨hd, hds⟩ := List.cons.inj h
      rw [Doc.itemsToAny, toAny_of_json x hxs.1 hd, itemsToAny_of_json xs hxs.2 hds]
      rfl

theorem forall₂_of_json : (kvs : List (String × Value)) → ∀ {depth : Nat}
    {ms : List (String × Doc)}, GenericEntries kvs depth →
      Doc.jsonMembers ms = Value.jsonMembers kvs →
      List.Forall₂ (fun m kv => m.1 = kv.1 ∧ m.2.toAny = some kv.2) ms kvs
  | [], _, [], _, _ => List.Forall₂.nil
  | (k, v) :: kvs, _, (k', d) :: ms, hkvs, h => by
      obtain ⟨hm, hms⟩ := List.cons.inj h
      obtain ⟨hk, hd⟩ := Prod.mk.inj hm
      exact List.Forall₂.cons ⟨hk, toAny_of_json v hkvs.1 hd⟩ (forall₂_of_json kvs hkvs.2 hms)

end

theorem scan_marshalAny {v : Value} (hv : Generic v Doc.maxNestingDepth) :
    ∃ d, Doc.scan (marshalAny v) = some d ∧ d.toAny = some v := by
  obtain ⟨d, hd, hjson⟩ := @Json.scan_text .compact 0 _ (ok_json v hv)
  rw [text_json v hv] at hd
  exact ⟨d, hd, toAny_of_json v hv hjson⟩

/-- **What is written is read back** into an `any`. -/
theorem unmarshal_marshalAny {v : Value} (hv : Generic v Doc.maxNestingDepth) :
    unmarshal .any (marshalAny v) = some v := by
  obtain ⟨d, hd, hany⟩ := scan_marshalAny hv
  unfold unmarshal
  rw [hd]
  show d.decode .any _ = some v
  rw [Doc.decode_any, hany]

theorem exists_obj_of_toAny {d : Doc} {kvs : List (String × Value)}
    (h : d.toAny = some (.map kvs)) :
    ∃ text ms, d = .obj text ms ∧ Doc.membersToAny [] ms = some kvs := by
  cases d with
  | obj text ms =>
      obtain ⟨kvs', hkvs, heq⟩ := Option.map_eq_some_iff.mp h
      obtain rfl := Value.map.inj heq
      exact ⟨text, ms, rfl, hkvs⟩
  | arr text ds =>
      obtain ⟨xs, -, heq⟩ := Option.map_eq_some_iff.mp h
      cases heq
  | num lit =>
      obtain ⟨x, -, heq⟩ := Option.map_eq_some_iff.mp h
      cases heq
  | null => cases Option.some.inj h
  | bool b => cases Option.some.inj h
  | str lit => cases Option.some.inj h

/-- **What is written is read back** into a `map[string]any`. -/
theorem unmarshal_map_marshalAny {kvs : List (String × Value)}
    (hv : Generic (.map kvs) Doc.maxNestingDepth) :
    unmarshal (.map .any) (marshalAny (.map kvs)) = some (.map kvs) := by
  obtain ⟨d, hd, hany⟩ := scan_marshalAny hv
  obtain ⟨text, ms, rfl, hms⟩ := exists_obj_of_toAny hany
  unfold unmarshal
  rw [hd]
  show (Doc.decodeEntries .any [] ms).map Value.map = _
  rw [Doc.decodeEntries_any, hms]
  rfl

theorem marshalAny_inj {v w : Value} (hv : Generic v Doc.maxNestingDepth)
    (hw : Generic w Doc.maxNestingDepth) (h : marshalAny v = marshalAny w) : v = w := by
  have hread := unmarshal_marshalAny hv
  rw [h, unmarshal_marshalAny hw] at hread
  exact (Option.some.inj hread).symm

/-! ### What is read is generic -/

mutual

/-- A scanned text with at most so many open brackets. -/
def Doc.Within : Doc → Nat → Prop
  | .arr _ items, depth => 0 < depth ∧ Doc.WithinItems items (depth - 1)
  | .obj _ members, depth => 0 < depth ∧ Doc.WithinMembers members (depth - 1)
  | _, _ => True

def Doc.WithinItems : List Doc → Nat → Prop
  | [], _ => True
  | d :: ds, depth => d.Within depth ∧ Doc.WithinItems ds depth

def Doc.WithinMembers : List (String × Doc) → Nat → Prop
  | [], _ => True
  | (_, d) :: ms, depth => d.Within depth ∧ Doc.WithinMembers ms depth

end

theorem mem_mapInsert {α : Type} {k : String} {v : α} {m : List (String × α)} {kv : String × α}
    (h : kv ∈ mapInsert k v m) : kv = (k, v) ∨ kv ∈ m := by
  induction m with
  | nil => exact Or.inl (List.mem_singleton.mp h)
  | cons a m ih =>
      rw [mapInsert] at h
      split_ifs at h
      · exact (List.mem_cons.mp h).imp_right (List.mem_cons_of_mem a)
      · exact List.mem_cons.mp h
      · rcases List.mem_cons.mp h with rfl | h
        · exact Or.inr List.mem_cons_self
        · exact (ih h).imp_right (List.mem_cons_of_mem a)

theorem pairwise_mapInsert {α : Type} {k : String} {v : α} {m : List (String × α)}
    (h : m.Pairwise fun a b => a.1 < b.1) :
    (mapInsert k v m).Pairwise fun a b => a.1 < b.1 := by
  induction m with
  | nil => exact List.pairwise_singleton _ _
  | cons a m ih =>
      obtain ⟨hfirst, hm⟩ := List.pairwise_cons.mp h
      rw [mapInsert]
      split_ifs with heq hlt
      · subst heq
        exact List.pairwise_cons.mpr ⟨hfirst, hm⟩
      · refine List.pairwise_cons.mpr ⟨fun b hb => ?_, h⟩
        rcases List.mem_cons.mp hb with rfl | hb
        · exact hlt
        · exact hlt.trans (hfirst b hb)
      · refine List.pairwise_cons.mpr ⟨fun b hb => ?_, ih hm⟩
        rcases mem_mapInsert hb with rfl | hb
        · exact lt_of_le_of_ne (not_lt.mp hlt) (Ne.symm heq)
        · exact hfirst b hb

theorem genericEntries_iff {kvs : List (String × Value)} {depth : Nat} :
    GenericEntries kvs depth ↔ ∀ kv ∈ kvs, Generic kv.2 depth := by
  induction kvs with
  | nil => simp [GenericEntries]
  | cons kv kvs ih => simp [GenericEntries, ih]

theorem generic_filter {kvs : List (String × Value)} {depth : Nat} (h : Generic (.map kvs) depth)
    (p : String × Value → Bool) : Generic (.map (kvs.filter p)) depth := by
  obtain ⟨hdepth, hsorted, hentries⟩ := h
  refine ⟨hdepth, hsorted.filter p, genericEntries_iff.mpr fun kv hkv => ?_⟩
  exact genericEntries_iff.mp hentries kv (List.mem_filter.mp hkv).1

theorem generic_mapInsert {kvs : List (String × Value)} {depth : Nat} {v : Value}
    (h : Generic (.map kvs) depth) (k : String) (hv : Generic v (depth - 1)) :
    Generic (.map (mapInsert k v kvs)) depth := by
  obtain ⟨hdepth, hsorted, hentries⟩ := h
  refine ⟨hdepth, pairwise_mapInsert hsorted, genericEntries_iff.mpr fun kv hkv => ?_⟩
  rcases mem_mapInsert hkv with rfl | hkv
  · exact hv
  · exact genericEntries_iff.mp hentries kv hkv

theorem generic_of_lookup {kvs : List (String × Value)} {depth : Nat} {k : String} {v : Value}
    (h : Generic (.map kvs) depth) (hk : kvs.lookup k = some v) : Generic v (depth - 1) := by
  obtain ⟨l₁, l₂, rfl, -⟩ := List.lookup_eq_some_iff.mp hk
  exact genericEntries_iff.mp h.2.2 (k, v) (by simp)

theorem lookup_of_mem {α : Type} {m : List (String × α)} (h : m.Pairwise fun a b => a.1 < b.1)
    {kv : String × α} (hkv : kv ∈ m) : m.lookup kv.1 = some kv.2 := by
  induction m with
  | nil => cases hkv
  | cons a m ih =>
      obtain ⟨hfirst, hm⟩ := List.pairwise_cons.mp h
      obtain ⟨k, v⟩ := a
      rw [lookup_cons_ite]
      rcases List.mem_cons.mp hkv with rfl | hkv
      · exact if_pos rfl
      · rw [if_neg (hfirst kv hkv).ne', ih hm hkv]

theorem eq_of_lookup_eq {α : Type} {m m' : List (String × α)}
    (hm : m.Pairwise fun a b => a.1 < b.1) (hm' : m'.Pairwise fun a b => a.1 < b.1)
    (h : ∀ k, m.lookup k = m'.lookup k) : m = m' := by
  have hmem : ∀ {n n' : List (String × α)}, n.Pairwise (fun a b => a.1 < b.1) →
      (∀ k, n.lookup k = n'.lookup k) → ∀ kv ∈ n, kv ∈ n' := by
    intro n n' hn hlookup kv hkv
    have hfound := lookup_of_mem hn hkv
    rw [hlookup] at hfound
    obtain ⟨l₁, l₂, rfl, -⟩ := List.lookup_eq_some_iff.mp hfound
    simp
  have hirrefl : ∀ {n : List (String × α)}, n.Pairwise (fun a b => a.1 < b.1) → n.Nodup :=
    fun hn => hn.imp fun hlt heq => hlt.ne (congrArg Prod.fst heq)
  have hperm : m.Perm m' := (List.perm_ext_iff_of_nodup (hirrefl hm) (hirrefl hm')).mpr fun kv =>
    ⟨hmem hm h kv, hmem hm' (fun k => (h k).symm) kv⟩
  exact hperm.eq_of_pairwise (fun a b _ _ hab hba => absurd hab hba.not_gt) hm hm'

end EvidraBench.Gostd
