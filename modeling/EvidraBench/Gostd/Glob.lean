import EvidraBench.Gostd.Strings

/-!
# `filepath.Match` and `filepath.Glob`

A pattern is read into terms once; a pattern that cannot be read matches nothing. `Glob` matches a
path name by name, so a directory on the way to the files is a pattern too. A name that has none of
the characters `*?[\` is a pattern for itself alone (`matchName_iff_of_plain`); a name that has one
need not even match itself.

Source: `path/filepath`
-/

namespace EvidraBench.Gostd

/-! ### Patterns -/

inductive Term where
  | star
  | any
  | lit (c : Char)
  | cls (negated : Bool) (ranges : List (Char × Char))
deriving DecidableEq, Repr

/-- A character of a class, possibly escaped; a class does not end after it.
Source: `getEsc` -/
def getEsc : List Char → Option (Char × List Char)
  | '\\' :: c :: d :: rest => some (c, d :: rest)
  | c :: d :: rest => if c = '-' || c = ']' || c = '\\' then none else some (c, d :: rest)
  | _ => none

/-- The ranges of a class, which has at least one. -/
def parseRanges : Nat → List (Char × Char) → List Char → Option (List (Char × Char) × List Char)
  | 0, _, _ => none
  | fuel + 1, seen, s =>
      if s.head? = some ']' ∧ seen ≠ [] then some (seen, s.tail)
      else
        match getEsc s with
        | none => none
        | some (lo, '-' :: rest) =>
            match getEsc rest with
            | none => none
            | some (hi, rest) => parseRanges fuel ((lo, hi) :: seen) rest
        | some (lo, rest) => parseRanges fuel ((lo, lo) :: seen) rest

def parseTerms : Nat → List Char → Option (List Term)
  | _, [] => some []
  | 0, _ => none
  | fuel + 1, c :: rest =>
      if c = '*' then (parseTerms fuel rest).map (.star :: ·)
      else if c = '?' then (parseTerms fuel rest).map (.any :: ·)
      else if c = '\\' then
        match rest with
        | [] => none
        | d :: rest => (parseTerms fuel rest).map (.lit d :: ·)
      else if c = '[' then
        let negated := rest.head? = some '^'
        match parseRanges rest.length [] (if negated then rest.tail else rest) with
        | none => none
        | some (ranges, rest) => (parseTerms fuel rest).map (.cls negated ranges :: ·)
      else (parseTerms fuel rest).map (.lit c :: ·)

/-- Whether terms match a name, which has no separator. -/
def matchTerms : List Term → List Char → Bool
  | [], name => name.isEmpty
  | .star :: ts, name => name.tails.any (matchTerms ts)
  | .any :: ts, _ :: name => matchTerms ts name
  | .lit c :: ts, d :: name => c == d && matchTerms ts name
  | .cls negated ranges :: ts, d :: name =>
      (ranges.any fun r => r.1 ≤ d && d ≤ r.2) != negated && matchTerms ts name
  | _, [] => false

/-- `filepath.Match` for a name without separators. -/
def matchName (pattern name : String) : Bool :=
  match parseTerms pattern.toList.length pattern.toList with
  | none => false
  | some ts => matchTerms ts name.toList

/-- Whether terms match a path given as one text: neither `*` nor `?` matches a separator. -/
def matchSlashTerms : List Term → List Char → Bool
  | [], name => name.isEmpty
  | .star :: ts, name =>
      (List.range ((name.takeWhile (· ≠ '/')).length + 1)).any fun n =>
        matchSlashTerms ts (name.drop n)
  | .any :: ts, d :: name => d != '/' && matchSlashTerms ts name
  | .lit c :: ts, d :: name => c == d && matchSlashTerms ts name
  | .cls negated ranges :: ts, d :: name =>
      (ranges.any fun r => r.1 ≤ d && d ≤ r.2) != negated && matchSlashTerms ts name
  | _, [] => false

/-- `path.Match`; a malformed pattern matches nothing. -/
def matchSlash (pattern name : String) : Bool :=
  match parseTerms pattern.toList.length pattern.toList with
  | none => false
  | some ts => matchSlashTerms ts name.toList

/-- The characters that make a name a pattern.
Source: `hasMeta` -/
def isMagic (c : Char) : Bool := c = '*' || c = '?' || c = '[' || c = '\\'

theorem parseTerms_of_plain : ∀ {s : List Char} {fuel : Nat}, (∀ c ∈ s, isMagic c = false) →
    s.length ≤ fuel → parseTerms fuel s = some (s.map .lit)
  | [], _, _, _ => by simp [parseTerms]
  | c :: s, 0, _, hlen => absurd hlen (Nat.not_succ_le_zero _)
  | c :: s, fuel + 1, hplain, hlen => by
      have hc : isMagic c = false := hplain c List.mem_cons_self
      simp only [isMagic, Bool.or_eq_false_iff, decide_eq_false_iff_not] at hc
      obtain ⟨⟨⟨hstar, hany⟩, hclass⟩, hescape⟩ := hc
      have ih := parseTerms_of_plain (fun d hd => hplain d (List.mem_cons_of_mem c hd))
        (Nat.le_of_succ_le_succ hlen)
      simp only [parseTerms, if_neg hstar, if_neg hany, if_neg hescape, if_neg hclass, ih]
      rfl

theorem matchTerms_lit : ∀ {s name : List Char}, matchTerms (s.map .lit) name = true ↔ name = s
  | [], name => by simp [matchTerms]
  | c :: s, [] => by simp [matchTerms]
  | c :: s, d :: name => by
      rw [List.map_cons, matchTerms, Bool.and_eq_true, beq_iff_eq, matchTerms_lit, List.cons.injEq,
        eq_comm]

/-- **A plain name is a pattern for itself alone.** -/
theorem matchName_iff_of_plain {pattern name : String}
    (hplain : ∀ c ∈ pattern.toList, isMagic c = false) :
    matchName pattern name = true ↔ name = pattern := by
  rw [matchName, parseTerms_of_plain hplain le_rfl]
  exact matchTerms_lit.trans String.toList_inj

/-! ### Paths -/

abbrev Path := List String

def matchPath : Path → Path → Bool
  | [], [] => true
  | p :: ps, n :: ns => matchName p n && matchPath ps ns
  | _, _ => false

theorem matchPath_append : ∀ {ps ns : Path} {p n : String},
    matchPath (ps ++ [p]) (ns ++ [n]) = true ↔ matchPath ps ns = true ∧ matchName p n = true
  | [], [], p, n => by simp [matchPath]
  | [], m :: ns, p, n => by cases ns <;> simp [matchPath]
  | q :: ps, [], p, n => by cases ps <;> simp [matchPath]
  | q :: ps, m :: ns, p, n => by
      rw [List.cons_append, List.cons_append, matchPath, matchPath, Bool.and_eq_true,
        Bool.and_eq_true, matchPath_append, and_assoc]

theorem length_eq_of_matchPath : ∀ {ps ns : Path}, matchPath ps ns = true → ns.length = ps.length
  | [], [], _ => rfl
  | [], _ :: _, h => by simp [matchPath] at h
  | _ :: _, [], h => by simp [matchPath] at h
  | p :: ps, n :: ns, h => by
      rw [matchPath, Bool.and_eq_true] at h
      rw [List.length_cons, List.length_cons, length_eq_of_matchPath h.2]

theorem matchPath_iff_of_plain : ∀ {pattern path : Path},
    (∀ p ∈ pattern, ∀ c ∈ p.toList, isMagic c = false) →
    (matchPath pattern path = true ↔ path = pattern)
  | [], [], _ => by simp [matchPath]
  | [], _ :: _, _ => by simp [matchPath]
  | _ :: _, [], _ => by simp [matchPath]
  | p :: ps, n :: ns, hplain => by
      rw [matchPath, Bool.and_eq_true, matchName_iff_of_plain (hplain p List.mem_cons_self),
        matchPath_iff_of_plain fun q hq => hplain q (List.mem_cons_of_mem p hq), List.cons.injEq]

/-- The regular files, by path. Directories are what the paths go through. -/
abbrev Disk := AList fun _ : Path => Bytes

/-- `filepath.Glob`. A pattern that cannot be read lists nothing, like one that nothing matches. -/
def glob (disk : Disk) (pattern : Path) : List Path := disk.keys.filter (matchPath pattern)

theorem glob_eq_singleton {disk : Disk} {pattern path : Path} (hpath : path ∈ disk)
    (hmatch : ∀ p ∈ disk, matchPath pattern p = true ↔ p = path) :
    glob disk pattern = [path] := by
  have hnodup : (glob disk pattern).Nodup := disk.keys_nodup.filter _
  apply List.perm_singleton.mp
  apply (List.perm_ext_iff_of_nodup hnodup (List.nodup_singleton _)).mpr
  intro p
  rw [glob, List.mem_filter, List.mem_singleton]
  constructor
  · rintro ⟨hp, hm⟩
    exact (hmatch p hp).mp hm
  · rintro rfl
    exact ⟨hpath, (hmatch _ hpath).mpr rfl⟩

end EvidraBench.Gostd
