import EvidraBench.Gostd.Strings
import EvidraBench.Lib.FileSystem

/-!
# Paths and directories

The part of `path/filepath` and `os` that the verified packages call, on Unix. A cleaned absolute
path is the list of its elements, so `/a/b` is `["a", "b"]` and `/` is `[]`; a path as it is written
is split at the separators, empty elements included.

Results: `mkdirAll_spec`.
-/

namespace EvidraBench.Gostd

open EvidraBench.Lib

/-! ### `path/filepath` -/

def elements (path : String) : List String := split path '/'

/-- `filepath.IsAbs`. -/
def isAbs (path : String) : Bool := hasPrefix path "/"

def cleanStep (path : List String) (elem : String) : List String :=
  if elem = "" ∨ elem = "." then path
  else if elem = ".." then path.dropLast
  else path ++ [elem]

/-- `filepath.Clean` of the absolute path with those elements. -/
def clean (elems : List String) : List String := elems.foldl cleanStep []

/-- `filepath.Dir` of a cleaned absolute path. -/
def dirOf (path : List String) : List String := path.dropLast

/-- `filepath.Rel` of two cleaned absolute paths; `.` is the empty list. -/
def rel : List String → List String → List String
  | b :: base, t :: target =>
      if b = t then rel base target else List.replicate (base.length + 1) ".." ++ t :: target
  | base, target => List.replicate base.length ".." ++ target

theorem proper_clean (elems : List String) : ∀ n ∈ clean elems, FileSystem.Proper n := by
  have hfold : ∀ (elems path : List String), (∀ n ∈ path, FileSystem.Proper n) →
      ∀ n ∈ elems.foldl cleanStep path, FileSystem.Proper n := by
    intro elems
    induction elems with
    | nil => exact fun path h => h
    | cons e elems ih =>
        intro path h
        refine ih (cleanStep path e) fun n hn => ?_
        unfold cleanStep at hn
        split_ifs at hn with h₁ h₂
        · exact h n hn
        · exact h n (List.dropLast_subset path hn)
        · rcases List.mem_append.mp hn with hn | hn
          · exact h n hn
          · obtain rfl := List.mem_singleton.mp hn
            exact ⟨fun he => h₁ (Or.inl he), fun he => h₁ (Or.inr he), h₂⟩
  exact hfold elems [] (by simp)

theorem prefix_of_rel : ∀ {base target : List String}, (rel base target).head? ≠ some ".." →
    base <+: target
  | [], target, _ => List.nil_prefix
  | b :: base, [], h => by simp [rel, List.replicate_succ] at h
  | b :: base, t :: target, h => by
      rw [rel] at h
      split_ifs at h with hbt
      · rw [hbt, List.prefix_cons_inj]
        exact prefix_of_rel h
      · simp [List.replicate_succ] at h

/-! ### `os` -/

/-- `filepath.EvalSymlinks`, which follows links by itself, up to 255 of them. -/
def evalSymlinks (fs : FileSystem) (path : List String) : Except Errno Loc := fs.resolve 255 path

/-- `os.Getwd`: it names an existing directory or fails. -/
def getwd (fs : FileSystem) (cwd : List String) : Except Errno (List String) := do
  let loc ← fs.stat cwd
  if fs.node loc = some .dir then .ok cwd else .error .notDir

/-- The end of `os.MkdirAll`: make a directory whose parent exists, unless it turns out to exist. -/
def mkdirOrDir (fs : FileSystem) (path : List String) : FileSystem × Except Errno Unit :=
  match fs.mkdir path with
  | (fs', .ok ()) => (fs', .ok ())
  | (fs', .error e) =>
      match fs'.lstat path with
      | .ok loc => (fs', if fs'.node loc = some .dir then .ok () else .error e)
      | .error _ => (fs', .error e)

/-- `os.MkdirAll`, on the elements from the last one up. -/
def mkdirAllRev (fs : FileSystem) : List String → FileSystem × Except Errno Unit
  | [] => (fs, .ok ())
  | name :: up =>
      match fs.stat (up.reverse ++ [name]) with
      | .ok loc => (fs, if fs.node loc = some .dir then .ok () else .error .notDir)
      | .error _ =>
          match mkdirAllRev fs up with
          | (fs', .error e) => (fs', .error e)
          | (fs', .ok ()) => mkdirOrDir fs' (up.reverse ++ [name])

/-- `os.MkdirAll`. -/
def mkdirAll (fs : FileSystem) (path : List String) : FileSystem × Except Errno Unit :=
  mkdirAllRev fs path.reverse

/-! ### The first directory that is made -/

/-- Whether a directory of that name can be made. -/
def canMake (fs : FileSystem) (parent : Loc) (name : String) : Bool :=
  fs.node parent = some .dir && !fs.closed parent && fs.node (parent ++ [name]) = none &&
    !fs.denies (parent ++ [name])

/-- The location of the first directory that is made, from the last element up. -/
def firstMadeRev (fs : FileSystem) : List String → Option Loc
  | [] => none
  | name :: up =>
      match fs.stat (up.reverse ++ [name]) with
      | .ok _ => none
      | .error _ =>
          match fs.stat up.reverse with
          | .ok parent => if canMake fs parent name then some (parent ++ [name]) else none
          | .error _ => firstMadeRev fs up

/-- The location of the first directory that `mkdirAll` makes. -/
def firstMade (fs : FileSystem) (path : List String) : Option Loc := firstMadeRev fs path.reverse

/-- Directories were made at `first` and below. -/
structure Made (fs fs' : FileSystem) (first : Loc) : Prop where
  was : fs.node first = none
  made : fs'.node first = some .dir
  frame : ∀ l, fs'.node l ≠ fs.node l → first <+: l
  more : FileSystem.Extends fs fs'

theorem Made.trans {fs fs' fs'' : FileSystem} {first : Loc} (h : Made fs fs' first)
    (hframe : ∀ l, fs''.node l ≠ fs'.node l → first <+: l)
    (hmore : FileSystem.Extends fs' fs'') : Made fs fs'' first := by
  refine ⟨h.was, hmore.node _ _ h.made, fun l hl => ?_, ?_⟩
  · by_cases hsame : fs''.node l = fs'.node l
    · exact h.frame l (hsame ▸ hl)
    · exact hframe l hsame
  · exact ⟨fun l x hx => hmore.node l x (h.more.node l x hx), hmore.closed.trans h.more.closed⟩

theorem canMake_iff {fs : FileSystem} {parent : Loc} {name : String} :
    canMake fs parent name = true ↔ fs.node parent = some .dir ∧ fs.closed parent = false ∧
      fs.node (parent ++ [name]) = none ∧ fs.denies (parent ++ [name]) = false := by
  simp [canMake, and_assoc]

theorem stat_concat {fs : FileSystem} {up : List String} {parent : Loc} {name : String}
    (hstat : fs.stat up = .ok parent) (hname : FileSystem.Proper name)
    (hclosed : fs.closed parent = false) (hdir : fs.node (parent ++ [name]) = some .dir) :
    fs.stat (up ++ [name]) = .ok (parent ++ [name]) := by
  have hparent : fs.node parent = some .dir := fs.parentDir parent name (by simp [hdir])
  obtain ⟨k, -, hwalk⟩ := FileSystem.walk_append hparent (List.cons_ne_nil name []) hstat
  refine hwalk.trans (FileSystem.walk_singleton k parent name (Or.inl ?_))
  rw [FileSystem.look_proper hname hclosed, hdir]
  rfl

theorem mkdir_concat {fs : FileSystem} {up : List String} {parent : Loc} (name : String)
    (hstat : fs.stat up = .ok parent) :
    (canMake fs parent name = true →
        fs.mkdir (up ++ [name]) = (fs.addDir parent name, .ok ())) ∧
      (canMake fs parent name = false → ∃ e, fs.mkdir (up ++ [name]) = (fs, .error e)) := by
  unfold FileSystem.mkdir
  rw [FileSystem.parentOf_concat, hstat]
  constructor
  · intro hcan
    obtain ⟨hdir, hclosed, hnone, hdenies⟩ := canMake_iff.mp hcan
    simp [hdir, hclosed, hnone, hdenies]
  · intro hcan
    dsimp only
    split_ifs with h₁ h₂
    · exact ⟨_, rfl⟩
    · exact ⟨_, rfl⟩
    · dsimp only
      split_ifs with h₃ h₄
      · exact ⟨_, rfl⟩
      · exact ⟨_, rfl⟩
      · have hmake : canMake fs parent name = true := canMake_iff.mpr
          ⟨not_ne_iff.mp h₁, Bool.eq_false_of_not_eq_true h₂, not_ne_iff.mp h₃,
            Bool.eq_false_of_not_eq_true h₄⟩
        exact absurd (hmake.symm.trans hcan) (by simp)

theorem mkdirOrDir_spec {fs : FileSystem} {up : List String} {parent : Loc} {name : String}
    (hname : FileSystem.Proper name) (hstat : fs.stat up = .ok parent) :
    (mkdirOrDir fs (up ++ [name])).1 =
        (if canMake fs parent name then fs.addDir parent name else fs) ∧
      ((mkdirOrDir fs (up ++ [name])).2 = .ok () →
        (mkdirOrDir fs (up ++ [name])).1.stat (up ++ [name]) = .ok (parent ++ [name]) ∧
          (mkdirOrDir fs (up ++ [name])).1.node (parent ++ [name]) = some .dir) := by
  obtain ⟨hmade, hfailed⟩ := mkdir_concat name hstat
  rcases hcan : canMake fs parent name with _ | _
  · obtain ⟨e, he⟩ := hfailed hcan
    rw [mkdirOrDir, he]
    dsimp only
    rcases hl : fs.lstat (up ++ [name]) with e' | loc
    · exact ⟨rfl, fun h => by cases h⟩
    · refine ⟨rfl, fun h => ?_⟩
      have hdir : fs.node loc = some .dir := by
        by_contra hdir
        simp [hdir] at h
      rw [FileSystem.lstat_concat, hstat] at hl
      dsimp only at hl
      split_ifs at hl with h₁ h₂ h₃
      obtain rfl := Except.ok.inj hl
      exact ⟨stat_concat hstat hname (Bool.eq_false_of_not_eq_true h₂) hdir, hdir⟩
  · obtain ⟨hdir, hclosed, hnone, -⟩ := canMake_iff.mp hcan
    rw [mkdirOrDir, hmade hcan]
    have hmore := FileSystem.extends_addDir fs parent name
    have hnew : (fs.addDir parent name).node (parent ++ [name]) = some .dir := by
      rw [FileSystem.addDir_node hdir hnone, if_pos rfl]
    refine ⟨rfl, fun _ => ⟨stat_concat (hmore.walk hstat) hname ?_ hnew, hnew⟩⟩
    rw [hmore.closed]
    exact hclosed

theorem made_addDir {fs : FileSystem} {parent : Loc} {name : String}
    (h : canMake fs parent name = true) :
    Made fs (fs.addDir parent name) (parent ++ [name]) := by
  obtain ⟨hdir, -, hnone, -⟩ := canMake_iff.mp h
  refine ⟨hnone, ?_, fun l hl => ?_, FileSystem.extends_addDir fs parent name⟩
  · rw [FileSystem.addDir_node hdir hnone, if_pos rfl]
  · rw [FileSystem.addDir_node hdir hnone] at hl
    split_ifs at hl with heq
    · rw [heq]
    · exact absurd rfl hl

/-- What `mkdirAll` did: nothing, and the path is a directory if it returned, or it made `first`. -/
def MkdirAllDid (fs : FileSystem) (path : List String) (first : Option Loc)
    (out : FileSystem × Except Errno Unit) : Prop :=
  match first with
  | none => out.1 = fs ∧ (out.2 = .ok () → ∃ loc, fs.stat path = .ok loc ∧ fs.node loc = some .dir)
  | some first => Made fs out.1 first ∧ (out.2 = .ok () → ∃ loc, out.1.stat path = .ok loc ∧
      first <+: loc ∧ out.1.node loc = some .dir)

theorem mkdirAllRev_of_stat {fs : FileSystem} {up : List String} {loc : Loc}
    (h : fs.stat up.reverse = .ok loc) : (mkdirAllRev fs up).1 = fs ∧
      ((mkdirAllRev fs up).2 = .ok () ↔ fs.node loc = some .dir) := by
  cases up with
  | nil =>
      obtain rfl := Except.ok.inj h
      exact ⟨rfl, fun _ => fs.rootDir, fun _ => rfl⟩
  | cons name up =>
      rw [List.reverse_cons] at h
      rw [mkdirAllRev, h]
      refine ⟨rfl, ?_⟩
      dsimp only
      split_ifs with hdir <;> simp [hdir]

/-- **What `mkdirAll` does**, on the elements from the last one up. -/
theorem mkdirAllRev_spec (fs : FileSystem) : ∀ {up : List String},
    (∀ n ∈ up, FileSystem.Proper n) →
      MkdirAllDid fs up.reverse (firstMadeRev fs up) (mkdirAllRev fs up)
  | [], _ => ⟨rfl, fun _ => ⟨[], rfl, fs.rootDir⟩⟩
  | name :: up, hproper => by
      have hname := hproper name List.mem_cons_self
      have hup := mkdirAllRev_spec fs fun n hn => hproper n (List.mem_cons_of_mem _ hn)
      rw [List.reverse_cons, firstMadeRev, mkdirAllRev]
      rcases hstat : fs.stat (up.reverse ++ [name]) with e | loc
      · dsimp only
        rcases hparent : fs.stat up.reverse with e' | parent
        · -- the parent is missing too, and everything was decided there
          dsimp only
          rcases hrec : mkdirAllRev fs up with ⟨fs', e'' | _⟩
          · rw [hrec] at hup
            rcases hfirst : firstMadeRev fs up with _ | first
            · rw [hfirst] at hup
              exact ⟨hup.1, fun h => by cases h⟩
            · rw [hfirst] at hup
              exact ⟨hup.1, fun h => by cases h⟩
          · rw [hrec] at hup
            rcases hfirst : firstMadeRev fs up with _ | first
            · rw [hfirst] at hup
              obtain ⟨loc, hloc, -⟩ := hup.2 rfl
              exact absurd (hparent.symm.trans hloc) (by simp)
            · rw [hfirst] at hup
              obtain ⟨hmade, hok⟩ := hup
              obtain ⟨loc, hloc, hbelow, hdir⟩ := hok rfl
              obtain ⟨hstate, hthere⟩ := mkdirOrDir_spec hname hloc
              refine ⟨?_, fun h => ?_⟩
              · rw [hstate]
                split_ifs with hcan
                · have hlast := made_addDir hcan
                  exact hmade.trans (fun l hl =>
                    hbelow.trans ((List.prefix_append loc [name]).trans (hlast.frame l hl)))
                    hlast.more
                · exact hmade
              · obtain ⟨hfinal, hdir'⟩ := hthere h
                exact ⟨_, hfinal, hbelow.trans (List.prefix_append loc [name]), hdir'⟩
        · obtain ⟨hsame, hdir⟩ := mkdirAllRev_of_stat hparent
          dsimp only
          rcases hrec : mkdirAllRev fs up with ⟨fs', e' | _⟩
          · rw [hrec] at hsame hdir
            have hcan : canMake fs parent name = false := by
              by_contra hcan
              have hmake := canMake_iff.mp (Bool.eq_true_of_not_eq_false hcan)
              exact absurd (hdir.mpr hmake.1) (by simp)
            rw [hcan]
            exact ⟨hsame, fun h => by cases h⟩
          · rw [hrec] at hsame
            obtain rfl : fs' = fs := hsame
            obtain ⟨hstate, hthere⟩ := mkdirOrDir_spec hname hparent
            rcases hcan : canMake fs' parent name with _ | _
            · rw [hcan] at hstate
              refine ⟨hstate, fun h => ?_⟩
              obtain ⟨hfinal, hdir'⟩ := hthere h
              rw [hstate] at hfinal hdir'
              exact ⟨_, hfinal, hdir'⟩
            · rw [hcan] at hstate
              refine ⟨?_, fun h => ?_⟩
              · rw [hstate]
                exact made_addDir hcan
              · obtain ⟨hfinal, hdir'⟩ := hthere h
                exact ⟨_, hfinal, List.prefix_refl _, hdir'⟩
      · refine ⟨rfl, fun h => ⟨loc, hstat, ?_⟩⟩
        by_contra hdir
        simp [hdir] at h

/-- **What `mkdirAll` does.** -/
theorem mkdirAll_spec (fs : FileSystem) {path : List String}
    (hproper : ∀ n ∈ path, FileSystem.Proper n) :
    MkdirAllDid fs path (firstMade fs path) (mkdirAll fs path) := by
  have hproper' : ∀ n ∈ path.reverse, FileSystem.Proper n := fun n hn =>
    hproper n (List.mem_reverse.mp hn)
  have hrev := mkdirAllRev_spec fs hproper'
  rwa [List.reverse_reverse] at hrev

end EvidraBench.Gostd
