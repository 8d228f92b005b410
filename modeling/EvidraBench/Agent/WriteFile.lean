import EvidraBench.Gostd.Os
import EvidraBench.Gostd.Unmarshal
import EvidraBench.Lib.Checks

/-!
# The agent's `write_file` tool

`pkg/agent/tools.go`: the tool writes a file below the workspace. A first check compares the cleaned
paths, a second one, after links have been resolved, compares real locations. The directories of the
path are made between the two.

Results: `confined_of_validated`, `write_confined_iff`.
-/

namespace EvidraBench.Agent

open EvidraBench.Gostd EvidraBench.Lib

/-! ### The tool -/

/-- The executor's workspace setting and the current directory of the process.
Source: `ToolExecutor` -/
structure ToolExecutor where
  workspaceDir : String
  cwd : List String

/-- Why a path was refused; paths are cleaned ones. -/
inductive WriteError where
  /-- `resolve workspace dir: %w` -/
  | resolveWorkspaceDir (e : Errno)
  /-- `workspace dir %s: %w` -/
  | workspaceDir (abs : List String) (e : Errno)
  /-- `workspace dir %s is not a directory` -/
  | workspaceNotDir (abs : List String)
  /-- `resolve current workspace: %w` -/
  | currentWorkspace (e : Errno)
  /-- `path %s escapes workspace %s` -/
  | escapes (path : String) (root : List String)
  /-- `resolve workspace symlinks: %w` -/
  | workspaceSymlinks (e : Errno)
  /-- `resolve parent directory symlinks: %w` -/
  | parentSymlinks (e : Errno)
  /-- `path %s escapes workspace %s through symlink` -/
  | escapesThroughSymlink (target root : List String)
  /-- `resolve target symlinks: %w` -/
  | targetSymlinks (e : Errno)
  /-- `inspect target path: %w` -/
  | inspectTarget (e : Errno)
deriving DecidableEq, Repr

inductive WriteResult where
  /-- `error parsing arguments: %v` -/
  | parsing
  /-- `error: path is required` -/
  | pathRequired
  /-- `error: %v` -/
  | refused (e : WriteError)
  /-- `error creating directory %s: %v` -/
  | creating (dir : List String) (e : Errno)
  /-- `error writing file: %v` -/
  | writing (e : Errno)
  /-- `wrote %d bytes to %s` -/
  | wrote (n : Nat) (target : List String)
deriving DecidableEq, Repr

def pathWithin (root candidate : List String) : Bool :=
  let r := rel root candidate
  r.isEmpty || r.head? ≠ some ".."

/-- `filepath.Abs` of the workspace directory. -/
def absWorkspaceDir (fs : FileSystem) (e : ToolExecutor) : Except WriteError (List String) :=
  if isAbs e.workspaceDir then .ok (clean (elements e.workspaceDir))
  else do
    let wd ← (getwd fs e.cwd).mapError .resolveWorkspaceDir
    .ok (clean (wd ++ elements e.workspaceDir))

/-- The workspace directory, `none` when it is not set.
Source: `normalizeWorkspaceDir` -/
def normalizeWorkspaceDir (fs : FileSystem) (e : ToolExecutor) :
    Except WriteError (Option (List String)) :=
  if trimSpace e.workspaceDir = "" then .ok none
  else do
    let abs ← absWorkspaceDir fs e
    let loc ← (fs.stat abs).mapError (.workspaceDir abs)
    if fs.node loc ≠ some .dir then .error (.workspaceNotDir abs)
    else .ok (some abs)

/-- The workspace root: the workspace directory, or else the current directory.
Source: `resolveWorkspaceWritePath`, `validateResolvedWorkspacePath`, the first lines -/
def workspaceRoot (fs : FileSystem) (e : ToolExecutor) : Except WriteError (List String) := do
  match ← normalizeWorkspaceDir fs e with
  | some root => .ok root
  | none =>
      let wd ← (getwd fs e.cwd).mapError .currentWorkspace
      .ok (clean wd)

def resolveWorkspaceWritePath (fs : FileSystem) (e : ToolExecutor) (path : String) :
    Except WriteError (List String) := do
  let root ← workspaceRoot fs e
  let target := if isAbs path then clean (elements path) else clean (root ++ elements path)
  if !pathWithin root target then .error (.escapes path root)
  else .ok target

def validateResolvedWorkspacePath (fs : FileSystem) (e : ToolExecutor) (target : List String) :
    Except WriteError Unit := do
  let root ← workspaceRoot fs e
  let realRoot ← (evalSymlinks fs root).mapError .workspaceSymlinks
  let realParent ← (evalSymlinks fs (dirOf target)).mapError .parentSymlinks
  if !pathWithin realRoot realParent then .error (.escapesThroughSymlink target root)
  else
    match fs.lstat target with
    | .ok _ => do
        let realTarget ← (evalSymlinks fs target).mapError .targetSymlinks
        if !pathWithin realRoot realTarget then .error (.escapesThroughSymlink target root)
        else .ok ()
    | .error e => if e ≠ .notExist then .error (.inspectTarget e) else .ok ()

def writeArgs (argsJSON : String) : Option (String × String) :=
  (unmarshal (.struct [("path", .string), ("content", .string)]) argsJSON.toList).map fun args =>
    ((args.field "path").asString, (args.field "content").asString)

def writeFile (fs : FileSystem) (e : ToolExecutor) (argsJSON : String) :
    FileSystem × WriteResult :=
  match writeArgs argsJSON with
  | none => (fs, .parsing)
  | some (path, content) =>
      if path = "" then (fs, .pathRequired)
      else
        match resolveWorkspaceWritePath fs e path with
        | .error err => (fs, .refused err)
        | .ok target =>
            -- the directories are made before links are looked at
            match mkdirAll fs (dirOf target) with
            | (fs', .error err) => (fs', .creating (dirOf target) err)
            | (fs', .ok ()) =>
                match validateResolvedWorkspacePath fs' e target with
                | .error err => (fs', .refused err)
                | .ok () =>
                    match fs'.write target (bytes content) with
                    | (fs'', .error err) => (fs'', .writing err)
                    | (fs'', .ok ()) => (fs'', .wrote (bytes content).length target)

/-! ### The workspace root -/

def Inside (fs : FileSystem) (e : ToolExecutor) (loc : Loc) : Prop :=
  ∃ root real, workspaceRoot fs e = .ok root ∧ evalSymlinks fs root = .ok real ∧ real <+: loc

theorem prefix_of_pathWithin {root candidate : List String}
    (h : pathWithin root candidate = true) : root <+: candidate := by
  refine prefix_of_rel fun hhead => ?_
  rcases Bool.or_eq_true_iff.mp h with h | h
  · rw [List.isEmpty_iff.mp h] at hhead
    cases hhead
  · exact absurd hhead (by simpa using h)

theorem getwd_extends {fs fs' : FileSystem} (h : FileSystem.Extends fs fs')
    {cwd wd : List String} (hwd : getwd fs cwd = .ok wd) : getwd fs' cwd = .ok wd := by
  obtain ⟨loc, hstat, hok⟩ := seq_eq_ok.mp hwd
  refine seq_eq_ok.mpr ⟨loc, h.walk hstat, ?_⟩
  split_ifs at hok with hdir
  rw [if_pos (h.node loc _ hdir)]
  exact hok

theorem absWorkspaceDir_extends {fs fs' : FileSystem} (h : FileSystem.Extends fs fs')
    {e : ToolExecutor} {abs : List String} (habs : absWorkspaceDir fs e = .ok abs) :
    absWorkspaceDir fs' e = .ok abs := by
  unfold absWorkspaceDir at habs ⊢
  split_ifs at habs ⊢
  · exact habs
  · obtain ⟨wd, hwd, hok⟩ := seq_eq_ok.mp habs
    exact seq_eq_ok.mpr ⟨wd, mapError_eq_ok.mpr (getwd_extends h (mapError_eq_ok.mp hwd)), hok⟩

theorem normalizeWorkspaceDir_extends {fs fs' : FileSystem} (h : FileSystem.Extends fs fs')
    {e : ToolExecutor} {dir : Option (List String)} (hdir : normalizeWorkspaceDir fs e = .ok dir) :
    normalizeWorkspaceDir fs' e = .ok dir := by
  unfold normalizeWorkspaceDir at hdir ⊢
  by_cases hset : trimSpace e.workspaceDir = ""
  · rw [if_pos hset] at hdir ⊢
    exact hdir
  · rw [if_neg hset] at hdir ⊢
    obtain ⟨abs, habs, hdir⟩ := seq_eq_ok.mp hdir
    obtain ⟨loc, hloc, hdir⟩ := seq_eq_ok.mp hdir
    split_ifs at hdir with hnode
    refine seq_eq_ok.mpr ⟨abs, absWorkspaceDir_extends h habs, seq_eq_ok.mpr ⟨loc, ?_, ?_⟩⟩
    · exact mapError_eq_ok.mpr (h.walk (mapError_eq_ok.mp hloc))
    · have hnode' : fs'.node loc = some .dir := h.node loc _ (not_ne_iff.mp hnode)
      rw [if_neg (not_ne_iff.mpr hnode')]
      exact hdir

theorem workspaceRoot_extends {fs fs' : FileSystem} (h : FileSystem.Extends fs fs')
    {e : ToolExecutor} {root : List String} (hroot : workspaceRoot fs e = .ok root) :
    workspaceRoot fs' e = .ok root := by
  obtain ⟨dir, hdir, hroot⟩ := seq_eq_ok.mp hroot
  refine seq_eq_ok.mpr ⟨dir, normalizeWorkspaceDir_extends h hdir, ?_⟩
  cases dir with
  | some root => exact hroot
  | none =>
      obtain ⟨wd, hwd, hok⟩ := seq_eq_ok.mp hroot
      exact seq_eq_ok.mpr ⟨wd, mapError_eq_ok.mpr (getwd_extends h (mapError_eq_ok.mp hwd)), hok⟩

theorem inside_of_extends {fs fs' : FileSystem} (h : FileSystem.Extends fs fs') {e : ToolExecutor}
    {first loc : Loc} (hfirst : Inside fs e first) (hloc : Inside fs' e loc) : Inside fs e loc := by
  obtain ⟨root, real, hroot, hreal, -⟩ := hfirst
  obtain ⟨root', real', hroot', hreal', hbelow⟩ := hloc
  obtain rfl := Except.ok.inj (hroot'.symm.trans (workspaceRoot_extends h hroot))
  obtain rfl := Except.ok.inj (hreal'.symm.trans (h.walk hreal))
  exact ⟨root', real', hroot, hreal, hbelow⟩

/-! ### The second check -/

/-- **A checked write is confined.** Where a path leads that passed the second check is below the
real workspace root. -/
theorem confined_of_validated {fs : FileSystem} {e : ToolExecutor} {target : List String}
    (hproper : ∀ n ∈ target, FileSystem.Proper n)
    (h : validateResolvedWorkspacePath fs e target = .ok ()) {loc : Loc}
    (hloc : fs.walk true FileSystem.maxLinks [] target = .ok loc) : Inside fs e loc := by
  have hlimit : FileSystem.maxLinks ≤ 255 := by decide
  obtain ⟨root, hroot, h⟩ := seq_eq_ok.mp h
  obtain ⟨real, hreal, h⟩ := seq_eq_ok.mp h
  obtain ⟨realParent, hparent, h⟩ := seq_eq_ok.mp h
  refine ⟨root, real, hroot, mapError_eq_ok.mp hreal, ?_⟩
  rw [mapError_eq_ok] at hparent
  split_ifs at h with hwithin
  have hparentWithin : real <+: realParent := prefix_of_pathWithin (by simpa using hwithin)
  rcases hl : fs.lstat target with err | there
  · -- nothing is there, so the file would be made in the parent that was checked
    rw [hl] at h
    dsimp only at h
    split_ifs at h with herr
    obtain rfl := not_ne_iff.mp herr
    rcases List.eq_nil_or_concat target with rfl | ⟨up, name, rfl⟩
    · cases hl
    rw [List.concat_eq_append] at hl hloc hparent hproper
    rw [dirOf, List.dropLast_concat] at hparent
    rw [FileSystem.lstat_concat] at hl
    rcases hstat : fs.stat up with err | parent
    · rw [hstat] at hl
      obtain rfl := Except.error.inj hl
      exact absurd (hparent.symm.trans (FileSystem.resolve_missing_mono hlimit hstat)) (by simp)
    · rw [hstat] at hl
      dsimp only at hl
      have hfree : fs.node parent = some .dir ∧ fs.closed parent = false ∧
          fs.node (parent ++ [name]) = none := by
        split_ifs at hl with hdir hclosed hnone
        · cases hl
        · cases hl
        · exact ⟨not_ne_iff.mp hdir, Bool.eq_false_of_not_eq_true hclosed, hnone⟩
      obtain ⟨hdir, hclosed, hnone⟩ := hfree
      obtain rfl := Except.ok.inj (hparent.symm.trans (FileSystem.resolve_mono hlimit hstat))
      obtain ⟨k, -, hwalk⟩ := FileSystem.walk_append hdir
        (List.cons_ne_nil name []) (FileSystem.walk_create_of_resolve hstat)
      have hnew : fs.walk true k realParent [name] = .ok (realParent ++ [name]) := by
        refine FileSystem.walk_singleton k realParent name (Or.inr ?_)
        rw [FileSystem.look_proper (hproper name (by simp)) hclosed, hnone]
        rfl
      obtain rfl := Except.ok.inj (hloc.symm.trans (hwalk.trans hnew))
      exact hparentWithin.trans (List.prefix_append _ _)
  · rw [hl] at h
    obtain ⟨realTarget, htarget, h⟩ := seq_eq_ok.mp h
    rw [mapError_eq_ok] at htarget
    split_ifs at h with hwithin'
    have htargetWithin : real <+: realTarget := prefix_of_pathWithin (by simpa using hwithin')
    rcases FileSystem.resolve_of_walk_create hloc with hfound | ⟨-, hmissing⟩
    · obtain rfl := Except.ok.inj (htarget.symm.trans (FileSystem.resolve_mono hlimit hfound))
      exact htargetWithin
    · exact absurd (htarget.symm.trans (FileSystem.resolve_missing_mono hlimit hmissing)) (by simp)

/-! ### The whole call -/

theorem proper_of_resolve {fs : FileSystem} {e : ToolExecutor} {path : String}
    {target : List String} (h : resolveWorkspaceWritePath fs e path = .ok target) :
    ∀ n ∈ target, FileSystem.Proper n := by
  obtain ⟨root, -, h⟩ := seq_eq_ok.mp h
  dsimp only at h
  split_ifs at h
  · obtain rfl := Except.ok.inj h
    exact proper_clean _
  · obtain rfl := Except.ok.inj h
    exact proper_clean _

theorem writeFile_state {fs : FileSystem} {e : ToolExecutor} {argsJSON path content : String}
    {target : List String} (hargs : writeArgs argsJSON = some (path, content)) (hpath : path ≠ "")
    (htarget : resolveWorkspaceWritePath fs e path = .ok target) :
    (writeFile fs e argsJSON).1 = (mkdirAll fs (dirOf target)).1 ∨
      validateResolvedWorkspacePath (mkdirAll fs (dirOf target)).1 e target = .ok () ∧
        (writeFile fs e argsJSON).1 =
          ((mkdirAll fs (dirOf target)).1.write target (bytes content)).1 := by
  unfold writeFile
  rw [hargs]
  dsimp only
  rw [if_neg hpath, htarget]
  dsimp only
  rcases mkdirAll fs (dirOf target) with ⟨fs', err | _⟩
  · exact Or.inl rfl
  dsimp only
  rcases hvalid : validateResolvedWorkspacePath fs' e target with err | _
  · exact Or.inl rfl
  refine Or.inr ⟨rfl, ?_⟩
  dsimp only
  rcases fs'.write target (bytes content) with ⟨fs'', err | _⟩
  · rfl
  · rfl

/-- A call whose first directory would be made outside of the workspace. -/
def MakesOutside (fs : FileSystem) (e : ToolExecutor) (argsJSON : String) : Prop :=
  ∃ path content target first, writeArgs argsJSON = some (path, content) ∧ path ≠ "" ∧
    resolveWorkspaceWritePath fs e path = .ok target ∧
    firstMade fs (dirOf target) = some first ∧ ¬ Inside fs e first

theorem exists_target_of_changed {fs : FileSystem} {e : ToolExecutor} {argsJSON : String}
    (h : (writeFile fs e argsJSON).1 ≠ fs) :
    ∃ path content target, writeArgs argsJSON = some (path, content) ∧ path ≠ "" ∧
      resolveWorkspaceWritePath fs e path = .ok target := by
  unfold writeFile at h
  rcases hargs : writeArgs argsJSON with _ | ⟨path, content⟩
  · rw [hargs] at h
    exact absurd rfl h
  rw [hargs] at h
  dsimp only at h
  by_cases hpath : path = ""
  · rw [if_pos hpath] at h
    exact absurd rfl h
  rcases htarget : resolveWorkspaceWritePath fs e path with err | target
  · rw [if_neg hpath, htarget] at h
    exact absurd rfl h
  · exact ⟨path, content, target, rfl, hpath, htarget⟩

/-- **When the tool stays inside.** For every file system, workspace and argument text, what the
call changes, refused or not, is below the real workspace root, exactly when the first directory
that is made on the way to the target, if there is one to make, is.
Source: `ToolExecutor.writeFile` -/
theorem write_confined_iff (fs : FileSystem) (e : ToolExecutor) (argsJSON : String) :
    (∀ l, (writeFile fs e argsJSON).1.node l ≠ fs.node l → Inside fs e l) ↔
      ¬ MakesOutside fs e argsJSON := by
  constructor
  · rintro hconfined ⟨path, content, target, first, hargs, hpath, htarget, hfirst, houtside⟩
    have hproper : ∀ n ∈ dirOf target, FileSystem.Proper n := fun n hn =>
      proper_of_resolve htarget n (List.dropLast_subset target hn)
    have hdid := mkdirAll_spec fs hproper
    rw [hfirst] at hdid
    obtain ⟨hmade, -⟩ := hdid
    -- the directory stays: the write that may follow changes no directory
    have hthere : (writeFile fs e argsJSON).1.node first = some .dir := by
      rcases writeFile_state hargs hpath htarget with hstate | ⟨-, hstate⟩
      · rw [hstate]
        exact hmade.made
      · rw [hstate]
        by_contra hgone
        have hchanged := FileSystem.write_frame fun heq => hgone (heq.trans hmade.made)
        exact hchanged.2 hmade.made
    refine houtside (hconfined first ?_)
    rw [hthere, hmade.was]
    simp
  · intro hnot l hl
    obtain ⟨path, content, target, hargs, hpath, htarget⟩ :=
      exists_target_of_changed fun heq => hl (by rw [heq])
    have hproper := proper_of_resolve htarget
    have hdirProper : ∀ n ∈ dirOf target, FileSystem.Proper n := fun n hn =>
      hproper n (List.dropLast_subset target hn)
    have hdid := mkdirAll_spec fs hdirProper
    -- what the write changes, if it comes to that, was checked
    have hwrite : (writeFile fs e argsJSON).1.node l ≠ (mkdirAll fs (dirOf target)).1.node l →
        Inside (mkdirAll fs (dirOf target)).1 e l := by
      intro hchanged
      rcases writeFile_state hargs hpath htarget with hstate | ⟨hvalid, hstate⟩
      · rw [hstate] at hchanged
        exact absurd rfl hchanged
      · rw [hstate] at hchanged
        exact confined_of_validated hproper hvalid (FileSystem.write_frame hchanged).1
    rcases hfirst : firstMade fs (dirOf target) with _ | first
    · rw [hfirst] at hdid
      rw [hdid.1] at hwrite
      exact hwrite hl
    · rw [hfirst] at hdid
      have hinside : Inside fs e first := by
        by_contra houtside
        exact hnot ⟨path, content, target, first, hargs, hpath, htarget, hfirst, houtside⟩
      by_cases hmade : (mkdirAll fs (dirOf target)).1.node l = fs.node l
      · rw [← hmade] at hl
        exact inside_of_extends hdid.1.more hinside (hwrite hl)
      · obtain ⟨root, real, hroot, hreal, hbelow⟩ := hinside
        exact ⟨root, real, hroot, hreal, hbelow.trans (hdid.1.frame l hmade)⟩

/-- A workspace `/ws` in which `link` leads to `/out`. -/
def linkedOut : FileSystem where
  node loc :=
    if loc = [] ∨ loc = ["ws"] ∨ loc = ["out"] then some .dir
    else if loc = ["ws", "link"] then some (.link true ["out"])
    else none
  closed _ := false
  denies _ := false
  room _ := 4096
  rootDir := rfl
  parentDir := by
    intro loc name hne
    split_ifs at hne with hdir hlink
    · rcases hdir with hdir | hdir | hdir
      · simp at hdir
      · simp [(List.append_inj' (hdir.trans (List.nil_append ["ws"]).symm) rfl).1]
      · simp [(List.append_inj' (hdir.trans (List.nil_append ["out"]).symm) rfl).1]
    · have hws : loc ++ [name] = ["ws"] ++ ["link"] := hlink
      simp [(List.append_inj' hws rfl).1]
    · exact absurd rfl hne

/-- **A refused write leaves a directory behind the link.** `link/sub/f.txt` passes the first check;
`/out/sub` is made; only then the path is refused.
Source: `ToolExecutor.writeFile` -/
theorem directory_made_outside :
    let e : ToolExecutor := ⟨"/ws", ["ws"]⟩
    let args := "\x7b\"path\":\"link/sub/f.txt\",\"content\":\"x\"\x7d"
    (writeFile linkedOut e args).2 =
        .refused (.escapesThroughSymlink ["ws", "link", "sub", "f.txt"] ["ws"]) ∧
      linkedOut.node ["out", "sub"] = none ∧
      (writeFile linkedOut e args).1.node ["out", "sub"] = some .dir ∧
      ¬ Inside linkedOut e ["out", "sub"] := by
  refine ⟨by decide +kernel, by decide, by decide +kernel, ?_⟩
  rintro ⟨root, real, hroot, hreal, hbelow⟩
  have hws : workspaceRoot linkedOut ⟨"/ws", ["ws"]⟩ = .ok ["ws"] := by decide +kernel
  obtain rfl := Except.ok.inj (hws.symm.trans hroot)
  have hrealWs : evalSymlinks linkedOut ["ws"] = .ok ["ws"] := by decide +kernel
  obtain rfl := Except.ok.inj (hrealWs.symm.trans hreal)
  simp at hbelow

end EvidraBench.Agent
