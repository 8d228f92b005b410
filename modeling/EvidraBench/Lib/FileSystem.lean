import Mathlib

/-!
# A file system with symbolic links

A location is the list of names that leads from the root to a node without passing a link, so that
two nodes are different exactly when their locations are. A path is a list of names too, and is
resolved to a location: links are followed, up to a limit, and `..` is the parent of the location
reached so far.

Results: `walk`, `walk_mono`, `walk_append`.

The environment is part of the state: which directories cannot be searched, where creating or
writing is refused, and how much a file can take.
-/

namespace EvidraBench.Lib

abbrev Loc := List String

inductive Node where
  | dir
  | file (content : List UInt8)
  | link (absolute : Bool) (target : List String)
  /-- A device, a pipe or a socket. -/
  | other
deriving DecidableEq, Repr

inductive Errno where
  | notExist
  | exist
  | notDir
  | isDir
  | loop
  | access
  | noSpace
deriving DecidableEq, Repr

structure FileSystem where
  node : Loc → Option Node
  /-- Directories that cannot be searched. -/
  closed : Loc → Bool
  /-- Where nothing can be created or written. -/
  denies : Loc → Bool
  /-- The bytes a file can take. -/
  room : Loc → Nat
  rootDir : node [] = some .dir
  parentDir : ∀ loc name, node (loc ++ [name]) ≠ none → node loc = some .dir

namespace FileSystem

/-! ### Resolving a path -/

inductive Look where
  | go (dir : Loc)
  | link (dir : Loc) (target : List String)
  | stop (result : Except Errno Loc)

/-- What the node of a name leads to; `last` says that the name is the last of the path. With
`create` the last name may be missing. -/
def found (create last : Bool) (cur : Loc) (name : String) : Option Node → Look
  | none => .stop (if create && last then .ok (cur ++ [name]) else .error .notExist)
  | some .dir => .go (cur ++ [name])
  | some (.link absolute target) => .link (if absolute then [] else cur) target
  | some _ => .stop (if last then .ok (cur ++ [name]) else .error .notDir)

def look (fs : FileSystem) (create last : Bool) (cur : Loc) (name : String) : Look :=
  if name = "" ∨ name = "." then .go cur
  else if name = ".." then .go cur.dropLast
  else if fs.closed cur then .stop (.error .access)
  else found create last cur name (fs.node (cur ++ [name]))

/-- Look up names until a link is met, which `follow` goes on with. -/
def steps (fs : FileSystem) (create : Bool) (follow : Loc → List String → Except Errno Loc) :
    Loc → List String → Except Errno Loc
  | cur, [] => .ok cur
  | cur, name :: rest =>
      match fs.look create rest.isEmpty cur name with
      | .go dir => steps fs create follow dir rest
      | .link dir target => follow dir (target ++ rest)
      | .stop result => result

/-- Resolve a path from a directory, following so many links. -/
def walk (fs : FileSystem) (create : Bool) : Nat → Loc → List String → Except Errno Loc
  | 0 => fs.steps create fun _ _ => .error .loop
  | limit + 1 => fs.steps create (walk fs create limit)

def resolve (fs : FileSystem) (limit : Nat) (path : List String) : Except Errno Loc :=
  fs.walk false limit [] path

/-- The links that the kernel follows in one path. -/
def maxLinks : Nat := 40

/-- `stat`: the location of a node, links followed. -/
def stat (fs : FileSystem) (path : List String) : Except Errno Loc := fs.resolve maxLinks path

/-- The directory and the name that the last element of a path is about. -/
def parentOf (fs : FileSystem) (path : List String) : Except Errno (Loc × String) :=
  match path.getLast? with
  | none => .error .exist
  | some name => do
      let parent ← fs.stat path.dropLast
      if fs.node parent ≠ some .dir then .error .notDir
      else if fs.closed parent then .error .access
      else .ok (parent, name)

/-- `lstat`: the location of a node, a link at the end not followed. -/
def lstat (fs : FileSystem) (path : List String) : Except Errno Loc :=
  if path = [] then .ok []
  else do
    let (parent, name) ← fs.parentOf path
    if fs.node (parent ++ [name]) = none then .error .notExist else .ok (parent ++ [name])

/-! ### Changes -/

def isFile (fs : FileSystem) (loc : Loc) : Bool :=
  match fs.node loc with
  | some (.file _) => true
  | _ => false

/-- A new directory; nothing changes where there cannot be one. -/
def addDir (fs : FileSystem) (parent : Loc) (name : String) : FileSystem :=
  if h : fs.node parent = some .dir ∧ fs.node (parent ++ [name]) = none then
    { fs with
      node := fun loc => if loc = parent ++ [name] then some .dir else fs.node loc
      rootDir := by
        rw [if_neg (by simp)]
        exact fs.rootDir
      parentDir := by
        intro loc name' hne
        by_cases hnew : loc ++ [name'] = parent ++ [name]
        · rw [(List.append_inj' hnew rfl).1, if_neg (by simp)]
          exact h.1
        · rw [if_neg hnew] at hne
          split_ifs
          · rfl
          · exact fs.parentDir loc name' hne }
  else fs

/-- A regular file with that content; nothing changes where there cannot be one. -/
def putFile (fs : FileSystem) (loc : Loc) (content : List UInt8) : FileSystem :=
  if h : fs.isFile loc = true ∨ fs.node loc = none ∧ fs.node loc.dropLast = some .dir then
    { fs with
      node := fun l => if l = loc then some (.file content) else fs.node l
      rootDir := by
        have hroot : [] ≠ loc := by
          rintro rfl
          simp [isFile, fs.rootDir] at h
        rw [if_neg hroot]
        exact fs.rootDir
      parentDir := by
        have hdir : fs.node loc ≠ some .dir := by
          intro hdir
          simp [isFile, hdir] at h
        intro l name hne
        have hparent : fs.node l = some .dir := by
          by_cases hnew : l ++ [name] = loc
          · rcases h with h | ⟨-, h⟩
            · refine fs.parentDir l name ?_
              rintro hnone
              rw [hnew] at hnone
              simp [isFile, hnone] at h
            · rwa [← hnew, List.dropLast_concat] at h
          · rw [if_neg hnew] at hne
            exact fs.parentDir l name hne
        rw [if_neg (by rintro rfl; exact hdir hparent)]
        exact hparent }
  else fs

/-- `mkdir`. -/
def mkdir (fs : FileSystem) (path : List String) : FileSystem × Except Errno Unit :=
  match fs.parentOf path with
  | .error e => (fs, .error e)
  | .ok (parent, name) =>
      if fs.node (parent ++ [name]) ≠ none then (fs, .error .exist)
      else if fs.denies (parent ++ [name]) then (fs, .error .access)
      else (fs.addDir parent name, .ok ())

/-- Open a file, created or emptied, and write to it. -/
def write (fs : FileSystem) (path : List String) (content : List UInt8) :
    FileSystem × Except Errno Unit :=
  match fs.walk true maxLinks [] path with
  | .error e => (fs, .error e)
  | .ok loc =>
      if fs.node loc = some .dir then (fs, .error .isDir)
      else if fs.denies loc then (fs, .error .access)
      else if fs.node loc = some .other then (fs, .ok ())
      else
        (fs.putFile loc (content.take (fs.room loc)),
          if content.length ≤ fs.room loc then .ok () else .error .noSpace)

/-! ### Resolution, limits and more nodes -/

section Walk

variable {fs : FileSystem} {create : Bool}

theorem steps_mono {f g : Loc → List String → Except Errno Loc}
    (hfg : ∀ cur path, f cur path ≠ .error .loop → g cur path = f cur path) :
    ∀ {path : List String} {cur : Loc}, fs.steps create f cur path ≠ .error .loop →
      fs.steps create g cur path = fs.steps create f cur path
  | [], _, _ => rfl
  | name :: rest, cur, h => by
      rw [steps] at h
      rw [steps, steps]
      rcases hlook : fs.look create rest.isEmpty cur name with dir | ⟨dir, target⟩ | result
      · rw [hlook] at h
        exact steps_mono hfg h
      · rw [hlook] at h
        exact hfg _ _ h
      · rfl

theorem walk_mono {m n : Nat} (hmn : m ≤ n) {cur : Loc} {path : List String}
    (h : fs.walk create m cur path ≠ .error .loop) :
    fs.walk create n cur path = fs.walk create m cur path := by
  have hstep : ∀ m cur path, fs.walk create m cur path ≠ .error .loop →
      fs.walk create (m + 1) cur path = fs.walk create m cur path := by
    intro m
    induction m with
    | zero => exact fun cur path => steps_mono fun cur path h => absurd rfl h
    | succ m ih => exact fun cur path => steps_mono ih
  induction n, hmn using Nat.le_induction with
  | base => rfl
  | succ n _ ih => rw [hstep n cur path (by rwa [ih]), ih]

theorem resolve_mono {m n : Nat} (hmn : m ≤ n) {path : List String} {loc : Loc}
    (h : fs.resolve m path = .ok loc) : fs.resolve n path = .ok loc := by
  have hne : fs.walk false m [] path ≠ .error .loop := by
    rw [show fs.walk false m [] path = .ok loc from h]
    simp
  exact (walk_mono hmn hne).trans h

theorem resolve_missing_mono {m n : Nat} (hmn : m ≤ n) {path : List String}
    (h : fs.resolve m path = .error .notExist) : fs.resolve n path = .error .notExist := by
  have hne : fs.walk false m [] path ≠ .error .loop := by
    rw [show fs.walk false m [] path = .error .notExist from h]
    simp
  exact (walk_mono hmn hne).trans h

theorem look_create (fs : FileSystem) (last : Bool) (cur : Loc) (name : String) :
    fs.look true last cur name = fs.look false last cur name ∨
      ∃ loc, fs.look true last cur name = .stop (.ok loc) ∧ fs.node loc = none ∧
        fs.look false last cur name = .stop (.error .notExist) := by
  unfold look
  split_ifs
  · exact Or.inl rfl
  · exact Or.inl rfl
  · exact Or.inl rfl
  · rcases hnode : fs.node (cur ++ [name]) with _ | _ | _ | ⟨absolute, target⟩ | _
    · cases last with
      | false => exact Or.inl rfl
      | true => exact Or.inr ⟨_, rfl, hnode, rfl⟩
    all_goals exact Or.inl rfl

theorem steps_create {f g : Loc → List String → Except Errno Loc}
    (hfg : ∀ cur path loc, f cur path = .ok loc → g cur path = .ok loc ∨
      fs.node loc = none ∧ g cur path = .error .notExist) :
    ∀ {path : List String} {cur loc : Loc}, fs.steps true f cur path = .ok loc →
      fs.steps false g cur path = .ok loc ∨
        fs.node loc = none ∧ fs.steps false g cur path = .error .notExist
  | [], _, _, h => Or.inl h
  | name :: rest, cur, loc, h => by
      rw [steps] at h ⊢
      rcases look_create fs rest.isEmpty cur name with hlook | ⟨loc', hlook, hnone, hlook'⟩
      · rw [hlook] at h
        rcases hlook' : fs.look false rest.isEmpty cur name with dir | ⟨dir, target⟩ | result
        · rw [hlook'] at h
          exact steps_create hfg h
        · rw [hlook'] at h
          exact hfg _ _ _ h
        · rw [hlook'] at h
          exact Or.inl h
      · rw [hlook] at h
        obtain rfl := Except.ok.inj h
        rw [hlook']
        exact Or.inr ⟨hnone, rfl⟩

/-- The location of a path that may end in a missing name: it is an existing node, or there is
nothing at it and the path leads nowhere. -/
theorem resolve_of_walk_create : ∀ {n : Nat} {cur loc : Loc} {path : List String},
    fs.walk true n cur path = .ok loc → fs.walk false n cur path = .ok loc ∨
      fs.node loc = none ∧ fs.walk false n cur path = .error .notExist
  | 0, _, _, _, h => steps_create (fun _ _ _ h => by cases h) h
  | _ + 1, _, _, _, h => steps_create (fun _ _ _ h => resolve_of_walk_create h) h

theorem walk_create_of_resolve : ∀ {n : Nat} {cur loc : Loc} {path : List String},
    fs.walk false n cur path = .ok loc → fs.walk true n cur path = .ok loc := by
  have hsteps : ∀ {f g : Loc → List String → Except Errno Loc},
      (∀ cur path loc, f cur path = .ok loc → g cur path = .ok loc) →
      ∀ {path : List String} {cur loc : Loc}, fs.steps false f cur path = .ok loc →
        fs.steps true g cur path = .ok loc := by
    intro f g hfg path
    induction path with
    | nil => exact fun h => h
    | cons name rest ih =>
        intro cur loc h
        rw [steps] at h ⊢
        rcases look_create fs rest.isEmpty cur name with hlook | ⟨loc', -, -, hlook⟩
        · rw [hlook]
          rcases hlook' : fs.look false rest.isEmpty cur name with dir | ⟨dir, target⟩ | result
          · rw [hlook'] at h
            exact ih h
          · rw [hlook'] at h
            exact hfg _ _ _ h
          · rw [hlook'] at h
            exact h
        · rw [hlook] at h
          cases h
  intro n
  induction n with
  | zero => exact hsteps fun _ _ _ h => by cases h
  | succ n ih => exact hsteps fun _ _ _ => ih

/-- A name that leads on does so wherever it stands in a path, and the last name that is looked up
leads to no directory. -/
theorem look_not_last (fs : FileSystem) (create last : Bool) (cur : Loc) (name : String) :
    (fs.look create false cur name = fs.look create last cur name ∧
        ∀ r, fs.look create last cur name ≠ .stop r) ∨
      ∃ r, fs.look create last cur name = .stop r ∧
        ∀ loc, r = .ok loc → fs.node loc ≠ some .dir := by
  unfold look
  split_ifs
  · exact Or.inl ⟨rfl, by simp⟩
  · exact Or.inl ⟨rfl, by simp⟩
  · exact Or.inr ⟨_, rfl, by simp⟩
  · have hstop : ∀ {c : Bool} {e : Errno} {x : Option Node}, fs.node (cur ++ [name]) = x →
        x ≠ some .dir → ∀ loc, (if c then .ok (cur ++ [name]) else .error e) = Except.ok loc →
          fs.node loc ≠ some .dir := by
      intro c e x hnode hx loc h
      split_ifs at h
      obtain rfl := Except.ok.inj h
      rwa [hnode]
    rcases hnode : fs.node (cur ++ [name]) with _ | _ | content | ⟨absolute, target⟩ | _
    · exact Or.inr ⟨_, rfl, hstop hnode (by simp)⟩
    · exact Or.inl ⟨rfl, by simp [found]⟩
    · exact Or.inr ⟨_, rfl, hstop hnode (by simp)⟩
    · exact Or.inl ⟨rfl, by simp [found]⟩
    · exact Or.inr ⟨_, rfl, hstop hnode (by simp)⟩

theorem steps_append {f : Loc → List String → Except Errno Loc} {G : Except Errno Loc → Prop}
    {dir : Loc} {more : List String} (hdir : fs.node dir = some .dir) (hmore : more ≠ [])
    (hhere : G (fs.steps create f dir more))
    (hfollow : ∀ cur path, f cur path = .ok dir → G (f cur (path ++ more))) :
    ∀ {path : List String} {cur : Loc}, fs.steps create f cur path = .ok dir →
      G (fs.steps create f cur (path ++ more))
  | [], cur, h => by
      obtain rfl := Except.ok.inj h
      exact hhere
  | name :: rest, cur, h => by
      rw [steps] at h
      have hlast : (rest ++ more).isEmpty = false := by simp [hmore]
      rw [List.cons_append, steps, hlast]
      rcases look_not_last fs create rest.isEmpty cur name with ⟨hlook, hon⟩ | ⟨r, hlook, hr⟩
      · rw [hlook]
        rcases hlook' : fs.look create rest.isEmpty cur name with d | ⟨d, target⟩ | result
        · rw [hlook'] at h
          exact steps_append hdir hmore hhere hfollow h
        · rw [hlook'] at h
          simpa using hfollow _ _ h
        · exact absurd hlook' (hon result)
      · rw [hlook] at h
        exact absurd hdir (hr dir h)

/-- **A path in two parts.** Behind a directory the rest of the path is resolved from there, with
what is left of the limit. -/
theorem walk_append {dir : Loc} {more : List String} (hdir : fs.node dir = some .dir)
    (hmore : more ≠ []) : ∀ {n : Nat} {cur : Loc} {path : List String},
      fs.walk create n cur path = .ok dir →
        ∃ k ≤ n, fs.walk create n cur (path ++ more) = fs.walk create k dir more
  | 0, _, _, h =>
      steps_append (G := fun r => ∃ k ≤ 0, r = fs.walk create k dir more) hdir hmore
        ⟨0, le_rfl, rfl⟩ (fun _ _ h => by cases h) h
  | n + 1, _, _, h => by
      refine steps_append (G := fun r => ∃ k ≤ n + 1, r = fs.walk create k dir more) hdir hmore
        ⟨n + 1, le_rfl, rfl⟩ (fun cur path h => ?_) h
      obtain ⟨k, hk, heq⟩ := walk_append hdir hmore h
      exact ⟨k, Nat.le_succ_of_le hk, heq⟩

theorem walk_singleton (n : Nat) (dir : Loc) (name : String) {loc : Loc}
    (h : fs.look create true dir name = .go loc ∨ fs.look create true dir name = .stop (.ok loc)) :
    fs.walk create n dir [name] = .ok loc := by
  cases n with
  | zero => rcases h with h | h <;> simp [walk, steps, h]
  | succ n => rcases h with h | h <;> simp [walk, steps, h]

/-- One file system has the nodes of another, and can be searched where it can. -/
structure Extends (fs fs' : FileSystem) : Prop where
  node : ∀ loc x, fs.node loc = some x → fs'.node loc = some x
  closed : fs'.closed = fs.closed

theorem Extends.look {fs' : FileSystem} (h : Extends fs fs') {last : Bool} {cur : Loc}
    {name : String} (hlook : ∀ e, fs.look false last cur name ≠ .stop (.error e)) :
    fs'.look false last cur name = fs.look false last cur name := by
  unfold FileSystem.look at hlook ⊢
  rw [h.closed]
  split_ifs at hlook ⊢
  · rfl
  · rfl
  · rfl
  · rcases hnode : fs.node (cur ++ [name]) with _ | x
    · rw [hnode] at hlook
      exact absurd rfl (hlook .notExist)
    · rw [h.node _ _ hnode]

theorem Extends.steps {fs' : FileSystem} (h : Extends fs fs')
    {f g : Loc → List String → Except Errno Loc}
    (hfg : ∀ cur path loc, f cur path = .ok loc → g cur path = .ok loc) :
    ∀ {path : List String} {cur loc : Loc}, fs.steps false f cur path = .ok loc →
      fs'.steps false g cur path = .ok loc
  | [], _, _, hok => hok
  | name :: rest, cur, loc, hok => by
      rw [FileSystem.steps] at hok ⊢
      have hlook : ∀ e, fs.look false rest.isEmpty cur name ≠ .stop (.error e) := by
        intro e heq
        rw [heq] at hok
        cases hok
      rw [h.look hlook]
      rcases hlook' : fs.look false rest.isEmpty cur name with d | ⟨d, target⟩ | result
      · rw [hlook'] at hok
        exact h.steps hfg hok
      · rw [hlook'] at hok
        exact hfg _ _ _ hok
      · rw [hlook'] at hok
        exact hok

/-- **More nodes.** A path that leads somewhere leads there with more nodes. -/
theorem Extends.walk {fs' : FileSystem} (h : Extends fs fs') :
    ∀ {n : Nat} {cur loc : Loc} {path : List String}, fs.walk false n cur path = .ok loc →
      fs'.walk false n cur path = .ok loc
  | 0, _, _, _, hok => h.steps (fun _ _ _ h => by cases h) hok
  | _ + 1, _, _, _, hok => h.steps (fun _ _ _ => h.walk) hok

end Walk

/-! ### Changes, one location at a time -/

def Proper (name : String) : Prop := name ≠ "" ∧ name ≠ "." ∧ name ≠ ".."

theorem look_proper {fs : FileSystem} {name : String} (hname : Proper name) {cur : Loc}
    (hclosed : fs.closed cur = false) (create last : Bool) :
    fs.look create last cur name = found create last cur name (fs.node (cur ++ [name])) := by
  obtain ⟨h₁, h₂, h₃⟩ := hname
  simp [look, h₁, h₂, h₃, hclosed]

theorem addDir_node {fs : FileSystem} {parent : Loc} {name : String}
    (hparent : fs.node parent = some .dir) (hnone : fs.node (parent ++ [name]) = none) (loc : Loc) :
    (fs.addDir parent name).node loc =
      if loc = parent ++ [name] then some .dir else fs.node loc := by
  rw [addDir, dif_pos ⟨hparent, hnone⟩]

theorem extends_addDir (fs : FileSystem) (parent : Loc) (name : String) :
    Extends fs (fs.addDir parent name) := by
  unfold addDir
  split_ifs with h
  · refine ⟨fun loc x hx => ?_, rfl⟩
    have hne : loc ≠ parent ++ [name] := by
      rintro rfl
      rw [h.2] at hx
      cases hx
    exact (if_neg hne).trans hx
  · exact ⟨fun _ _ hx => hx, rfl⟩

theorem putFile_frame {fs : FileSystem} {loc l : Loc} {content : List UInt8} (hne : l ≠ loc) :
    (fs.putFile loc content).node l = fs.node l := by
  unfold putFile
  split_ifs
  · exact if_neg hne
  · rfl

theorem parentOf_concat (fs : FileSystem) (up : List String) (name : String) :
    fs.parentOf (up ++ [name]) =
      match fs.stat up with
      | .error e => .error e
      | .ok parent =>
          if fs.node parent ≠ some .dir then .error .notDir
          else if fs.closed parent then .error .access
          else .ok (parent, name) := by
  rw [parentOf, List.getLast?_concat, List.dropLast_concat]
  cases fs.stat up <;> rfl

theorem lstat_concat (fs : FileSystem) (up : List String) (name : String) :
    fs.lstat (up ++ [name]) =
      match fs.stat up with
      | .error e => .error e
      | .ok parent =>
          if fs.node parent ≠ some .dir then .error .notDir
          else if fs.closed parent then .error .access
          else if fs.node (parent ++ [name]) = none then .error .notExist
          else .ok (parent ++ [name]) := by
  rw [lstat, if_neg (by simp), parentOf_concat]
  cases fs.stat up with
  | error e => rfl
  | ok parent =>
      dsimp only
      split_ifs <;> simp_all [bind, Except.bind]

theorem write_frame {fs : FileSystem} {path : List String} {content : List UInt8} {l : Loc}
    (h : (fs.write path content).1.node l ≠ fs.node l) :
    fs.walk true maxLinks [] path = .ok l ∧ fs.node l ≠ some .dir := by
  unfold write at h
  rcases hloc : fs.walk true maxLinks [] path with e | loc
  · rw [hloc] at h
    exact absurd rfl h
  · rw [hloc] at h
    dsimp only at h
    have hput : ∀ {content}, (fs.putFile loc content).node l ≠ fs.node l → l = loc := by
      intro content hchanged
      by_contra hother
      exact hchanged (putFile_frame hother)
    split_ifs at h with hdir
    · exact absurd rfl h
    · exact absurd rfl h
    · exact absurd rfl h
    · obtain rfl := hput h
      exact ⟨rfl, hdir⟩
    · obtain rfl := hput h
      exact ⟨rfl, hdir⟩

end FileSystem

end EvidraBench.Lib
