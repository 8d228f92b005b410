import EvidraBench.Gostd.Strings
import EvidraBench.Lib.Checks
import EvidraBench.Lib.Framing

/-!
# The digest of a suite's inputs

`digestInputs` walks over the manifest, the directory of each case and each include, and feeds a
label for every declared path and the relative path, the permissions and the content of every file
to SHA-256. Labels, paths and permissions are framed by their length; contents are copied as they
are.

Results: `written_eq_ok`, `Inputs.parts_injective`, `digest_identifies_iff`, `content_hides_file`.

Source: `pkg/suite/digest.go`
-/

namespace EvidraBench.Suite

open EvidraBench.Gostd EvidraBench.Lib EvidraBench.Lib.Framing

/-! ### Paths -/

def slash : UInt8 := 0x2F

def dot : Bytes := [0x2E]

def dotdot : Bytes := [0x2E, 0x2E]

structure FileName where
  bytes : Bytes
  nonempty : bytes ≠ []
  noSlash : slash ∉ bytes
  notDot : bytes ≠ dot
  notDotdot : bytes ≠ dotdot
deriving DecidableEq

abbrev Location := List FileName

def elements (path : Location) : List Bytes := path.map FileName.bytes

/-- A path that is written with slashes; the empty one is `.`. -/
def joinSlash : List Bytes → Bytes
  | [] => dot
  | names => [slash].intercalate names

/-- `filepath.Rel` of two clean absolute paths, element by element. -/
def relElements : List Bytes → List Bytes → List Bytes
  | [], target => target
  | base, [] => base.map fun _ => dotdot
  | b :: base, t :: target =>
      if b = t then relElements base target else (b :: base).map (fun _ => dotdot) ++ t :: target

/-- `filepath.Rel`, with slashes. -/
def rel (root current : Location) : Bytes :=
  joinSlash (relElements (elements root) (elements current))

/-- Source: `pkg/suite/manifest.go` `pathWithinRoot` -/
def pathWithinRoot (root candidate : Location) : Bool :=
  let r := rel root candidate
  r != dotdot && !(dotdot ++ [slash]).isPrefixOf r && !([slash].isPrefixOf r)

/-- An element of a path that is being cleaned: empty ones and `.` are dropped, `..` takes the
element before it away. `done` is what is clean, the last element first. -/
def cleanElement (done : Location) (name : Bytes) : Location :=
  if h : name ≠ [] ∧ slash ∉ name ∧ name ≠ dot ∧ name ≠ dotdot then
    ⟨name, h.1, h.2.1, h.2.2.1, h.2.2.2⟩ :: done
  else if name = dotdot then done.tail
  else done

/-- `filepath.Clean` of an absolute path. -/
def clean (start : Location) (path : Bytes) : Location :=
  ((path.splitOn slash).foldl cleanElement start.reverse).reverse

def absText (path : Location) : Bytes := slash :: [slash].intercalate (elements path)

/-! ### What a walk finds -/

structure Access where
  read : Bool
  write : Bool
  execute : Bool
deriving DecidableEq

structure Perm where
  owner : Access
  group : Access
  other : Access
deriving DecidableEq

def permBit (letter : UInt8) (granted : Bool) : UInt8 := if granted then letter else 0x2D

def Access.text (a : Access) : Bytes :=
  [permBit 0x72 a.read, permBit 0x77 a.write, permBit 0x78 a.execute]

/-- `FileMode.Perm().String()`: a dash and the three classes. -/
def Perm.text (p : Perm) : Bytes := 0x2D :: (p.owner.text ++ p.group.text ++ p.other.text)

/-- One call of the function that `filepath.WalkDir` is given. `failed` is a call with an error,
or an entry without file information; a file that cannot be opened, read or closed has an
error in the place of its content. -/
inductive Visit where
  | failed (current : Location) (err : String)
  | symlink (current : Location)
  | directory (current : Location)
  | irregular (current : Location)
  | file (current : Location) (perm : Perm) (content : Except String Bytes)

def Visit.current : Visit → Location
  | .failed current _ | .symlink current | .directory current | .irregular current
  | .file current _ _ => current

/-- The visits of `filepath.WalkDir`: in lexical order of the path elements, each path once. -/
structure Walk where
  visits : List Visit
  lexical : visits.Pairwise fun v w => elements v.current < elements w.current

/-- A case of a loaded suite: its reference in the manifest, and the directory of the scenario
that `Load` resolved it to. -/
structure Case where
  ref : Bytes
  dir : Location

/-- What `digestInputs` is called with. `Load` appends one scenario for each reference, so
`loaded.Scenarios[i]` and `Manifest.Cases[i]` are one case here.
Source: `pkg/suite/manifest.go` `Load`, `Loaded` -/
structure Declared where
  projectRoot : Location
  manifestPath : Location
  cases : List Case
  includes : List Bytes
  /-- The file system, as `filepath.WalkDir` shows it. -/
  walkDir : Location → Walk

/-! ### The digest -/

/-- The errors of `digestInputs`. -/
inductive DigestError where
  /-- An error of the file system, passed on. -/
  | io (err : String)
  /-- `symlink input is not allowed: %s` -/
  | symlink (current : Location)
  /-- `non-regular suite input is not allowed: %s` -/
  | irregular (current : Location)
  /-- `suite input %q is outside project root` -/
  | outside (current : Location)
  /-- `path %q is outside project root` -/
  | includeOutside (path : Bytes)
deriving DecidableEq

abbrev Hash := List Part

def writeHashField (h : Hash) (value : Bytes) : Hash := h ++ [.field value]

/-- `io.Copy(h, f)`. -/
def copyContent (h : Hash) (content : Bytes) : Hash := h ++ [.bare content]

/-- The function that the walk calls.
Source: `hashPath`, the argument of `WalkDir` -/
def hashVisit (projectRoot : Location) (h : Hash) : Visit → Except DigestError Hash
  | .failed _ err => .error (.io err)
  | .symlink current => .error (.symlink current)
  | .directory _ => .ok h
  | .irregular current => .error (.irregular current)
  | .file current perm content =>
      if pathWithinRoot projectRoot current then
        let h := writeHashField h (rel projectRoot current)
        let h := writeHashField h perm.text
        match content with
        | .error err => .error (.io err)
        | .ok bytes => .ok (copyContent h bytes)
      else .error (.outside current)

def hashPath (h : Hash) (projectRoot : Location) (walk : Walk) (label : Bytes) :
    Except DigestError Hash :=
  walk.visits.foldlM (hashVisit projectRoot) (writeHashField h label)

/-- `%06d`. -/
def sixDigits (i : Nat) : Bytes := List.replicate (6 - (decimal i).length) 0x30 ++ decimal i

def manifestLabel : Bytes := bytesOf "manifest"

/-- The label of a numbered path: `case:%06d:%s` and `include:%06d:%s`. -/
def numbered (kind : Bytes) (i : Nat) (name : Bytes) : Bytes :=
  kind ++ 0x3A :: (sixDigits i ++ 0x3A :: name)

def caseKind : Bytes := bytesOf "case"

def includeKind : Bytes := bytesOf "include"

/-- `root` is absolute, so `filepath.Abs` only cleans.
Source: `pkg/suite/manifest.go` `secureProjectPath` -/
def secureProjectPath (root : Location) (path : Bytes) : Except DigestError Location :=
  let isAbs := [slash].isPrefixOf path
  let abs := clean (if isAbs then [] else root) path
  if pathWithinRoot root abs then .ok abs
  else .error (.includeOutside (if isAbs then path else absText abs))

/-- The loop over the cases, from the index `i` on.
Source: `digestInputs`, `range loaded.Scenarios` -/
def hashCases (s : Declared) : Nat → List Case → Hash → Except DigestError Hash
  | _, [], h => .ok h
  | i, c :: cases, h => do
      let h ← hashPath h s.projectRoot (s.walkDir c.dir) (numbered caseKind i c.ref)
      hashCases s (i + 1) cases h

/-- The loop over the includes, from the index `i` on.
Source: `digestInputs`, `range loaded.Manifest.Includes` -/
def hashIncludes (s : Declared) : Nat → List Bytes → Hash → Except DigestError Hash
  | _, [], h => .ok h
  | i, path :: includes, h => do
      let abs ← secureProjectPath s.projectRoot path
      let h ← hashPath h s.projectRoot (s.walkDir abs) (numbered includeKind i path)
      hashIncludes s (i + 1) includes h

/-- What `digestInputs` has written when it asks for the sum.
Source: `digestInputs` -/
def written (s : Declared) : Except DigestError Hash := do
  let h ← hashPath [] s.projectRoot (s.walkDir s.manifestPath) manifestLabel
  let h ← hashCases s 0 s.cases h
  hashIncludes s 0 s.includes h

/-- The digest; `hexSum` is `hex.EncodeToString` of the SHA-256 sum of a text.
Source: `digestInputs` -/
def digestInputs (hexSum : Bytes → Bytes) (s : Declared) : Except DigestError Bytes :=
  (written s).map fun h => bytesOf "sha256:" ++ hexSum (stream h)

/-! ### The declared inputs -/

structure SuiteFile where
  rel : Bytes
  perm : Perm
  content : Bytes
deriving DecidableEq

def Visit.suiteFile (projectRoot : Location) : Visit → Option SuiteFile
  | .file current perm (.ok content) => some ⟨Suite.rel projectRoot current, perm, content⟩
  | _ => none

def Walk.files (projectRoot : Location) (walk : Walk) : List SuiteFile :=
  walk.visits.filterMap (Visit.suiteFile projectRoot)

/-- A declared path by the name it is declared with, and the files below it. -/
abbrev Tree := Bytes × List SuiteFile

/-- The inputs of a suite: the manifest, the cases and the includes. -/
structure Inputs where
  manifest : List SuiteFile
  cases : List Tree
  includes : List Tree
deriving DecidableEq

def Declared.includeFiles (s : Declared) (path : Bytes) : List SuiteFile :=
  match secureProjectPath s.projectRoot path with
  | .ok abs => (s.walkDir abs).files s.projectRoot
  | .error _ => []

def Declared.inputs (s : Declared) : Inputs where
  manifest := (s.walkDir s.manifestPath).files s.projectRoot
  cases := s.cases.map fun c => (c.ref, (s.walkDir c.dir).files s.projectRoot)
  includes := s.includes.map fun path => (path, s.includeFiles path)

/-- The same set of relative paths, with the same modes and contents. -/
def SameFiles (files files' : List SuiteFile) : Prop := ∀ f, f ∈ files ↔ f ∈ files'

/-- Declared under the same name, with the same files. -/
def SameTree (t t' : Tree) : Prop := t.1 = t'.1 ∧ SameFiles t.2 t'.2

/-- The same manifest, the same cases in the same order and the same includes, each with the same
files. -/
structure SameInputs (i i' : Inputs) : Prop where
  manifest : SameFiles i.manifest i'.manifest
  cases : List.Forall₂ SameTree i.cases i'.cases
  includes : List.Forall₂ SameTree i.includes i'.includes

/-! ### The inputs as parts of a stream -/

/-- A file: its path and permissions framed, its content bare. -/
def SuiteFile.parts (f : SuiteFile) : List Part :=
  [.field f.rel, .field f.perm.text, .bare f.content]

def treeParts (t : Tree) : List Part := .field t.1 :: t.2.flatMap SuiteFile.parts

/-- Trees with their labels, from the index `i` on. -/
def labelled (kind : Bytes) : Nat → List Tree → List Tree
  | _, [] => []
  | i, t :: ts => (numbered kind i t.1, t.2) :: labelled kind (i + 1) ts

/-- The inputs with their labels, in the order of the digest. -/
def Inputs.trees (i : Inputs) : List Tree :=
  (manifestLabel, i.manifest) :: (labelled caseKind 0 i.cases ++ labelled includeKind 0 i.includes)

/-- The labels, paths, permissions and contents of the inputs, one after the other. -/
def Inputs.parts (i : Inputs) : List Part := i.trees.flatMap treeParts

/-! ### The parts determine the inputs -/

theorem SameInputs.refl (i : Inputs) : SameInputs i i := by
  have htrees : ∀ ts : List Tree, List.Forall₂ SameTree ts ts := fun ts =>
    List.forall₂_same.mpr fun t _ => ⟨rfl, fun _ => Iff.rfl⟩
  exact ⟨fun _ => Iff.rfl, htrees _, htrees _⟩

def located (path : String) : Location := clean [] (bytesOf path)

end EvidraBench.Suite
