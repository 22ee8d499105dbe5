import Stencil.Path
import Stencil.Text.Literal

/-!
# File systems

File systems, as far as the command line looks at them: what is at a path, what is in a file,
and which files are below a directory. `FileTree` is a file system as a value.
-/

namespace Stencil

/-- What can be at a path. -/
inductive FileKind where
  | file
  | directory
  deriving Repr, DecidableEq

/-- Access to files. Paths are given as they are written, and seen from the working
directory. -/
structure FileSystem (m : Type → Type) where
  workingDirectory : Path
  kind : String → m (Option FileKind)
  /-- The bytes of a file. -/
  read : String → m (List UInt8)
  /-- All files below a directory, at any depth, as the components that lead to them. -/
  filesBelow : String → m (List (List String))

/-- Why a file cannot be opened. -/
inductive OpenFailure where
  | missing (path : String)
  | isDirectory (path : String)
  deriving Repr, DecidableEq

/-- The wording of a failure to open a file. -/
def OpenFailure.message : OpenFailure → String
  | missing path => "[Errno 2] No such file or directory: " ++ Text.Literal.quote path
  | isDirectory path => "[Errno 21] Is a directory: " ++ Text.Literal.quote path

/-- The bytes of the file at a path. -/
def FileSystem.open {m : Type → Type} [Monad m] (fs : FileSystem m) (path : String) :
    m (Except OpenFailure (List UInt8)) := do
  match ← fs.kind path with
  | some .file => return .ok (← fs.read path)
  | some .directory => return .error (.isDirectory path)
  | none => return .error (.missing path)

/-- Some files and directories, each at the components that lead to it from the top.
Directories on the way to them need not be listed. -/
structure FileTree where
  workingDirectory : List String
  files : List (List String × List UInt8)
  directories : List (List String)

namespace FileTree

/-- What is at some components. -/
def kindAt (t : FileTree) (parts : List String) : Option FileKind :=
  if (t.files.lookup parts).isSome then some .file
  else if parts.isEmpty || t.directories.any parts.isPrefixOf ||
      t.files.any fun f => parts.isPrefixOf f.1 then
    some .directory
  else none

/-- Follows the components of a written path from a place (innermost component first). Only a
directory has anything below or above it. -/
def follow (t : FileTree) : (place : List String) → (written : List String) →
    Option (List String)
  | place, [] => some place
  | place, part :: written =>
    if t.kindAt place.reverse = some .directory then
      if part = "" ∨ part = "." then follow t place written
      else if part = ".." then follow t place.tail written
      else if (t.kindAt (part :: place).reverse).isSome then follow t (part :: place) written
      else none
    else none

/-- The components that a written path leads to, if anything is there. -/
def locate (t : FileTree) (path : String) : Option (List String) :=
  if path = "" then none
  else
    let start := if (Path.ofString path).anchor = "" then t.workingDirectory.reverse else []
    (t.follow start (path.splitOn "/")).map (·.reverse)

/-- The file system of a tree. -/
def fileSystem (t : FileTree) : FileSystem Id where
  workingDirectory := ⟨"/", t.workingDirectory⟩
  kind path := (t.locate path).bind t.kindAt
  read path := ((t.locate path).bind fun place => t.files.lookup place).getD []
  filesBelow path :=
    match t.locate path with
    | none => []
    | some place =>
      t.files.filterMap fun f =>
        if place.isPrefixOf f.1 && f.1 != place then some (f.1.drop place.length) else none

end FileTree

end Stencil
