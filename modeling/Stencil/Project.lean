import Stencil.Config

/-!
# Projects

Projects: a directory tree with a configuration file at its top, and the templates in it.
-/

namespace Stencil.Project

variable {m : Type → Type} [Monad m]

/-- The error text when there is no configuration file. -/
def notFoundMessage : String :=
  "No " ++ Config.fileName ++ " found in any parent directory"

/-- The configuration file nearest to a path: beside it or in it, or in a directory around
it. -/
def findConfig (fs : FileSystem m) (start : Path) : m (Option Path) := do
  let path := fs.workingDirectory.resolve start
  let directory := if (← fs.kind path.toText) = some .file then path.parent else path
  (directory.ancestors.map (·.below [Config.fileName])).findM? fun candidate => do
    return (← fs.kind candidate.toText).isSome

/-- Reads a configuration file. -/
def loadConfig (fs : FileSystem m) (path : String) : m (Except Config.Failure Config) := do
  match ← fs.open path with
  | .error e => return .error (.unopened e)
  | .ok bytes => return Config.ofBytes bytes

/-- The name of a file, given by its components, ends in one of the suffixes. -/
def hasSuffix (suffixes : List Toml) (parts : List String) : Bool :=
  let suffix := Path.suffixOf (parts.getLast?.getD "")
  suffixes.any fun
    | .string s => s == suffix
    | _ => false

/-- Files in the order of their components. -/
def sortFiles (files : List (List String)) : List (List String) :=
  files.mergeSort fun a b => !decide (b < a)

/-- The templates below a directory, in order. -/
def templates (fs : FileSystem m) (suffixes : List Toml) (directory : Path) :
    m (List Path) := do
  let files ← fs.filesBelow directory.toText
  return (sortFiles (files.filter (hasSuffix suffixes))).map directory.below

end Stencil.Project
