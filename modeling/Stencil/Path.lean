/-!
# File paths

File paths as sequences of components. A path is written without empty components and without
the component that means "here"; the component that means "up" stays, because what it leads to
is for the file system to say. `Path.resolve` removes it by the letter.
-/

namespace Stencil

/-- A path. -/
structure Path where
  /-- What stands before the components: nothing in a relative path, else one or two
  slashes. -/
  anchor : String := ""
  parts : List String
  deriving Repr, DecidableEq

namespace Path

/-- The slashes that a path keeps of those it starts with. Two are not the same as one; more
are. -/
def anchorOf : List Char → String
  | ['/', '/'] => "//"
  | '/' :: '/' :: c :: _ => if c = '/' then "/" else "//"
  | '/' :: _ => "/"
  | _ => ""

/-- The path that a text writes. -/
def ofString (s : String) : Path :=
  ⟨anchorOf s.toList, (s.splitOn "/").filter fun part => part != "" && part != "."⟩

/-- A path as a text. -/
def toText (p : Path) : String :=
  if p.anchor = "" ∧ p.parts = [] then "." else p.anchor ++ "/".intercalate p.parts

/-- The path without its last component. -/
def parent (p : Path) : Path :=
  { p with parts := p.parts.dropLast }

/-- A path seen from another one. -/
def join (p q : Path) : Path :=
  if q.anchor = "" then { p with parts := p.parts ++ q.parts } else q

/-- A path below another one. -/
def below (p : Path) (parts : List String) : Path :=
  { p with parts := p.parts ++ parts }

/-- The path itself and all directories around it, from the inside out. -/
def ancestors (p : Path) : List Path :=
  (List.range (p.parts.length + 1)).map fun n =>
    { p with parts := p.parts.take (p.parts.length - n) }

/-- The path seen from a directory, with every step up taken by the letter. There is no step up
from the top. -/
def resolve (directory p : Path) : Path :=
  let q := directory.join p
  { q with
    parts := (q.parts.foldl (fun done part => if part = ".." then done.tail else part :: done)
      []).reverse }

/-- The part of a name from its last dot on, unless the dot is its first or last character. -/
def suffixOf (name : String) : String :=
  let cs := name.toList
  let tail := cs.reverse.takeWhile (· != '.')
  if tail.length + 1 < cs.length ∧ tail ≠ [] then String.ofList ('.' :: tail.reverse) else ""

end Path

end Stencil
