import Stencil.Toml.Scan.Value

/-!
# TOML documents

Whole TOML documents. A document is a sequence of lines; each opens a table, adds a table to an
array of tables, or assigns a value to a key of the table that is open. What has been defined
once cannot be defined again: `Draft` keeps account of it.
-/

namespace Stencil.Toml

/-- A document as far as it has been read. -/
structure Draft where
  table : Table := []
  /-- The key of the table that is open; no key is the document itself. -/
  header : List String := []
  /-- Tables that no line may open any more. -/
  defined : List (List String) := []
  /-- Values that are complete, with everything in them. -/
  sealedKeys : List (List String) := []
  /-- Tables that dotted keys have made, which count as defined as soon as another table is
  opened. -/
  pending : List (List String) := []

namespace Draft

/-- Ends the open table. -/
def settle (d : Draft) : Draft :=
  { d with defined := d.pending ++ d.defined, pending := [] }

/-- Opens a table. -/
def openTable (key : List String) (d : Draft) : Option Draft :=
  if d.defined.contains key || isSealed d.sealedKeys key then none
  else
    (d.table.modifyAt true some key).map fun table =>
      { d with table, header := key, defined := key :: d.defined }

/-- Adds a table to an array of tables and opens it. What was defined in the table before does
not count for the new one. -/
def openItem (key : List String) (d : Draft) : Option Draft :=
  match isSealed d.sealedKeys key, key.getLast? with
  | false, some last =>
    let below := fun other => key.isPrefixOf other
    (d.table.modifyAt true (Table.grow last) key.dropLast).map fun table =>
      { d with
        table, header := key
        defined := key :: d.defined.filter (!below ·)
        sealedKeys := d.sealedKeys.filter (!below ·) }
  | _, _ => none

/-- Assigns a value to a key of the open table. A dotted key makes tables, and does not reach
into tables that are defined. -/
def assign (key : List String) (v : Toml) (d : Draft) : Option Draft :=
  let made := (List.range (key.length - 1)).map fun i => d.header ++ key.take (i + 1)
  if made.any d.defined.contains || isSealed d.sealedKeys (d.header ++ key.dropLast) then none
  else
    (d.table.addAt true (d.header ++ key) v).map fun table =>
      { d with
        table
        pending := made ++ d.pending
        sealedKeys := if isCompound v then (d.header ++ key) :: d.sealedKeys else d.sealedKeys }

end Draft

/-- Reads a line that opens a table, behind its first bracket. -/
def headerLine (d : Draft) : List Char → Read Draft
  | '[' :: cs =>
    match key (skipSpace cs) with
    | some (k, ']' :: ']' :: cs) => (d.settle.openItem k).map (·, cs)
    | _ => none
  | cs =>
    match key (skipSpace cs) with
    | some (k, ']' :: cs) => (d.settle.openTable k).map (·, cs)
    | _ => none

/-- Reads what a line says, up to the blanks at its end. -/
def line (d : Draft) : List Char → Read Draft
  | [] => some (d, [])
  | '\n' :: cs => some (d, '\n' :: cs)
  | '#' :: cs => some (d, '#' :: cs)
  | '[' :: cs => headerLine d cs
  | cs =>
    match assignment cs with
    | none => none
    | some ((k, v), cs) => (d.assign k v).map (·, cs)

/-- Reads the lines of a document. -/
def lines : (bound : Nat) → Draft → List Char → Option Table
  | 0, _, _ => none
  | bound + 1, d, cs =>
    match line d (skipSpace cs) with
    | none => none
    | some (d, cs) =>
      match skipComment (skipSpace cs) with
      | some [] => some d.table
      | some ('\n' :: cs) => lines bound d cs
      | _ => none

/-- A carriage return with its line feed counts as a line feed. -/
def joinLineEnds : List Char → List Char
  | '\r' :: '\n' :: cs => '\n' :: joinLineEnds cs
  | c :: cs => c :: joinLineEnds cs
  | [] => []

/-- The table that a document describes, if it is well formed. -/
def parse (cs : List Char) : Option Table :=
  let cs := joinLineEnds cs
  lines (cs.length + 1) {} cs

end Stencil.Toml
