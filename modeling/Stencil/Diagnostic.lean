import Stencil.Text.Literal

/-!
# Diagnostics

Diagnostics: what is wrong, how bad it is and where, and the text that tells a reader, in plain
form or with terminal colors.
-/

namespace Stencil

/-- How bad a finding is. -/
inductive Severity where
  | error
  | warning
  | note
  deriving Repr, DecidableEq

namespace Severity

/-- The word for a severity. -/
def label : Severity → String
  | error => "error"
  | warning => "warning"
  | note => "note"

/-- The severity that a word names, or what is wrong with the word. -/
def ofLabel (s : String) : Except String Severity :=
  match [error, warning, note].find? (·.label == s) with
  | some severity => .ok severity
  | none => .error (Text.Literal.quote s ++ " is not a valid Severity")

/-- The terminal color of a severity: bold red, yellow or cyan. -/
def color : Severity → String
  | error => "\x1b[1;31m"
  | warning => "\x1b[1;33m"
  | note => "\x1b[1;36m"

end Severity

/-- A finding, with remarks and, if it is known, the file that it is about. -/
structure Diagnostic where
  severity : Severity
  code : String
  message : String
  notes : List String := []
  file : Option String := none
  deriving Repr, DecidableEq

namespace Diagnostic

/-- A terminal control sequence, or nothing in plain text. -/
def control (colored : Bool) (sequence : String) : String :=
  if colored then sequence else ""

/-- The lines of a diagnostic: the finding, its file, and a line for each remark. -/
def lines (colored : Bool) (d : Diagnostic) : List String :=
  let reset := control colored "\x1b[0m"
  let bold := control colored "\x1b[1m"
  let blue := control colored "\x1b[1;34m"
  (control colored d.severity.color ++ d.severity.label ++ "[" ++ d.code ++ "]" ++ reset ++
      bold ++ ": " ++ d.message ++ reset) ::
    (d.file.toList.map fun file => "  " ++ blue ++ "-->" ++ reset ++ " " ++ file) ++
    d.notes.map fun note => "  " ++ blue ++ "=" ++ reset ++ " note: " ++ note

/-- The text of a diagnostic. -/
def render (colored : Bool) (d : Diagnostic) : String :=
  "\n".intercalate (d.lines colored)

end Diagnostic

end Stencil
