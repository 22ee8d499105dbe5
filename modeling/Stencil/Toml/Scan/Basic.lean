/-!
# Readers

Reading the parts of a TOML document. A reader gives what it has read and the characters behind
it, or nothing if the document is malformed. Here are the characters, blanks and comments.
-/

namespace Stencil.Toml

/-- What a reader of `α` gives. -/
abbrev Read (α : Type) := Option (α × List Char)

/-! ## Characters -/

/-- White space inside a line. -/
def isSpace (c : Char) : Bool :=
  c == ' ' || c == '\t'

/-- White space, line feeds included. -/
def isFill (c : Char) : Bool :=
  isSpace c || c == '\n'

/-- A control character that may not stand in the text of a line. -/
def isIllegal (c : Char) : Bool :=
  (c.toNat < 0x20 && c != '\t') || c == '\x7f'

/-- A control character that may not stand in a text of many lines. -/
def isIllegalInBlock (c : Char) : Bool :=
  isIllegal c && c != '\n'

/-- A character of a key without quotes. -/
def isBareKeyChar (c : Char) : Bool :=
  c.isAlphanum || c == '-' || c == '_'

/-- A hexadecimal digit. -/
def isHexDigit (c : Char) : Bool :=
  c.isDigit || ('a' ≤ c && c ≤ 'f') || ('A' ≤ c && c ≤ 'F')

/-- The value of a digit, up to that of a hexadecimal one. -/
def digitValue (c : Char) : Nat :=
  if c.isDigit then c.toNat - '0'.toNat
  else if 'a' ≤ c then c.toNat - 'a'.toNat + 10
  else c.toNat - 'A'.toNat + 10

/-- The number that digits denote in a base. -/
def ofDigits (base : Nat) (ds : List Char) : Nat :=
  ds.foldl (fun n d => n * base + digitValue d) 0

/-! ## Blanks and comments -/

/-- Skips white space in a line. -/
def skipSpace (cs : List Char) : List Char :=
  cs.dropWhile isSpace

/-- Skips a comment up to the end of its line, if there is one. -/
def skipComment (cs : List Char) : Option (List Char) :=
  match cs with
  | '#' :: rest =>
    if (rest.takeWhile (· != '\n')).any isIllegal then none
    else some (rest.dropWhile (· != '\n'))
  | cs => some cs

/-- Skips white space, empty lines and comments. -/
def skipFill (inComment : Bool) : List Char → Option (List Char)
  | [] => some []
  | c :: cs =>
    if inComment then
      if c = '\n' then skipFill false cs
      else if isIllegal c then none
      else skipFill true cs
    else if isFill c then skipFill false cs
    else if c = '#' then skipFill true cs
    else some (c :: cs)

end Stencil.Toml
