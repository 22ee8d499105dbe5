import Stencil.Text.Printable

/-!
# Quoted texts

Texts between quotes, with escapes for what has no visible form. Displays show a text as a JSON
string, where quotes, backslashes and the controls below U+0020 are escaped and every other
character stands for itself. Dumps and error messages show it as a literal. Its closing quote is
the first quote of the chosen kind that no backslash precedes, and no line break survives the
quoting, so a literal always ends where it seems to end.
-/

namespace Stencil.Text

/-! ## Hexadecimal numerals -/

/-- The hexadecimal digit of a value below sixteen. -/
def hexDigit (n : Nat) : Char :=
  if n < 10 then Char.ofNat (0x30 + n) else Char.ofNat (0x57 + n)

/-- The last `width` hexadecimal digits of `n`. -/
def hexNumeral : (width : Nat) → (n : Nat) → List Char
  | 0, _ => []
  | width + 1, n => hexNumeral width (n / 16) ++ [hexDigit (n % 16)]

theorem length_hexNumeral (width n : Nat) : (hexNumeral width n).length = width := by
  induction width generalizing n with
  | zero => rfl
  | succ width ih => simp [hexNumeral, ih]

/-! ## JSON strings -/

namespace JsonString

/-- One character inside a JSON string. -/
def escape (c : Char) : List Char :=
  if c = '"' then ['\\', '"']
  else if c = '\\' then ['\\', '\\']
  else if c = '\n' then ['\\', 'n']
  else if c = '\r' then ['\\', 'r']
  else if c = '\t' then ['\\', 't']
  else if c = '\x0c' then ['\\', 'f']
  else if c = '\x08' then ['\\', 'b']
  else if c.toNat < 0x20 then '\\' :: 'u' :: hexNumeral 4 c.toNat
  else [c]

/-- The characters of the JSON string for `cs`. -/
def encode (cs : List Char) : List Char :=
  '"' :: (cs.flatMap escape ++ ['"'])

/-- A text as a JSON string. -/
def quote (s : String) : String :=
  String.ofList (encode s.toList)

end JsonString

/-! ## Literals -/

namespace Literal

/-- A single quote, unless the text holds single quotes and no double quote. -/
def quoteMark (cs : List Char) : Char :=
  if cs.contains '\'' && !cs.contains '"' then '"' else '\''

/-- One character inside a literal that is delimited by `mark`. -/
def escape (mark c : Char) : List Char :=
  if c = mark ∨ c = '\\' then ['\\', c]
  else if c = '\t' then ['\\', 't']
  else if c = '\n' then ['\\', 'n']
  else if c = '\r' then ['\\', 'r']
  else if isPrintable c then [c]
  else if c.toNat < 0x100 then '\\' :: 'x' :: hexNumeral 2 c.toNat
  else if c.toNat < 0x10000 then '\\' :: 'u' :: hexNumeral 4 c.toNat
  else '\\' :: 'U' :: hexNumeral 8 c.toNat

/-- The characters of the literal for `cs`. -/
def encode (cs : List Char) : List Char :=
  let mark := quoteMark cs
  mark :: (cs.flatMap (escape mark) ++ [mark])

/-- A text as a quoted literal. -/
def quote (s : String) : String :=
  String.ofList (encode s.toList)

/-- A parenthesised group of literals; a group of one keeps a trailing comma. -/
def group : List String → String
  | [] => "()"
  | [s] => "(" ++ quote s ++ ",)"
  | ss => "(" ++ ", ".intercalate (ss.map quote) ++ ")"

end Literal

end Stencil.Text
