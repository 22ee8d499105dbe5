/-!
# Lines and newlines

Lines of a text, by every character that ends a line: line feed, vertical tab, form feed,
carriage return, the separators U+001C to U+001E, next line, and the line and paragraph
separators. A carriage return and the line feed behind it end one line.

Where a text is read with universal newlines, a carriage return and a carriage return with its
line feed are both read as one line feed. A carriage return at the end of a piece of text is held
back, because the next piece may start with its line feed.
-/

namespace Stencil.Text

/-- A character that ends a line. -/
def isLineEnd (c : Char) : Bool :=
  c ∈ ['\n', '\x0b', '\x0c', '\r', '\x1c', '\x1d', '\x1e', '\u0085', '\u2028', '\u2029']

/-- The lines of a text with their ends; `begun` holds the characters of the line at hand, the
latest first. -/
def linesFrom (begun : List Char) : List Char → List (List Char)
  | [] => if begun.isEmpty then [] else [begun.reverse]
  | '\r' :: '\n' :: cs => ('\n' :: '\r' :: begun).reverse :: linesFrom [] cs
  | c :: cs =>
    if isLineEnd c then (c :: begun).reverse :: linesFrom [] cs
    else linesFrom (c :: begun) cs

/-- The lines of a text, each with the characters that end it. -/
def lines (cs : List Char) : List (List Char) :=
  linesFrom [] cs

/-! ## Universal newlines -/

namespace Newline

/-- Reads a piece of text; `held` says that a carriage return waits in front of it. Gives the
characters read (on top of `done`, latest first) and whether one waits behind it. -/
def readOnto (done : List Char) (held : Bool) : List Char → List Char × Bool
  | [] => (done, held)
  | '\r' :: cs => readOnto (if held then '\n' :: done else done) true cs
  | '\n' :: cs => readOnto ('\n' :: done) false cs
  | c :: cs => readOnto (c :: if held then '\n' :: done else done) false cs

/-- The characters of a piece of text and whether a carriage return waits behind it. -/
def readPiece (held : Bool) (cs : List Char) : List Char × Bool :=
  let (done, held) := readOnto [] held cs
  (done.reverse, held)

/-- What a waiting carriage return is read as when nothing follows it. -/
def readEnd (held : Bool) : List Char :=
  if held then ['\n'] else []

/-- Reads a whole text. -/
def readAll (cs : List Char) : List Char :=
  let (done, held) := readPiece false cs
  done ++ readEnd held

end Newline

end Stencil.Text
