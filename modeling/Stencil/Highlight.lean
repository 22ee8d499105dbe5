import Stencil.Text.CharClass
import Stencil.Text.Line
import Stencil.Text.WordChar

/-!
# Highlighting

Highlighting a template for a terminal. The text is split into pieces by rules that depend only
on whether the place is inside a tag; at each place the first rule that matches decides. The
rules leave no gap (every place is matched by one of them), so malformed templates are
highlighted as far as they go.
-/

namespace Stencil.Highlight

open Text

/-- What a piece of a template is. -/
inductive Style where
  | text
  | punctuation
  | keyword
  | blank
  | name
  | error
  deriving Repr, DecidableEq

namespace Style

/-- The name of a style in listings of pieces. -/
def label : Style → String
  | text => "Token.Text"
  | punctuation => "Token.Punctuation"
  | keyword => "Token.Keyword"
  | blank => "Token.Text.Whitespace"
  | name => "Token.Name.Variable"
  | error => "Token.Error"

/-- The control sequence that turns the color of a style on, if it has one. -/
def color? : Style → Option String
  | text | punctuation => none
  | keyword => some "\x1b[34m"
  | blank => some "\x1b[37m"
  | name => some "\x1b[31m"
  | error => some "\x1b[04m\x1b[91m"

end Style

/-- The part of a template that a place is in. -/
inductive Region where
  | outside
  | tag
  deriving Repr, DecidableEq

/-- A rule: how many characters it matches at a place, given the character before and the
characters from there on; what they are; and where the next place is. -/
structure Rule where
  matchLength : (before : Option Char) → List Char → Option Nat
  style : Style
  leadsTo : Region

/-- The length of the longest run of characters with a property; a run is not empty. -/
def runLength (p : Char → Bool) (cs : List Char) : Option Nat :=
  match (cs.takeWhile p).length with
  | 0 => none
  | n + 1 => some (n + 1)

/-- One character. -/
def oneLength (c : Char) (cs : List Char) : Option Nat :=
  if cs.head? = some c then some 1 else none

/-- Two equal characters. -/
def pairLength (c : Char) (cs : List Char) : Option Nat :=
  if [c, c].isPrefixOf cs then some 2 else none

/-- The words with a meaning of their own. -/
def keywords : List String := ["if", "else", "end", "for"]

/-- A keyword that is a whole word. -/
def keywordLength (before : Option Char) (cs : List Char) : Option Nat :=
  let word := cs.takeWhile isWordChar
  if !before.any isWordChar && keywords.contains (String.ofList word) then some word.length
  else none

/-- A word that does not start with a decimal digit. -/
def nameLength (cs : List Char) : Option Nat :=
  if cs.head?.any fun c => isWordChar c && !isDecimalDigit c then runLength isWordChar cs
  else none

/-- One character that is no line feed. -/
def anyLength : List Char → Option Nat
  | c :: _ => if c = '\n' then none else some 1
  | [] => none

/-- The rules of a region, in the order in which they are tried. -/
def rules : Region → List Rule
  | .outside => [
      ⟨fun _ => pairLength '{', .punctuation, .tag⟩,
      ⟨fun _ => runLength (· != '{'), .text, .outside⟩,
      ⟨fun _ => oneLength '{', .text, .outside⟩]
  | .tag => [
      ⟨fun _ => pairLength '}', .punctuation, .outside⟩,
      ⟨fun _ => runLength isBlank, .blank, .tag⟩,
      ⟨keywordLength, .keyword, .tag⟩,
      ⟨fun _ => nameLength, .name, .tag⟩,
      ⟨fun _ => anyLength, .error, .tag⟩]

/-- A match of a rule at some place. -/
structure Match where
  length : Nat
  style : Style
  leadsTo : Region
  deriving Repr, DecidableEq

/-- The match of the first rule that matches. -/
def firstMatch (region : Region) (before : Option Char) (cs : List Char) : Option Match :=
  (rules region).findSome? fun rule =>
    (rule.matchLength before cs).map fun n => ⟨n, rule.style, rule.leadsTo⟩

/-- What is done where no rule matches: a line feed ends every tag, and anything else is an
error. -/
def fallback (region : Region) (c : Char) : Match :=
  if c = '\n' then ⟨1, .blank, .outside⟩ else ⟨1, .error, region⟩

/-- A highlighted piece and the number of characters before it. -/
structure Piece where
  index : Nat
  style : Style
  text : List Char
  deriving Repr, DecidableEq

/-- The pieces from a place on. -/
def piecesFrom (region : Region) (before : Option Char) (index : Nat) (cs : List Char) :
    List Piece :=
  match cs with
  | [] => []
  | c :: rest =>
    let m := (firstMatch region before (c :: rest)).getD (fallback region c)
    let text := c :: rest.take (m.length - 1)
    ⟨index, m.style, text⟩ ::
      piecesFrom m.leadsTo text.getLast? (index + text.length) (rest.drop (m.length - 1))
termination_by cs.length
decreasing_by simp only [List.length_drop, List.length_cons]; omega

/-- The pieces of a text, as it stands. -/
def pieces (cs : List Char) : List Piece :=
  piecesFrom .outside none 0 cs

/-! ## Tidied text -/

/-- A text without line feeds at its end. -/
def dropFinalNewlines (cs : List Char) : List Char :=
  (cs.reverse.dropWhile (· == '\n')).reverse

/-- A text as it is shown: without a byte order mark and without empty lines at both ends, all
lines ended by line feeds. -/
def tidy (cs : List Char) : List Char :=
  let cs := if cs.head? = some '\ufeff' then cs.tail else cs
  dropFinalNewlines ((Newline.readAll cs).dropWhile (· == '\n')) ++ ['\n']

/-- The pieces of a text as it is shown. -/
def tidyPieces (cs : List Char) : List Piece :=
  pieces (tidy cs)

/-! ## Terminal -/

/-- Turns all colors off. -/
def resetColor : String := "\x1b[39;49;00m"

/-- A line of a piece. The line feed that ends it stays outside the color. -/
def paintLine (style : Style) (line : List Char) : String :=
  let body := String.ofList (dropFinalNewlines line)
  let painted := match style.color? with
    | some color => color ++ body ++ resetColor
    | none => body
  if line.getLast? = some '\n' then painted ++ "\n" else painted

/-- A piece in its color, line by line. -/
def paint (p : Piece) : String :=
  String.join ((lines p.text).map (paintLine p.style))

/-- A template in colors. -/
def terminal (cs : List Char) : String :=
  String.join ((tidyPieces cs).map paint)

end Stencil.Highlight
