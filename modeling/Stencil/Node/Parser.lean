import Stencil.Node.Basic
import Stencil.Token.Cursor

/-!
# Parsing tokens to a tree

The parser: recursive descent from the tokens ahead of a cursor to a tree. A list takes items
until one of the lookaheads it names comes true; a block parses its branches as lists and takes
the marks that end them.

Parsing leaves something behind even when it fails: the children that were complete, and the
cursor and the nesting depth as they then are. `Parsed` holds all of it.

The recursion is bounded by a number that exceeds the number of tokens ahead. Every item
consumes a token, so the bound is never reached before the stream is exhausted.
-/

namespace Stencil

/-- What parsing can be told: which lookaheads there are, and which of them end the first
branch of a block. -/
structure Grammar where
  lookaheads : List Lookahead := Lookahead.standard
  firstBranchEnd : List String := ["before_end", "before_else"]
  deriving Repr, DecidableEq

/-- The names of the lookaheads that end the second branch of a block. -/
def Grammar.secondBranchEnd : List String := ["before_end"]

/-- A parser at work: the place it has reached and the number of blocks it is in. -/
structure Parser where
  cursor : Cursor
  depth : Int := 0
  deriving Repr, DecidableEq

/-- A parser that stands before tokens, none of which was read. -/
def Parser.atStart (tokens : List Token) : Parser :=
  { cursor := { stream := tokens } }

/-- What parsing leaves: the tree as far as it came, whether it is complete, and the parser. -/
structure Parsed (α : Type) where
  left : α
  outcome : Except Failure Unit
  parser : Parser

namespace Node

/-- The node for the tokens between the delimiters of a tag. -/
def ofTag : List Token → Except Failure Node
  | [] => .error .emptyTag
  | [⟨.ident, name⟩] => .ok (ident name)
  | [⟨.endWord, _⟩] => .ok endMark
  | [⟨.elseWord, _⟩] => .ok elseMark
  | [⟨.ifWord, _⟩] => .error .conditionMissing
  | ⟨.ifWord, _⟩ :: condition => .ok (block condition absent absent)
  | tokens => .error (.unrecognizedTag tokens)

end Node

namespace Cursor

/-- Reads the tag behind an opening delimiter, with its closing delimiter. A mark is no item,
and stays unclosed. -/
def readTag (c : Cursor) : Except Failure Node × Cursor :=
  match c.readUntil .rightMeta with
  | (.error e, c) => (.error e, c)
  | (.ok tokens, c) =>
    let c := c.remark (.tag tokens)
    match Node.ofTag tokens with
    | .error e => (.error e, c)
    | .ok .endMark => (.error .strayEnd, c)
    | .ok .elseMark => (.error .strayElse, c)
    | .ok node =>
      match c.next with
      | (.error e, c) => (.error e, c)
      | (.ok _, c) => (.ok node, c)

/-- The list that names these lookaheads ends here: one of them, asked in order, is true. -/
def atListEnd (lookaheads : List Lookahead) :
    (names : List String) → Cursor → Except Failure Bool × Cursor
  | [], c => (.ok false, c)
  | name :: names, c =>
    match Lookahead.find lookaheads name with
    | .error e => (.error e, c)
    | .ok lookahead =>
      match lookahead.ask c with
      | (.error e, c) => (.error e, c)
      | (.ok true, c) => (.ok true, c.remark (.listEnd name))
      | (.ok false, c) => atListEnd lookaheads names (c.remark (.noListEnd name))

/-- The number of tokens in the tag of a mark. -/
def markLength : Nat := 3

end Cursor

namespace Parser

/-- Stops with a failure; what was parsed before it is kept. -/
def fail {α : Type} (p : Parser) (left : α) (e : Failure) (c : Cursor) : Parsed α :=
  ⟨left, .error e, { p with cursor := c }⟩

/-- Reads the tag of the mark that ends the last branch of a block, and leaves the block,
whether the tag is there or not. -/
def finishBranch {α : Type} (p : Parser) (left : α) : Parsed α :=
  match p.cursor.take Cursor.markLength with
  | (.error e, c) => ⟨left, .error e, ⟨c, p.depth - 1⟩⟩
  | (.ok _, c) => ⟨left, .ok (), ⟨c, p.depth - 1⟩⟩

mutual

/-- Parses the items of a list up to its end. Gives the nodes that were complete. -/
def parseItems (g : Grammar) (root : Bool) (terminators : List String) :
    (bound : Nat) → Parser → Parsed (List Node)
  | 0, p => p.fail [] .streamClosed p.cursor
  | bound + 1, p =>
    match p.cursor.atListEnd g.lookaheads terminators with
    | (.error e, c) => p.fail [] e c
    | (.ok true, c) => ⟨[], .ok (), { p with cursor := c }⟩
    | (.ok false, c) =>
      match c.next with
      | (.error e, c) => p.fail [] e c
      | (.ok token, c) =>
        match token.kind with
        | .leftMeta =>
          match c.readTag with
          | (.error e, c) => p.fail [] e c
          | (.ok node, c) =>
            let item := parseBody g bound node { p with cursor := c }
            match item.outcome with
            | .error e => ⟨[], .error e, item.parser⟩
            | .ok _ =>
              let more := parseItems g root terminators bound item.parser
              { more with left := item.left :: more.left }
        | .text =>
          let more := parseItems g root terminators bound { p with cursor := c }
          { more with left := .text token.value :: more.left }
        | .error => p.fail [] (.lexical token) c
        | .eof =>
          if root then ⟨[], .ok (), { p with cursor := c }⟩ else p.fail [] .endInBlock c
        | _ => p.fail [] (.unexpectedToken token) c

/-- Parses what belongs to a node: the items of a list, the branches of a block. Other nodes
are complete. -/
def parseBody (g : Grammar) : (bound : Nat) → Node → Parser → Parsed Node
  | 0, node, p => p.fail node .streamClosed p.cursor
  | bound + 1, .list root terminators children, p =>
    let items := parseItems g root terminators bound p
    ⟨.list root terminators (children ++ items.left), items.outcome, items.parser⟩
  | bound + 1, .block condition whenTrue whenFalse, p =>
    if p.depth ≥ maxNesting then
      p.fail (.block condition whenTrue whenFalse) .nestedTooDeeply p.cursor
    else if g.firstBranchEnd.isEmpty then
      p.fail (.block condition whenTrue whenFalse) .noTerminators p.cursor
    else
      let first := parseItems g false g.firstBranchEnd bound { p with depth := p.depth + 1 }
      let leave (c : Cursor) : Parser := ⟨c, first.parser.depth - 1⟩
      let node := Node.block condition (.list false g.firstBranchEnd first.left)
      match first.outcome with
      | .error e => ⟨node whenFalse, .error e, leave first.parser.cursor⟩
      | .ok _ =>
        match Lookahead.beforeEnd.ask first.parser.cursor with
        | (.error e, c) => ⟨node whenFalse, .error e, leave c⟩
        | (.ok true, c) => finishBranch { first.parser with cursor := c } (node whenFalse)
        | (.ok false, c) =>
          match Lookahead.beforeElse.ask c with
          | (.error e, c) => ⟨node whenFalse, .error e, leave c⟩
          | (.ok false, c) => ⟨node whenFalse, .error .blockUnended, leave c⟩
          | (.ok true, c) =>
            match c.take Cursor.markLength with
            | (.error e, c) => ⟨node whenFalse, .error e, leave c⟩
            | (.ok _, c) =>
              let second :=
                parseItems g false Grammar.secondBranchEnd bound { first.parser with cursor := c }
              let node := node (.list false Grammar.secondBranchEnd second.left)
              match second.outcome with
              | .error e => ⟨node, .error e, ⟨second.parser.cursor, second.parser.depth - 1⟩⟩
              | .ok _ => finishBranch second.parser node
  | _ + 1, .absent, p => p.fail .absent (.unparsable none) p.cursor
  | _ + 1, .foreign value, p => p.fail (.foreign value) (.unparsable (some value)) p.cursor
  | _ + 1, node, p => ⟨node, .ok (), p⟩

end

/-- Parses what belongs to a node from the tokens ahead. -/
def parse (g : Grammar) (node : Node) (p : Parser) : Parsed Node :=
  parseBody g (2 * p.cursor.size + 2) node p

end Parser

end Stencil
