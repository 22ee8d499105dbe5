import Stencil.Diagnostic
import Stencil.Token.Basic

/-!
# Failures of compilation

Why a template does not compile. A failure is a cause; its category decides the code under
which it is reported and whether the template is at fault or the compiler.
-/

namespace Stencil

/-- The categories of failures. Some refine others: every empty tag is a bad tag, and every
bad tag an error of parsing. -/
inductive Category where
  | template
  | parse
  | lexical
  | tag
  | emptyTag
  | internal
  | streamClosed
  deriving Repr, DecidableEq

namespace Category

/-- Every category, the general ones before those that refine them. -/
def all : List Category :=
  [template, parse, lexical, tag, emptyTag, internal, streamClosed]

/-- The category and all that it refines. -/
def lineage : Category → List Category
  | template => [template]
  | parse => [parse, template]
  | lexical => [lexical, parse, template]
  | tag => [tag, parse, template]
  | emptyTag => [emptyTag, tag, parse, template]
  | internal => [internal]
  | streamClosed => [streamClosed, internal]

/-- Every failure of category `c` is also one of category `d`. -/
def refines (c d : Category) : Bool :=
  c.lineage.contains d

/-- The code of a category in diagnostics. -/
def code : Category → String
  | template => "E000"
  | parse => "E200"
  | lexical => "E100"
  | tag => "E210"
  | emptyTag => "E211"
  | internal | streamClosed => "E900"

/-- The diagnostic for a failure of this category. One that is not the template's fault says
so. -/
def diagnostic (c : Category) (message : String) : Diagnostic :=
  if c.refines internal then
    { severity := .error, code := c.code, message := "internal error: " ++ message,
      notes := ["this is a bug in ein, not in the template"] }
  else { severity := .error, code := c.code, message }

end Category

/-- The deepest nesting of blocks. It keeps the recursion of the parser far from the end of a call
stack, so that no failure stands for one that is exhausted. -/
def maxNesting : Nat := 100

/-- Why a template does not compile. -/
inductive Failure where
  /-- An error token where a token of the template is needed. -/
  | lexical (token : Token)
  /-- The input ends before the wanted kind of token. -/
  | endWhileScanning (wanted : TokenKind)
  /-- The input ends inside a block. -/
  | endInBlock
  /-- A token that starts no item. -/
  | unexpectedToken (token : Token)
  /-- An end mark that ends no block. -/
  | strayEnd
  /-- An else mark that is in no block. -/
  | strayElse
  | emptyTag
  /-- An if tag with nothing behind its first word. -/
  | conditionMissing
  /-- A tag of no known shape. -/
  | unrecognizedTag (tokens : List Token)
  | nestedTooDeeply
  /-- A token was asked for after the last one. -/
  | streamClosed
  /-- A list is to end before a sequence that nobody has defined. -/
  | unknownLookahead (name : String)
  /-- A list that is no whole template, and has no end. -/
  | noTerminators
  /-- A branch that stopped at neither an end mark nor an else mark. -/
  | blockUnended
  /-- Something that is no node, or nothing, where a node is to be parsed. -/
  | unparsable (value : Option Int)
  /-- The lexer crashed. -/
  | lexerFailed (message : String)
  deriving Repr, DecidableEq

namespace Failure

/-- The category of a failure. -/
def category : Failure → Category
  | lexical _ => .lexical
  | endWhileScanning _ | endInBlock | unexpectedToken _ | strayEnd | strayElse
  | nestedTooDeeply => .parse
  | emptyTag => .emptyTag
  | conditionMissing | unrecognizedTag _ => .tag
  | streamClosed => .streamClosed
  | unknownLookahead _ | noTerminators | blockUnended | unparsable _ | lexerFailed _ => .internal

/-- The wording of a failure. -/
def message : Failure → String
  | lexical token => "unexpected error token: " ++ token.render
  | endWhileScanning wanted => "unexpected EOF while scanning for " ++ wanted.label
  | endInBlock => "unexpected EOF in block"
  | unexpectedToken token =>
    "unexpected " ++ token.kind.label ++ " token in parse: " ++ token.render
  | strayEnd => "unexpected \x7b\x7bend\x7d\x7d outside of a block"
  | strayElse => "unexpected \x7b\x7belse\x7d\x7d outside of an if block"
  | emptyTag => "empty tag"
  | conditionMissing => "if tag requires a condition"
  | unrecognizedTag tokens => "unrecognized tag: " ++ Token.renderAll " " tokens
  | nestedTooDeeply =>
    "template nested too deeply (more than " ++ toString maxNesting ++ " blocks)"
  | streamClosed => "parsing a closed lex stream"
  | unknownLookahead name => "invalid parse predicate name: " ++ name
  | noTerminators => "a nested list needs at least one terminator"
  | blockUnended => "if block ended without \x7b\x7bend\x7d\x7d or \x7b\x7belse\x7d\x7d"
  | unparsable (some value) => "cannot parse " ++ toString value
  | unparsable none => "cannot parse None"
  | lexerFailed message => "lexer failed: " ++ message

/-- The diagnostic for a failure. -/
def diagnostic (f : Failure) : Diagnostic :=
  f.category.diagnostic f.message

end Failure

end Stencil
