import Stencil.Node.Parser
import Stencil.Token.Lexing

/-!
# Compiling a template

Compiling a template: its source is lexed, and its tokens are parsed to a tree. A crash of the
lexer spoils a tree that would otherwise be complete, since tokens may be missing; a failure of
parsing comes first.

The parser recurses as deep as blocks are nested, which `maxNesting` bounds. The failure for a call
stack that is exhausted all the same, `template nested too deeply`, is left out here: the bound
keeps it out of reach.
-/

namespace Stencil

/-- A finished compilation. -/
structure Compilation where
  lexing : Lexing
  parsed : Parsed Node

namespace Compilation

/-- Compiles the template that a run of the lexer has read. -/
def ofLexing (l : Lexing) : Compilation :=
  ⟨l, Parser.parse {} Node.emptyRoot (.atStart l.tokens)⟩

/-- Compiles a template. -/
def ofSource (source : Source) : Compilation :=
  ofLexing (Lexer.run source)

/-- The failure to report for a run of the lexer that crashed. -/
def lexerFailure (l : Lexing) : Except Failure Unit :=
  match l.crash with
  | some fault => .error (.lexerFailed fault.message)
  | none => .ok ()

/-- The tree, or why there is none. -/
def result (c : Compilation) : Except Failure Node := do
  c.parsed.outcome
  lexerFailure c.lexing
  return c.parsed.left

/-- The log of the compilation, without that of the lexer. -/
def log (c : Compilation) : List String :=
  "compiling..." :: c.parsed.parser.cursor.journal.reverse.map Note.render ++
    if c.result matches .ok _ then ["done compiling"] else []

end Compilation

/-- All tokens of a source, the end of the input included. -/
def tokenize (source : Source) : Except Failure (List Token) := do
  let l := Lexer.run source
  Compilation.lexerFailure l
  return l.tokens

/-- The tree of a template. -/
def compile (source : Source) : Except Failure Node :=
  (Compilation.ofSource source).result

end Stencil
