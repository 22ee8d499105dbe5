import Stencil.Text.Literal
import Stencil.Token.Lexer

/-!
# Runs of the lexer

A whole run of the lexer and what can be asked of it: the tokens, the reads and tokens in the
order in which they happened, and the messages for a log. Whatever becomes of the source, the
tokens end with the end of the input, and only then is their channel closed.
-/

namespace Stencil

/-- A failure as logs show it: its kind and its quoted message. -/
def Fault.summary : Fault → String
  | .unreadable message => message
  | .crash label message => label ++ "(" ++ Text.Literal.quote message ++ ")"

/-- The message of a failure. -/
def Fault.message : Fault → String
  | .unreadable message => message
  | .crash _ message => message

/-- A finished run of the lexer. -/
structure Lexing where
  /-- What the steps did, in order. -/
  steps : List Action
  /-- The failure that stopped the steps, if one did. -/
  crash : Option Fault
  deriving Repr, DecidableEq

/-- Lexes a source from its start. -/
def Lexer.run (source : Source) : Lexing :=
  let (s, crash) := runFrom .text { source }
  ⟨s.actions.reverse, crash⟩

namespace Lexing

/-- All actions: after the steps, also after steps that crashed, the end is sent and the
channel closed. -/
def actions (l : Lexing) : List Action :=
  l.steps ++ [.send .endOfInput, .close]

/-- The tokens before the end of the input. -/
def body (l : Lexing) : List Token :=
  l.steps.filterMap (·.token?)

/-- All tokens, in the order in which they were sent. -/
def tokens (l : Lexing) : List Token :=
  l.actions.filterMap (·.token?)

/-- The number of reads from the source. -/
def reads (l : Lexing) : Nat :=
  l.steps.count .read

/-- The log message for a token sent. -/
def note (t : Token) : String :=
  if t.kind = .error then "lex error: " ++ t.value else "lex out: " ++ t.render

/-- The log of the run. -/
def log (l : Lexing) : List String :=
  l.body.map note ++ (l.crash.toList.map fun fault => "lexer failed: " ++ fault.summary) ++
    [note .endOfInput]

theorem tokens_eq (l : Lexing) : l.tokens = l.body ++ [.endOfInput] := by
  simp [tokens, actions, body, Action.token?]

end Lexing

end Stencil
