import Stencil.Text.Literal

/-!
# Tokens

Tokens of a template: plain text, the two tag delimiters, and the words inside tags, with one
kind for errors that the reader of a token stream is to report and one for its end.
-/

namespace Stencil

/-- What a token is. -/
inductive TokenKind where
  | invalid
  | error
  | eof
  | text
  | leftMeta
  | rightMeta
  | ident
  | ifWord
  /-- Reserved: no template has a token of this kind. -/
  | forWord
  | endWord
  | elseWord
  deriving Repr, DecidableEq

namespace TokenKind

/-- Every kind, in the order of declaration. -/
def all : List TokenKind :=
  [invalid, error, eof, text, leftMeta, rightMeta, ident, ifWord, forWord, endWord, elseWord]

/-- The short form of a kind in messages and token listings. -/
def label : TokenKind → String
  | invalid => "invalid"
  | error => "error"
  | eof => "EOF"
  | text => "text"
  | leftMeta => "leftM"
  | rightMeta => "rightM"
  | ident => "ident"
  | ifWord => "if"
  | forWord => "for"
  | endWord => "end"
  | elseWord => "else"

/-- The long form of a kind in tree dumps. -/
def title : TokenKind → String
  | invalid => "INVALID"
  | error => "ERROR"
  | eof => "EOF"
  | text => "PLAINTEXT"
  | leftMeta => "LEFT_META"
  | rightMeta => "RIGHT_META"
  | ident => "IDENTIFIER"
  | ifWord => "IF"
  | forWord => "FOR"
  | endWord => "END"
  | elseWord => "ELSE"

/-- The kind with a given label, or what is wrong with the label. -/
def ofLabel (s : String) : Except String TokenKind :=
  match all.find? (·.label == s) with
  | some kind => .ok kind
  | none => .error (Text.Literal.quote s ++ " is not a valid TokenKind")

theorem mem_all (k : TokenKind) : k ∈ all := by
  cases k <;> decide

end TokenKind

/-- A token and the text it stands for. -/
structure Token where
  kind : TokenKind
  value : String
  deriving Repr, DecidableEq

namespace Token

/-- The text that opens a tag. -/
def leftMark : String := "\x7b\x7b"

/-- The text that closes a tag. -/
def rightMark : String := "\x7d\x7d"

/-- The end of every token stream. -/
def endOfInput : Token := ⟨.eof, "EOF"⟩

/-- Opens a tag. -/
def left : Token := ⟨.leftMeta, leftMark⟩

/-- Closes a tag. -/
def right : Token := ⟨.rightMeta, rightMark⟩

/-- The word that starts a block. -/
def ifMark : Token := ⟨.ifWord, "if"⟩

/-- The word that ends a block. -/
def endMark : Token := ⟨.endWord, "end"⟩

/-- The word between the branches of a block. -/
def elseMark : Token := ⟨.elseWord, "else"⟩

/-- The words with a meaning of their own, and their kinds. -/
def keywords : List (String × TokenKind) :=
  [("if", .ifWord), ("else", .elseWord), ("end", .endWord)]

/-- The token for a word of a tag: a keyword, or a name. -/
def ofWord (word : String) : Token :=
  ⟨(keywords.lookup word).getD .ident, word⟩

/-- A token as listings show it: its kind and its text between braces. -/
def render (t : Token) : String :=
  "\x7b" ++ t.kind.label ++ ": " ++ t.value ++ "\x7d"

/-- Several tokens as listings show them. -/
def renderAll (separator : String) (ts : List Token) : String :=
  separator.intercalate (ts.map render)

end Token

end Stencil
