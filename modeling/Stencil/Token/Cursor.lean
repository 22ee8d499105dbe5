import Stencil.Failure

/-!
# The token cursor

The token cursor: a stream of tokens that only moves forward, with a stack of tokens put back
in front of it. `Cursor.upcoming` is the list of tokens that a cursor stands before; reading,
putting back and looking ahead are operations on it.

The cursor keeps a journal of what happened on it, from which logs are written, and a mark at the
most tokens that were ever on its stack.
-/

namespace Stencil

/-- A remark in the journal of a cursor. -/
inductive Note where
  | putBack (tokens : List Token)
  | looksFor (name : String) (expected : List Token)
  | mismatch (expected got : Token) (index : Nat)
  | tag (tokens : List Token)
  | listEnd (name : String)
  | noListEnd (name : String)
  deriving Repr, DecidableEq

/-- The log message for a remark. -/
def Note.render : Note → String
  | putBack tokens => "unread: " ++ Token.renderAll ", " tokens
  | looksFor name expected => "lookahead " ++ name ++ " sees: " ++ Token.renderAll ", " expected
  | mismatch expected got index =>
    "expected: " ++ expected.render ++ " got: " ++ got.render ++ " at " ++ toString index
  | tag tokens => "parse tag: " ++ Token.renderAll ", " tokens
  | listEnd name => "hit list end: " ++ name
  | noListEnd name => "list end terminator " ++ name ++ " didn't pass"

/-- A place in a stream of tokens. -/
structure Cursor where
  /-- Tokens put back, the next one first. -/
  returned : List Token := []
  /-- The tokens that were never read. -/
  stream : List Token
  /-- The end of the stream has been met. -/
  closed : Bool := false
  /-- What happened, the latest first. -/
  journal : List Note := []
  /-- The most tokens that were ever on the stack. No operation looks at it. -/
  peak : Nat := returned.length
  height_le : returned.length ≤ peak := by exact Nat.le_refl _
  deriving Repr, DecidableEq

namespace Cursor

/-- The tokens ahead. -/
def upcoming (c : Cursor) : List Token :=
  c.returned ++ c.stream

/-- Writes a remark into the journal. -/
def remark (note : Note) (c : Cursor) : Cursor :=
  { c with journal := note :: c.journal }

/-- Takes the next token off the stack. -/
def pop (c : Cursor) : Cursor :=
  { c with
    returned := c.returned.tail
    height_le := Nat.le_trans (List.tail_sublist _).length_le c.height_le }

/-- Puts tokens on the stack. -/
def push (ts : List Token) (c : Cursor) : Cursor :=
  { c with
    returned := ts ++ c.returned
    peak := max c.peak (ts ++ c.returned).length
    height_le := Nat.le_max_right _ _ }

theorem upcoming_push (ts : List Token) (c : Cursor) :
    (c.push ts).upcoming = ts ++ c.upcoming :=
  List.append_assoc _ _ _

/-- Reads a token. -/
def next (c : Cursor) : Except Failure Token × Cursor :=
  match c.returned with
  | t :: _ => (.ok t, c.pop)
  | [] =>
    match c.stream with
    | t :: ts => (.ok t, { c with stream := ts })
    | [] => (.error .streamClosed, { c with closed := true })

/-- Reads `n` tokens. If there are fewer, all are consumed. -/
def take : Nat → Cursor → Except Failure (List Token) × Cursor
  | 0, c => (.ok [], c)
  | n + 1, c =>
    match c.next with
    | (.error e, c) => (.error e, c)
    | (.ok t, c) =>
      match take n c with
      | (.error e, c) => (.error e, c)
      | (.ok ts, c) => (.ok (t :: ts), c)

/-- Puts tokens back: they are read next, in the given order. -/
def putBack (ts : List Token) (c : Cursor) : Cursor :=
  if ts.isEmpty then c else (c.push ts).remark (.putBack ts)

theorem upcoming_of_next {c c' : Cursor} {t : Token} (h : c.next = (.ok t, c')) :
    c.upcoming = t :: c'.upcoming := by
  unfold next at h
  split at h
  · next returned => cases h; simp [upcoming, pop, returned]
  · next returned =>
    split at h
    · next stream => cases h; simp [upcoming, returned, stream]
    · cases h

@[simp] theorem upcoming_putBack (ts : List Token) (c : Cursor) :
    (c.putBack ts).upcoming = ts ++ c.upcoming := by
  cases ts with
  | nil => rfl
  | cons t ts => exact upcoming_push (t :: ts) c

theorem peak_next (c : Cursor) : c.next.2.peak = c.peak := by
  unfold next
  split
  · rfl
  · split <;> rfl

/-- The peak moves up with the stack, and never down. -/
theorem peak_putBack (ts : List Token) (c : Cursor) :
    (c.putBack ts).peak = max c.peak (c.putBack ts).returned.length := by
  cases ts with
  | nil => exact (Nat.max_eq_left c.height_le).symm
  | cons t ts => rfl

/-- The next token, which stays where it is. -/
def peek (c : Cursor) : Except Failure Token × Cursor :=
  match c.next with
  | (.error e, c) => (.error e, c)
  | (.ok t, c) => (.ok t, c.putBack [t])

/-- The number of tokens ahead. -/
def size (c : Cursor) : Nat :=
  c.returned.length + c.stream.length

theorem size_of_next {c c' : Cursor} {t : Token} (h : c.next = (.ok t, c')) :
    c'.size + 1 = c.size := by
  unfold next at h
  split at h
  · next returned => cases h; simp [size, pop, returned]; omega
  · next returned =>
    split at h
    · next stream => cases h; simp [size, returned, stream]
    · cases h

/-- Reads all tokens before the next one of the wanted kind, which stays ahead. An error or the
end of the input in between is a failure; what was read then is lost. -/
def readUntil (wanted : TokenKind) (c : Cursor) : Except Failure (List Token) × Cursor :=
  match _h : c.next with
  | (.error e, c') => (.error e, c')
  | (.ok t, c') =>
    if t.kind = wanted then (.ok [], c'.putBack [t])
    else if t.kind = .eof then (.error (.endWhileScanning wanted), c')
    else if t.kind = .error then (.error (.lexical t), c')
    else
      match readUntil wanted c' with
      | (.error e, c'') => (.error e, c'')
      | (.ok ts, c'') => (.ok (t :: ts), c'')
termination_by c.size
decreasing_by have := size_of_next _h; omega

end Cursor

/-- A question about the tokens ahead: are they the expected ones? -/
structure Lookahead where
  name : String
  expected : List Token
  deriving Repr, DecidableEq

namespace Lookahead

/-- Reads along `expected`, the token number `index` next, up to the first that differs. Gives
the answer and the tokens read. -/
def compare (index : Nat) :
    (expected : List Token) → Cursor → Except Failure Bool × List Token × Cursor
  | [], c => (.ok true, [], c)
  | want :: expected, c =>
    match c.next with
    | (.error e, c) => (.error e, [], c)
    | (.ok got, c) =>
      if got = want then
        let (answer, read, c) := compare (index + 1) expected c
        (answer, got :: read, c)
      else (.ok false, [got], c.remark (.mismatch want got index))

/-- Asks the question at a cursor; all tokens read are put back, whatever comes of it. -/
def ask (l : Lookahead) (c : Cursor) : Except Failure Bool × Cursor :=
  let (answer, read, c) := compare 0 l.expected (c.remark (.looksFor l.name l.expected))
  (answer, c.putBack read)

/-- A tag with the end mark comes next. -/
def beforeEnd : Lookahead := ⟨"before_end", [.left, .endMark, .right]⟩

/-- A tag with the else mark comes next. -/
def beforeElse : Lookahead := ⟨"before_else", [.left, .elseMark, .right]⟩

/-- The questions that a list may end with. -/
def standard : List Lookahead := [beforeEnd, beforeElse]

/-- Finds a question by its name. -/
def find (ls : List Lookahead) (name : String) : Except Failure Lookahead :=
  match ls.find? (·.name == name) with
  | some l => .ok l
  | none => .error (.unknownLookahead name)

end Lookahead

end Stencil
