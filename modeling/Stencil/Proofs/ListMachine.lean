import Stencil.Proofs.Ahead

/-!
# A cursor as a list machine

A cursor keeps tokens in two places, those put back and the stream, and most operations move some
from one to the other. Whoever only sees the answers cannot tell: under any sequence of
operations, also behind failed ones, a cursor answers like one list of tokens on which each
operation has its plain meaning (`Cursor.Op.onList`), and its tokens ahead are that list
(`Cursor.outcomes_seen`).

The plain meaning is said without following the operation: `readUntil` takes the longest prefix
of ordinary tokens, and what comes next decides.
-/

namespace Stencil
namespace Cursor

/-- An operation on a cursor. -/
inductive Op where
  | next
  /-- Reads `n` tokens, none if `n` is negative. -/
  | take (n : Int)
  | peek
  | putBack (tokens : List Token)
  | readUntil (wanted : TokenKind)
  deriving Repr, DecidableEq

/-- What an operation answers if it does not fail. -/
inductive Answer where
  | token (t : Token)
  | tokens (ts : List Token)
  | done
  deriving Repr, DecidableEq

/-- The answer to an operation, and what it leaves. -/
abbrev Result (σ : Type) : Type :=
  Except Failure Answer × σ

/-- The result of an operation that answers with an `α`. -/
def Result.of {α σ : Type} (answer : α → Answer) (r : Except Failure α × σ) : Result σ :=
  (r.1.map answer, r.2)

namespace Op

/-- Performs an operation on a cursor. -/
def perform : Op → Cursor → Result Cursor
  | next, c => .of .token c.next
  | take n, c => .of .tokens (c.take n.toNat)
  | peek, c => .of .token c.peek
  | putBack ts, c => (.ok .done, c.putBack ts)
  | readUntil wanted, c => .of .tokens (c.readUntil wanted)

/-- What an operation is on a list of tokens. -/
def onList : Op → List Token → Result (List Token)
  | next, [] => (.error .streamClosed, [])
  | next, t :: ts => (.ok (.token t), ts)
  | take n, ts =>
    if n ≤ ts.length then (.ok (.tokens (ts.take n.toNat)), ts.drop n.toNat)
    else (.error .streamClosed, [])
  | peek, [] => (.error .streamClosed, [])
  | peek, t :: ts => (.ok (.token t), t :: ts)
  | putBack us, ts => (.ok .done, us ++ ts)
  | readUntil wanted, ts =>
    match ts.dropWhile (Ahead.passes wanted) with
    | [] => (.error .streamClosed, [])
    | t :: rest =>
      if t.kind = wanted then (.ok (.tokens (ts.takeWhile (Ahead.passes wanted))), t :: rest)
      else if t.kind = .eof then (.error (.endWhileScanning wanted), rest)
      else (.error (.lexical t), rest)

end Op

/-- The results of a sequence of operations, one for each. One that fails does not keep the
next from being tried. -/
def outcomes {σ : Type} (perform : Op → σ → Result σ) : List Op → σ → List (Result σ)
  | [], _ => []
  | op :: ops, s => perform op s :: outcomes perform ops (perform op s).2

variable {wanted : TokenKind} {t : Token} {ts : List Token}

/-! ## One operation -/

theorem seen_peek_nil {c : Cursor} (nothing : c.upcoming = []) :
    seen c.peek = (.error .streamClosed, []) := by
  have first := seen_next c
  rw [nothing] at first
  obtain ⟨c', next, after⟩ := exists_of_seen first
  rw [Cursor.peek, next, seen, after]

theorem seen_peek_cons {c : Cursor} (some : c.upcoming = t :: ts) :
    seen c.peek = (.ok t, t :: ts) := by
  have first := seen_next c
  rw [some] at first
  obtain ⟨c', next, after⟩ := exists_of_seen first
  rw [Cursor.peek, next, seen, upcoming_putBack, after]
  rfl

/-- On a list of tokens, reading up to a delimiter is `Ahead.readUntil`. -/
theorem onList_readUntil (wanted : TokenKind) (ts : List Token) :
    (Op.readUntil wanted).onList ts = Result.of .tokens (Ahead.readUntil wanted ts) := by
  have passed : ∀ t ∈ ts.takeWhile (Ahead.passes wanted), Ahead.passes wanted t :=
    List.all_eq_true.mp List.all_takeWhile
  have read := Ahead.readUntil_passed passed (ts.dropWhile (Ahead.passes wanted))
  have decides := List.head?_dropWhile_not (Ahead.passes wanted) ts
  rw [List.takeWhile_append_dropWhile] at read
  rw [Op.onList, read]
  cases left : ts.dropWhile (Ahead.passes wanted) with
  | nil => rfl
  | cons t rest =>
    rw [left] at decides
    have stops : ¬Ahead.passes wanted t := by simpa using decides
    rw [Ahead.readUntil_stop stops]
    simp only
    split
    · simp only [Result.of, Except.map, List.append_nil]
    · split <;> rfl

/-- An operation on a cursor is seen to be what it is on the list of the tokens ahead. -/
theorem seen_perform (op : Op) (c : Cursor) : seen (op.perform c) = op.onList c.upcoming := by
  have seen_of {α : Type} (answer : α → Answer) (r : Except Failure α × Cursor) :
      seen (Result.of answer r) = Result.of answer (seen r) := rfl
  cases op with
  | next =>
    rw [Op.perform, seen_of, seen_next]
    cases c.upcoming <;> rfl
  | take n =>
    rw [Op.perform, seen_of, seen_take, Op.onList, Ahead.take]
    simp only [Int.toNat_le]
    split <;> rfl
  | peek =>
    rw [Op.perform, seen_of]
    cases ahead : c.upcoming with
    | nil => rw [seen_peek_nil ahead]; rfl
    | cons t ts => rw [seen_peek_cons ahead]; rfl
  | putBack us => rw [Op.perform, seen, upcoming_putBack, Op.onList]
  | readUntil wanted => rw [Op.perform, seen_of, seen_readUntil, onList_readUntil]

/-! ## Sequences of operations -/

/-- Under any operations a cursor is a list machine: each has the result that it has on the list
of the tokens ahead, and leaves that list ahead. -/
theorem outcomes_seen (ops : List Op) (c : Cursor) :
    (outcomes Op.perform ops c).map seen = outcomes Op.onList ops c.upcoming := by
  induction ops generalizing c with
  | nil => rfl
  | cons op ops ih =>
    have same := seen_perform op c
    rw [outcomes, outcomes, List.map_cons, same, ih, ← same]
    rfl

end Cursor
end Stencil
