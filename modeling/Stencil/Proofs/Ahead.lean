import Stencil.Node.Parser

/-!
# Cursors as lists of tokens

A cursor keeps tokens put back apart from the stream, counts nothing and writes a journal, but
an operation on it answers from the tokens ahead alone, and leaves tokens ahead that depend on
nothing else. This module gives every operation its form on a plain list of tokens (`Ahead`)
and shows that the operation on the cursor has exactly that form (`Cursor.seen_next`,
`Cursor.seen_take`, `Cursor.seen_readUntil`, `Cursor.seen_ask`, `Cursor.seen_atListEnd`,
`Cursor.seen_readTag`).

A lookahead in particular is a test for a prefix: it can only fail where the tokens ahead end
inside the expected ones, and it moves nothing.
-/

namespace Stencil

/-- What can be seen of an operation on a cursor: the answer, and the tokens ahead after it. -/
def Cursor.seen {α : Type} (r : α × Cursor) : α × List Token :=
  (r.1, r.2.upcoming)

namespace Ahead

/-- Takes the first token. -/
def next : List Token → Except Failure Token × List Token
  | [] => (.error .streamClosed, [])
  | t :: ts => (.ok t, ts)

/-- Takes the first `n` tokens; if there are fewer, all are gone. -/
def take (n : Nat) (ts : List Token) : Except Failure (List Token) × List Token :=
  if n ≤ ts.length then (.ok (ts.take n), ts.drop n) else (.error .streamClosed, [])

/-- Takes the tokens before the first one of the wanted kind. -/
def readUntil (wanted : TokenKind) : List Token → Except Failure (List Token) × List Token
  | [] => (.error .streamClosed, [])
  | t :: ts =>
    if t.kind = wanted then (.ok [], t :: ts)
    else if t.kind = .eof then (.error (.endWhileScanning wanted), ts)
    else if t.kind = .error then (.error (.lexical t), ts)
    else
      match readUntil wanted ts with
      | (.error e, rest) => (.error e, rest)
      | (.ok read, rest) => (.ok (t :: read), rest)

/-- Whether the expected tokens come first. -/
def test : (expected : List Token) → List Token → Except Failure Bool
  | [], _ => .ok true
  | _ :: _, [] => .error .streamClosed
  | want :: expected, got :: ts => if got = want then test expected ts else .ok false

/-- Whether a list that names these lookaheads ends here. -/
def atListEnd (lookaheads : List Lookahead) : (names : List String) → List Token →
    Except Failure Bool
  | [], _ => .ok false
  | name :: names, ts =>
    match Lookahead.find lookaheads name with
    | .error e => .error e
    | .ok lookahead =>
      match test lookahead.expected ts with
      | .error e => .error e
      | .ok true => .ok true
      | .ok false => atListEnd lookaheads names ts

/-- Takes the tag behind an opening delimiter. -/
def readTag (ts : List Token) : Except Failure Node × List Token :=
  match readUntil .rightMeta ts with
  | (.error e, rest) => (.error e, rest)
  | (.ok tokens, rest) =>
    match Node.ofTag tokens with
    | .error e => (.error e, rest)
    | .ok .endMark => (.error .strayEnd, rest)
    | .ok .elseMark => (.error .strayElse, rest)
    | .ok node =>
      match next rest with
      | (.error e, rest) => (.error e, rest)
      | (.ok _, rest) => (.ok node, rest)

/-! ## Reading up to a kind -/

/-- A token that is passed by reading up to the wanted kind. -/
def passes (wanted : TokenKind) (t : Token) : Bool :=
  t.kind ≠ wanted ∧ t.kind ≠ .eof ∧ t.kind ≠ .error

theorem passes_iff {wanted : TokenKind} {t : Token} :
    passes wanted t = true ↔ t.kind ≠ wanted ∧ t.kind ≠ .eof ∧ t.kind ≠ .error :=
  decide_eq_true_iff

/-- Tokens that are passed make no difference to how reading ends. -/
theorem readUntil_passed {wanted : TokenKind} {read : List Token}
    (passed : ∀ t ∈ read, passes wanted t) (ts : List Token) :
    readUntil wanted (read ++ ts) =
      ((readUntil wanted ts).1.map (read ++ ·), (readUntil wanted ts).2) := by
  rcases ends : readUntil wanted ts with ⟨answer, rest⟩
  induction read with
  | nil => cases answer <;> exact ends
  | cons t read ih =>
    obtain ⟨first, others⟩ := List.forall_mem_cons.mp passed
    obtain ⟨other, inner, sound⟩ := passes_iff.mp first
    rw [List.cons_append, readUntil, if_neg other, if_neg inner, if_neg sound, ih others]
    cases answer <;> rfl

/-- The first token that is not passed decides. -/
theorem readUntil_stop {wanted : TokenKind} {t : Token} {ts : List Token}
    (stops : ¬passes wanted t) :
    readUntil wanted (t :: ts) =
      if t.kind = wanted then (.ok [], t :: ts)
      else if t.kind = .eof then (.error (.endWhileScanning wanted), ts)
      else (.error (.lexical t), ts) := by
  rw [readUntil]
  by_cases last : t.kind = wanted
  · rw [if_pos last, if_pos last]
  rw [if_neg last, if_neg last]
  by_cases ended : t.kind = .eof
  · rw [if_pos ended, if_pos ended]
  rw [if_neg ended, if_neg ended]
  refine if_pos (Decidable.byContradiction fun sound => ?_)
  exact stops (passes_iff.mpr ⟨last, ended, sound⟩)

/-! ## Lookaheads are tests for a prefix -/

/-- A lookahead answers yes where the tokens ahead start with the expected ones. -/
theorem test_eq_true_iff {expected ts : List Token} :
    test expected ts = .ok true ↔ expected <+: ts := by
  induction expected generalizing ts with
  | nil => simp [test]
  | cons want expected ih =>
    cases ts with
    | nil => simp [test]
    | cons got ts =>
      rw [test, List.cons_prefix_cons]
      split
      · next same => rw [ih]; simp [same]
      · next other => simp [Ne.symm other]

/-- A lookahead is without an answer exactly where the tokens ahead run out on it. -/
theorem test_eq_error_iff {expected ts : List Token} {e : Failure} :
    test expected ts = .error e ↔ e = .streamClosed ∧ ts <+: expected ∧ ts ≠ expected := by
  induction expected generalizing ts with
  | nil => simp [test]
  | cons want expected ih =>
    cases ts with
    | nil => simp [test, eq_comm]
    | cons got ts =>
      rw [test, List.cons_prefix_cons]
      split
      · next same => rw [ih]; simp [same]
      · next other => simp [other]

/-- Before a token that is not expected anywhere, a lookahead has an answer. -/
theorem test_ne_error {expected ts : List Token} {t : Token} (ahead : t ∈ ts)
    (foreign : t ∉ expected) (e : Failure) : test expected ts ≠ .error e := by
  intro failed
  obtain ⟨-, short, -⟩ := test_eq_error_iff.mp failed
  exact foreign (short.subset ahead)

end Ahead

/-! ## Operations of the cursor -/

namespace Cursor

open Ahead

@[simp] theorem upcoming_remark (note : Note) (c : Cursor) :
    (c.remark note).upcoming = c.upcoming := rfl

theorem size_eq (c : Cursor) : c.size = c.upcoming.length := by
  simp [size, upcoming]

/-- An operation that is seen to give `a` and leave `ts` does so with some cursor. -/
theorem exists_of_seen {α : Type} {r : α × Cursor} {a : α} {ts : List Token}
    (h : seen r = (a, ts)) : ∃ c, r = (a, c) ∧ c.upcoming = ts := by
  obtain ⟨answer, after⟩ := Prod.mk.inj h
  exact ⟨r.2, Prod.ext answer rfl, after⟩

theorem seen_next (c : Cursor) : seen c.next = Ahead.next c.upcoming := by
  rcases c with ⟨returned, stream⟩
  cases returned with
  | nil => cases stream <;> rfl
  | cons t ts => rfl

/-- Taking tokens is taking the first ones ahead, wherever they lie. -/
theorem seen_take (n : Nat) (c : Cursor) : seen (c.take n) = Ahead.take n c.upcoming := by
  induction n generalizing c with
  | zero => simp [Cursor.take, seen, Ahead.take]
  | succ n ih =>
    have head := seen_next c
    cases ahead : c.upcoming with
    | nil =>
      rw [ahead] at head
      obtain ⟨c', first, after⟩ := exists_of_seen head
      simp [Cursor.take, first, seen, Ahead.take, after]
    | cons t ts =>
      rw [ahead] at head
      obtain ⟨c', first, after⟩ := exists_of_seen head
      have tail := ih c'
      rw [after, Ahead.take] at tail
      rw [Cursor.take, first, Ahead.take]
      simp only [List.length_cons, Nat.add_le_add_iff_right, List.take_succ_cons,
        List.drop_succ_cons]
      split at tail
      · next enough =>
        obtain ⟨c'', more, rest⟩ := exists_of_seen tail
        simp [seen, more, enough, rest]
      · next short =>
        obtain ⟨c'', more, rest⟩ := exists_of_seen tail
        simp [seen, more, short, rest]

/-- Reading up to a kind depends on the tokens ahead alone. -/
theorem seen_readUntil (wanted : TokenKind) (c : Cursor) :
    seen (c.readUntil wanted) = Ahead.readUntil wanted c.upcoming := by
  generalize ahead : c.upcoming = ts
  induction ts generalizing c with
  | nil =>
    have head := seen_next c
    rw [ahead] at head
    obtain ⟨c', first, after⟩ := exists_of_seen head
    rw [Cursor.readUntil]
    split
    · next e c₁ read => rw [first] at read; cases read; simp [seen, after, Ahead.readUntil]
    · next t c₁ read => rw [first] at read; cases read
  | cons t ts ih =>
    have head := seen_next c
    rw [ahead] at head
    obtain ⟨c', first, after⟩ := exists_of_seen head
    rw [Cursor.readUntil, Ahead.readUntil]
    split
    · next e c₁ read => rw [first] at read; cases read
    · next t₁ c₁ read =>
      rw [first] at read
      cases read
      split
      · simp [seen, after]
      split
      · simp [seen, after]
      split
      · simp [seen, after]
      · have tail := ih c' after
        split
        · next e c'' more =>
          rw [more] at tail
          rw [← tail]
          rfl
        · next read c'' more =>
          rw [more] at tail
          rw [← tail]
          rfl

/-- Comparing reads the tokens ahead without loss: those it read and those it left are the
tokens that were ahead. -/
theorem compare_eq (expected : List Token) (index : Nat) (c : Cursor) :
    (Lookahead.compare index expected c).1 = test expected c.upcoming ∧
      (Lookahead.compare index expected c).2.1 ++
        (Lookahead.compare index expected c).2.2.upcoming = c.upcoming := by
  induction expected generalizing index c with
  | nil => simp [Lookahead.compare, test]
  | cons want expected ih =>
    have head := seen_next c
    cases ahead : c.upcoming with
    | nil =>
      rw [ahead] at head
      obtain ⟨c', first, after⟩ := exists_of_seen head
      simp [Lookahead.compare, first, test, after]
    | cons got ts =>
      rw [ahead] at head
      obtain ⟨c', first, after⟩ := exists_of_seen head
      rw [Lookahead.compare, first, test]
      by_cases same : got = want
      · obtain ⟨answer, kept⟩ := ih (index + 1) c'
        rw [after] at answer kept
        simp [same, answer, kept]
      · simp [same, after]

theorem seen_ask (l : Lookahead) (c : Cursor) :
    seen (l.ask c) = (test l.expected c.upcoming, c.upcoming) := by
  obtain ⟨answer, kept⟩ := compare_eq l.expected 0 (c.remark (.looksFor l.name l.expected))
  simp only [seen, Lookahead.ask, upcoming_putBack, answer, kept, upcoming_remark]

/-- Whether a list ends depends on the tokens ahead alone, and moves none of them. -/
theorem seen_atListEnd (lookaheads : List Lookahead) (names : List String) (c : Cursor) :
    seen (c.atListEnd lookaheads names) =
      (Ahead.atListEnd lookaheads names c.upcoming, c.upcoming) := by
  induction names generalizing c with
  | nil => rfl
  | cons name names ih =>
    rw [Cursor.atListEnd, Ahead.atListEnd]
    cases Lookahead.find lookaheads name with
    | error e => rfl
    | ok lookahead =>
      obtain ⟨c', asked, after⟩ := exists_of_seen (seen_ask lookahead c)
      simp only [asked]
      cases test lookahead.expected c.upcoming with
      | error e => simp [seen, after]
      | ok answer =>
        cases answer with
        | true => simp [seen, after]
        | false => simp only [ih, upcoming_remark, after]

/-- Reading a tag at a cursor is reading it off the tokens ahead. -/
theorem seen_readTag (c : Cursor) : seen c.readTag = Ahead.readTag c.upcoming := by
  rw [Cursor.readTag, Ahead.readTag]
  rcases inside : Ahead.readUntil .rightMeta c.upcoming with ⟨answer, rest⟩
  obtain ⟨c', read, after⟩ := exists_of_seen ((seen_readUntil .rightMeta c).trans inside)
  rw [read]
  cases answer with
  | error e => simp [seen, after]
  | ok tokens =>
    simp only
    cases Node.ofTag tokens with
    | error e => simp [seen, after]
    | ok node =>
      obtain ⟨c'', closing, left⟩ := exists_of_seen (seen_next (c'.remark (.tag tokens)))
      rw [upcoming_remark, after] at closing left
      cases node <;> simp only [closing] <;>
        (cases rest <;> simp_all [seen, Ahead.next])

end Cursor
end Stencil
