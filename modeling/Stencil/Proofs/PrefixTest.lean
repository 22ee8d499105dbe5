import Stencil.Proofs.Grammar

/-!
# Lookaheads are tests for a prefix

A lookahead asks whether the tokens ahead start with the expected ones. It has to read them to
know, and they may lie on the stack of tokens put back, or in the stream, or on both; but it puts
back what it read, so nothing but where they lie can change. `Lookahead.ask_tests_prefix` says
what the answer is, and that no more is fetched from the stream than the answer needs.

Where a list may end before any of several lookaheads, these are asked one by one, up to the first
that is true. The lookaheads of templates are all of one length, so that where one is true none can
run out of tokens, and the order in which they are asked makes no difference (`atListEnd_perm`).
-/

namespace Stencil

/-! ## What a lookahead reads -/

namespace Cursor

variable {c c' : Cursor} {t want : Token} {expected : List Token} {index : Nat}

/-- A token is taken off the stack, or from the stream if the stack is empty. -/
theorem places_of_next (next : c.next = (.ok t, c')) :
    c'.returned = c.returned.drop 1 ∧ c'.stream = c.stream.drop (1 - c.returned.length) := by
  rcases c with ⟨returned, stream⟩
  cases returned with
  | nil =>
    cases stream with
    | nil => cases next
    | cons u us => cases next; exact ⟨rfl, rfl⟩
  | cons u us => cases next; exact ⟨rfl, by simp [pop]⟩

theorem places_of_next_error {e : Failure} (next : c.next = (.error e, c')) :
    c'.returned = c.returned ∧ c'.stream = c.stream := by
  rcases c with ⟨returned, stream⟩
  cases returned with
  | nil =>
    cases stream with
    | nil => cases next; exact ⟨rfl, rfl⟩
    | cons u us => cases next
  | cons u us => cases next

theorem places_putBack (ts : List Token) (c : Cursor) :
    (c.putBack ts).returned = ts ++ c.returned ∧ (c.putBack ts).stream = c.stream := by
  cases ts <;> exact ⟨rfl, rfl⟩

theorem compare_same (next : c.next = (.ok want, c')) :
    Lookahead.compare index (want :: expected) c =
      ((Lookahead.compare (index + 1) expected c').1,
        want :: (Lookahead.compare (index + 1) expected c').2.1,
        (Lookahead.compare (index + 1) expected c').2.2) := by
  rw [Lookahead.compare, next]
  simp only [if_true]

theorem compare_other (next : c.next = (.ok t, c')) (other : t ≠ want) :
    Lookahead.compare index (want :: expected) c =
      (.ok false, [t], c'.remark (.mismatch want t index)) := by
  rw [Lookahead.compare, next]
  simp only [other, if_false]

theorem compare_error {e : Failure} (next : c.next = (.error e, c')) :
    Lookahead.compare index (want :: expected) c = (.error e, [], c') := by
  rw [Lookahead.compare, next]

/-- What comparing reads comes off the stack first, and then from the stream. -/
theorem places_of_compare (expected : List Token) (index : Nat) (c : Cursor) :
    (Lookahead.compare index expected c).2.2.returned =
        c.returned.drop (Lookahead.compare index expected c).2.1.length ∧
      (Lookahead.compare index expected c).2.2.stream =
        c.stream.drop ((Lookahead.compare index expected c).2.1.length - c.returned.length) := by
  induction expected generalizing index c with
  | nil => simp [Lookahead.compare]
  | cons want expected ih =>
    rcases next : c.next with ⟨answer | t, c'⟩
    · rw [compare_error next]
      simpa using places_of_next_error next
    obtain ⟨returned, stream⟩ := places_of_next next
    by_cases same : t = want
    · subst same
      obtain ⟨returned', stream'⟩ := ih (index + 1) c'
      rw [compare_same next, List.length_cons]
      refine ⟨by rw [returned', returned, List.drop_drop, Nat.add_comm], ?_⟩
      rw [stream', stream, returned, List.drop_drop, List.length_drop]
      congr 1
      omega
    · rw [compare_other next same]
      exact ⟨returned, stream⟩

/-- Comparing stops at the first token that differs. -/
theorem length_compare_le (expected : List Token) (index : Nat) (c : Cursor) :
    (Lookahead.compare index expected c).2.1.length ≤ expected.length ∧
      ∀ n, ¬c.upcoming.take n <+: expected →
        (Lookahead.compare index expected c).2.1.length ≤ n := by
  induction expected generalizing index c with
  | nil => simp [Lookahead.compare]
  | cons want expected ih =>
    rcases next : c.next with ⟨answer | t, c'⟩
    · simp [compare_error next]
    have some : ∀ n, ¬c.upcoming.take n <+: want :: expected → 1 ≤ n := by
      intro n early
      refine Nat.pos_of_ne_zero fun none => early ?_
      rw [none, List.take_zero]
      exact List.nil_prefix
    by_cases same : t = want
    · subst same
      obtain ⟨all, differs⟩ := ih (index + 1) c'
      rw [compare_same next, List.length_cons, List.length_cons]
      refine ⟨Nat.succ_le_succ all, fun n early => ?_⟩
      obtain ⟨n, rfl⟩ := Nat.exists_eq_add_of_le' (some n early)
      rw [upcoming_of_next next, List.take_succ_cons, List.prefix_cons_inj] at early
      exact Nat.succ_le_succ (differs n early)
    · rw [compare_other next same]
      exact ⟨Nat.succ_le_succ (Nat.zero_le _), some⟩

/-- After a lookahead, what it read is back on the stack, and what it did not read is where it
was. -/
theorem places_of_ask (l : Lookahead) (c : Cursor) : ∃ read : List Token,
    (l.ask c).2.returned = read ++ c.returned.drop read.length ∧
      (l.ask c).2.stream = c.stream.drop (read.length - c.returned.length) ∧
      read.length ≤ l.expected.length ∧
      ∀ n, ¬c.upcoming.take n <+: l.expected → read.length ≤ n := by
  have places := places_of_compare l.expected 0 (c.remark (.looksFor l.name l.expected))
  have lengths := length_compare_le l.expected 0 (c.remark (.looksFor l.name l.expected))
  rw [Lookahead.ask]
  generalize Lookahead.compare 0 l.expected (c.remark (.looksFor l.name l.expected)) = compared
    at places lengths ⊢
  obtain ⟨answer, read, c'⟩ := compared
  obtain ⟨returned, stream⟩ := places
  obtain ⟨returned', stream'⟩ := places_putBack read c'
  exact ⟨read, by rw [returned', returned]; rfl, by rw [stream', stream]; rfl, lengths⟩

end Cursor

/-! ## The order of lookaheads -/

namespace Parser

open Ahead

variable {names names' : List String} {ts : List Token}

/-- A lookahead is false where the tokens differ. -/
theorem test_eq_false_iff {expected : List Token} :
    test expected ts = .ok false ↔ ¬expected <+: ts ∧ ¬ts <+: expected := by
  constructor
  · intro fails
    refine ⟨fun whole => ?_, fun inside => ?_⟩
    · rw [test_eq_true_iff.mpr whole] at fails
      cases fails
    · by_cases same : ts = expected
      · rw [test_eq_true_iff.mpr (same ▸ List.prefix_rfl)] at fails
        cases fails
      · rw [test_eq_error_iff.mpr ⟨rfl, inside, same⟩] at fails
        cases fails
  · rintro ⟨notWhole, notInside⟩
    rcases answer : test expected ts with e | _ | _
    · exact absurd (test_eq_error_iff.mp answer).2.1 notInside
    · rfl
    · exact absurd (test_eq_true_iff.mp answer) notWhole

/-- Where one lookahead of templates is true, none runs out of tokens. -/
theorem test_ne_error_of_true {l l' : Lookahead} {e : Failure} (member : l ∈ Lookahead.standard)
    (member' : l' ∈ Lookahead.standard) (holds : test l.expected ts = .ok true) :
    test l'.expected ts ≠ .error e := by
  have sized : ∀ l ∈ Lookahead.standard, l.expected.length = Cursor.markLength := by decide
  intro short
  have enough := (test_eq_true_iff.mp holds).length_le
  obtain ⟨-, inside, other⟩ := test_eq_error_iff.mp short
  have same := inside.eq_of_length_le (by rw [sized l' member', ← sized l member]; exact enough)
  exact other same

/-- Two lookaheads of templates may be asked in either order. -/
theorem atListEnd_swap {name name' : String} (known : name ∈ firstEnd) (known' : name' ∈ firstEnd) :
    atListEnd Lookahead.standard (name :: name' :: names) ts =
      atListEnd Lookahead.standard (name' :: name :: names) ts := by
  obtain ⟨l, member, found⟩ := find_of_mem_firstEnd known
  obtain ⟨l', member', found'⟩ := find_of_mem_firstEnd known'
  have apart : test l.expected ts = .ok true → ∀ e, test l'.expected ts ≠ .error e :=
    fun holds e => test_ne_error_of_true member member' holds
  have apart' : test l'.expected ts = .ok true → ∀ e, test l.expected ts ≠ .error e :=
    fun holds e => test_ne_error_of_true member' member holds
  simp only [atListEnd, found, found']
  rcases answer : test l.expected ts with e | _ | _ <;>
    rcases answer' : test l'.expected ts with e' | _ | _
  case error.error =>
    rw [(test_eq_error_iff.mp answer).1, (test_eq_error_iff.mp answer').1]
  case error.ok.true => exact absurd answer (apart' answer' e)
  case ok.true.error => exact absurd answer' (apart answer e')
  all_goals rfl

/-- Whether a list ends does not depend on the order of the lookaheads that may end it. -/
theorem atListEnd_perm (known : names ⊆ firstEnd) (perm : names.Perm names') :
    atListEnd Lookahead.standard names ts = atListEnd Lookahead.standard names' ts := by
  induction perm with
  | nil => rfl
  | @cons name names names' _ ih =>
    rw [atListEnd, atListEnd, ih fun _ member => known (List.mem_cons_of_mem _ member)]
  | swap name name' names => exact atListEnd_swap (known (by simp)) (known (by simp))
  | trans perm _ ih ih' =>
    exact (ih known).trans (ih' fun _ member => known (perm.mem_iff.mpr member))

end Parser

namespace Lookahead

open Stencil.Parser

/-- The marks of templates exclude each other. -/
theorem not_beforeEnd_and_beforeElse (c : Cursor) :
    ¬((beforeEnd.ask c).1 = .ok true ∧ (beforeElse.ask c).1 = .ok true) := by
  rintro ⟨ends, elses⟩
  have answer : ∀ l : Lookahead, (l.ask c).1 = Ahead.test l.expected c.upcoming :=
    fun l => (Prod.mk.inj (Cursor.seen_ask l c)).1
  rw [answer, Ahead.test_eq_true_iff] at ends elses
  obtain ⟨rest, ends⟩ := ends
  obtain ⟨rest', elses⟩ := elses
  exact endTag_append_ne (ends.trans elses.symm)

/-- A lookahead is a pure test for a prefix. It is true exactly if the expected tokens come first,
fails exactly if the tokens ahead end inside them, and is false otherwise. Whatever comes of it,
the tokens ahead stay as they are, so that the same question has the same answer again; and what
is fetched from the stream is no more than the tokens expected, and no more than it takes to come
to a token that differs. Of the marks of templates at most one is true, and the order in which a
list names them makes no difference. -/
theorem ask_tests_prefix (l : Lookahead) (c : Cursor) :
    ((l.ask c).1 = .ok true ↔ l.expected <+: c.upcoming) ∧
      (∀ e, (l.ask c).1 = .error e ↔
        e = .streamClosed ∧ c.upcoming <+: l.expected ∧ c.upcoming ≠ l.expected) ∧
      ((l.ask c).1 = .ok false ↔ ¬l.expected <+: c.upcoming ∧ ¬c.upcoming <+: l.expected) ∧
      ((l.ask c).2.upcoming = c.upcoming ∧ (l.ask (l.ask c).2).1 = (l.ask c).1) ∧
      (∃ fetched, c.stream = fetched ++ (l.ask c).2.stream ∧
        fetched.length ≤ l.expected.length - c.returned.length ∧
        ∀ n, ¬c.upcoming.take n <+: l.expected → fetched.length ≤ n - c.returned.length) ∧
      ¬((beforeEnd.ask c).1 = .ok true ∧ (beforeElse.ask c).1 = .ok true) ∧
      ∀ names names', names ⊆ firstEnd → names.Perm names' →
        Cursor.seen (c.atListEnd standard names) = Cursor.seen (c.atListEnd standard names') := by
  have seen : ∀ c : Cursor, (l.ask c).1 = Ahead.test l.expected c.upcoming ∧
      (l.ask c).2.upcoming = c.upcoming := fun c => Prod.mk.inj (Cursor.seen_ask l c)
  obtain ⟨answer, kept⟩ := seen c
  refine ⟨by rw [answer, Ahead.test_eq_true_iff], fun e => by rw [answer, Ahead.test_eq_error_iff],
    by rw [answer, test_eq_false_iff], ⟨kept, ?_⟩, ?_, not_beforeEnd_and_beforeElse c,
    fun names names' known perm => ?_⟩
  · rw [(seen _).1, kept, answer]
  · obtain ⟨read, -, stream, all, differs⟩ := Cursor.places_of_ask l c
    refine ⟨c.stream.take (read.length - c.returned.length), ?_, ?_, fun n early => ?_⟩
    · rw [stream, List.take_append_drop]
    · rw [List.length_take]
      omega
    · have := differs n early
      rw [List.length_take]
      omega
  · rw [Cursor.seen_atListEnd, Cursor.seen_atListEnd, atListEnd_perm known perm]

/-- A mark that the tokens on the stack and in the stream come close to: of the stream, one token
is needed to see that they differ from it. -/
theorem ask_tests_prefix_apart :
    (∃ fetched, [Token.elseMark, .right, .endOfInput] =
        fetched ++ (beforeEnd.ask
          { returned := [.left], stream := [.elseMark, .right, .endOfInput] }).2.stream ∧
        fetched.length ≤ 1) ∧
      Cursor.seen (Cursor.atListEnd standard ["before_end", "before_else"]
          { returned := [.left], stream := [.elseMark, .right, .endOfInput] }) =
        Cursor.seen (Cursor.atListEnd standard ["before_else", "before_end"]
          { returned := [.left], stream := [.elseMark, .right, .endOfInput] }) := by
  obtain ⟨-, -, -, -, ⟨fetched, whole, -, early⟩, -, anyOrder⟩ := ask_tests_prefix beforeEnd
    { returned := [.left], stream := [.elseMark, .right, .endOfInput] }
  refine ⟨⟨fetched, whole, early 2 ?_⟩, anyOrder _ _ ?_ ?_⟩
  · decide
  · decide
  · exact List.Perm.swap _ _ _

end Lookahead
end Stencil
