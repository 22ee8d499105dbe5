import Stencil.Proofs.PrefixTest

/-!
# The height of the stack

A parser has never more tokens on the stack of those put back than a mark has (`Parser.low_parse`).
Tokens are put back in two places. One that was just read may go back, to its own place or onto an
empty stack; and a lookahead puts back what it has just read, so that above that the stack is what
it was. All else takes tokens off.

A cursor remembers the highest its stack has been, and no cursor can have a higher stack, so the
bound holds at each moment of the parse.
-/

namespace Stencil

namespace Cursor

/-- There were never more tokens on the stack than make up a mark. -/
def Low (c : Cursor) : Prop :=
  c.peak ≤ markLength

variable {α : Type} {c c' : Cursor} {t : Token}

/-- An operation with the result `r` leaves the cursor of `r`. -/
theorem Low.of_eq {r : α × Cursor} {a : α} (low : r.2.Low) (result : r = (a, c')) : c'.Low := by
  rw [result] at low
  exact low

theorem Low.next (low : c.Low) : c.next.2.Low := by
  rw [Low, peak_next]
  exact low

theorem Low.remark (low : c.Low) (note : Note) : (c.remark note).Low :=
  low

/-- A token that was just read may be put back: it takes its own place, or the stack was empty. -/
theorem Low.putBack_next (low : c.Low) (next : c.next = (.ok t, c')) : (c'.putBack [t]).Low := by
  have peak := peak_next c
  rw [next] at peak
  have bound : c.peak ≤ 3 := low
  have height := c.height_le
  rw [Low, peak_putBack, (places_putBack _ _).1, (places_of_next next).1, peak, markLength]
  simp only [List.length_append, List.length_singleton, List.length_drop]
  omega

/-- Comparing only reads. -/
theorem peak_compare (expected : List Token) (index : Nat) (c : Cursor) :
    (Lookahead.compare index expected c).2.2.peak = c.peak := by
  induction expected generalizing index c with
  | nil => rfl
  | cons want expected ih =>
    have peak := peak_next c
    rcases next : c.next with ⟨answer | t, c'⟩
    · rw [next] at peak
      rw [compare_error next]
      exact peak
    · rw [next] at peak
      by_cases same : t = want
      · subst same
        rw [compare_same next]
        exact (ih (index + 1) c').trans peak
      · rw [compare_other next same]
        exact peak

/-- A lookahead puts back what it has just read, and no more. -/
theorem Low.ask {l : Lookahead} (low : c.Low) (member : l ∈ Lookahead.standard) :
    (l.ask c).2.Low := by
  have sized : ∀ l ∈ Lookahead.standard, l.expected.length = 3 := by decide
  have peak : (l.ask c).2.peak = max c.peak (l.ask c).2.returned.length := by
    rw [Lookahead.ask, peak_putBack, peak_compare]
    rfl
  obtain ⟨read, returned, -, short, -⟩ := places_of_ask l c
  rw [sized l member] at short
  have bound : c.peak ≤ 3 := low
  have height := c.height_le
  rw [Low, peak, returned, markLength]
  simp only [List.length_append, List.length_drop]
  omega

/-- Reading up to a delimiter puts one token back, the delimiter. -/
theorem Low.readUntil (low : c.Low) (wanted : TokenKind) : (c.readUntil wanted).2.Low := by
  fun_induction Cursor.readUntil wanted c with
  | case1 c e c' next => exact low.next.of_eq next
  | case2 c t c' next found => exact low.putBack_next next
  | case3 c t c' next => exact low.next.of_eq next
  | case4 c t c' next => exact low.next.of_eq next
  | case5 c t c' next other inner sound e c'' more ih =>
    exact (ih (low.next.of_eq next)).of_eq more
  | case6 c t c' next other inner sound ts c'' more ih =>
    exact (ih (low.next.of_eq next)).of_eq more

theorem Low.take (low : c.Low) (n : Nat) : (c.take n).2.Low := by
  fun_induction Cursor.take n c with
  | case1 c => exact low
  | case2 n c e c' next => exact low.next.of_eq next
  | case3 n c t c' next e c'' more ih => exact (ih (low.next.of_eq next)).of_eq more
  | case4 n c t c' next ts c'' more ih => exact (ih (low.next.of_eq next)).of_eq more

theorem Low.readTag (low : c.Low) : c.readTag.2.Low := by
  unfold Cursor.readTag
  split
  · next inner => exact (low.readUntil _).of_eq inner
  · next tokens c' inner =>
    have tag := ((low.readUntil _).of_eq inner).remark (.tag tokens)
    split
    · exact tag
    · exact tag
    · exact tag
    · simp only
      split <;> next closing => exact tag.next.of_eq closing

/-- A list asks one lookahead after the other, and each puts back what it read. -/
theorem Low.atListEnd (low : c.Low) (names : List String) :
    (c.atListEnd Lookahead.standard names).2.Low := by
  induction names generalizing c with
  | nil => exact low
  | cons name names ih =>
    rw [Cursor.atListEnd]
    split
    · exact low
    · next l found =>
      have asked := low.ask (Parser.mem_of_find found).1
      split
      · next answer => exact asked.of_eq answer
      · next answer => exact (asked.of_eq answer).remark _
      · next answer => exact ih ((asked.of_eq answer).remark _)

end Cursor

namespace Parser

theorem low_finishBranch {α : Type} {p : Parser} (low : p.cursor.Low) (left : α) :
    (p.finishBranch left).parser.cursor.Low := by
  unfold finishBranch
  split <;> next taken => exact (low.take _).of_eq taken

/-- Parsing within a bound keeps the stack low, in a list and in a node. -/
def LowWithin (bound : Nat) : Prop :=
  (∀ root names p, p.cursor.Low → (parseItems {} root names bound p).parser.cursor.Low) ∧
    ∀ node p, p.cursor.Low → (parseBody {} bound node p).parser.cursor.Low

/-- Parsing the items of a list keeps the stack low, if parsing within the next lower bound does.
-/
theorem low_parseItems {bound : Nat} (below : LowWithin bound) (root : Bool)
    (names : List String) {p : Parser} (low : p.cursor.Low) :
    (parseItems {} root names (bound + 1) p).parser.cursor.Low := by
  have ends := low.atListEnd names
  rw [parseItems]
  split
  · next asked => exact ends.of_eq asked
  · next asked => exact ends.of_eq asked
  next c asked =>
  have started : c.next.2.Low := (ends.of_eq asked).next
  split
  · next first => exact started.of_eq first
  next t c₁ first =>
  have started := started.of_eq first
  split
  · split
    · next tag => exact started.readTag.of_eq tag
    next node c₂ tag =>
    have item := below.2 node { p with cursor := c₂ } (started.readTag.of_eq tag)
    simp only
    split
    · exact item
    · exact below.1 root names _ item
  · exact below.1 root names { p with cursor := c₁ } started
  · exact started
  · split <;> exact started
  · exact started

/-- Parsing what belongs to a node keeps the stack low, if parsing within the next lower bound
does. -/
theorem low_parseBody {bound : Nat} (below : LowWithin bound) (node : Node) {p : Parser}
    (low : p.cursor.Low) : (parseBody {} (bound + 1) node p).parser.cursor.Low := by
  cases node with
  | list root names children =>
    rw [parseBody]
    exact below.1 root names p low
  | block condition whenTrue whenFalse =>
    rw [parseBody]
    split
    · exact low
    split
    · exact low
    have branch := below.1 false firstEnd { p with depth := p.depth + 1 } low
    simp only [firstEnd] at branch ⊢
    generalize parseItems {} false ["before_end", "before_else"] bound
      { p with depth := p.depth + 1 } = first at branch ⊢
    split
    · exact branch
    have asked : (Lookahead.beforeEnd.ask first.parser.cursor).2.Low :=
      branch.ask (by simp [Lookahead.standard])
    split
    · next answer => exact asked.of_eq answer
    · next c answer =>
      exact low_finishBranch (p := { first.parser with cursor := c }) (asked.of_eq answer) _
    next c answer =>
    have asked : (Lookahead.beforeElse.ask c).2.Low :=
      (asked.of_eq answer).ask (by simp [Lookahead.standard])
    split
    · next answer => exact asked.of_eq answer
    · next answer => exact asked.of_eq answer
    next c answer =>
    have marked : (c.take Cursor.markLength).2.Low := (asked.of_eq answer).take _
    split
    · next taken => exact marked.of_eq taken
    next c taken =>
    have branch' := below.1 false Grammar.secondBranchEnd { first.parser with cursor := c }
      (marked.of_eq taken)
    split
    · exact branch'
    · exact low_finishBranch branch' _
  | _ => exact low

theorem low_within (bound : Nat) : LowWithin bound := by
  induction bound with
  | zero => exact ⟨fun _ _ _ low => low, fun _ _ low => low⟩
  | succ bound ih =>
    exact ⟨fun root names _ => low_parseItems ih root names, fun node _ => low_parseBody ih node⟩

/-- In the course of parsing there are never more than three tokens on the stack. -/
theorem low_parse (node : Node) {p : Parser} (low : p.cursor.Low) :
    (parse {} node p).parser.cursor.Low :=
  (low_within _).2 node p low

end Parser
end Stencil
