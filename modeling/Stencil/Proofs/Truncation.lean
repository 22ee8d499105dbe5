import Stencil.Proofs.Faults

/-!
# A read that fails for good

A source that cannot be read further is a shorter text with an error in its tokens. The lexer that
meets the failure and the lexer of the characters before it go on alike, before the read and behind
it: where the one is told of the failure and sends an error, the other is told that the text has
ended, and from then on neither is given another character (`Lexer.Shortened`). So the tokens are
those of the shorter text, and the error stands where the read was (`run_unreadable_shortened`).

Behind the failing read the two logs are not the same: a broken lexer no longer asks its source,
while the other one may go on asking. They agree in the tokens (`Lexer.Inserted`).
-/

namespace Stencil

/-- The text of the first `n` characters. -/
def Text.upTo (text : String) (n : Nat) : String :=
  String.ofList (text.toList.take n)

/-- Up to the end of the first `n` characters, they are read as from the whole text. -/
theorem Source.read_take (rest : List Char) (n : Nat) :
    read ⟨rest.take (n + 1), none⟩ = (.ok rest.head?, ⟨rest.tail.take n, none⟩) := by
  cases rest with
  | nil =>
    rw [List.take_nil, List.tail_nil, List.take_nil]
    rfl
  | cons c cs => rfl

namespace Lexer

variable {n : Nat} {message : String} {s t : Lexer}

/-- The same tokens were sent, but for an error that `s` sent right behind read number `n`. -/
def Inserted (n : Nat) (message : String) (s t : Lexer) : Prop :=
  ∃ before after after' : List Action, before.count .read = n ∧
    s.actions = after ++ .send (readFailure message) :: .read :: before ∧
    t.actions = after' ++ .read :: before ∧
    after.filterMap (·.token?) = after'.filterMap (·.token?)

/-- A lexer whose read number `n` fails for good, and a lexer of the characters before it. -/
inductive Shortened (n : Nat) (message : String) : Lexer → Lexer → Prop
  | before {s : Lexer} {left : Nat} :
    s.broken = false → s.source.failure = some (left, .unreadable message) → s.reads + left = n →
    Shortened n message s { s with source := ⟨s.source.rest.take left, none⟩ }
  | after {s t : Lexer} :
    s.broken = true → t.broken = false → t.source = ⟨[], none⟩ → s.returned = t.returned →
    s.pending = t.pending → Inserted n message s t → Shortened n message s t

theorem Inserted.send (inserted : Inserted n message s t) (token : Token) :
    Inserted n message (s.send token) (t.send token) := by
  obtain ⟨before, after, after', counted, whole, whole', same⟩ := inserted
  refine ⟨before, .send token :: after, .send token :: after', counted, ?_, ?_, ?_⟩
  · rw [Lexer.send, whole, List.cons_append]
  · rw [Lexer.send, whole', List.cons_append]
  · exact congrArg (token :: ·) same

/-- Asking a text that has ended sends nothing. -/
theorem Inserted.read (inserted : Inserted n message s t) (source : Source) :
    Inserted n message s { t with source, actions := .read :: t.actions } := by
  obtain ⟨before, after, after', counted, whole, whole', same⟩ := inserted
  refine ⟨before, after, .read :: after', counted, whole, ?_, same⟩
  exact congrArg (.read :: ·) whole'

/-- Where one source fails, the other has ended; before that they give the same characters. -/
theorem Shortened.read (shortened : Shortened n message s t) :
    Matched (Shortened n message) (fun _ _ _ => False) (fun _ _ => False) s.read t.read := by
  cases shortened with
  | @before left whole failure counted =>
    by_cases returned : s.returned = []
    · cases left with
      | zero =>
        have fails : s.source.read =
            (.error (.unreadable message), { s.source with failure := none }) := by
          rw [Source.read, failure]
        have ends : Source.read ⟨s.source.rest.take 0, none⟩ = (.ok none, ⟨[], none⟩) := rfl
        rw [read_unreadable returned whole fails,
          read_ok (s := { s with source := ⟨s.source.rest.take 0, none⟩ }) returned whole ends]
        exact .ok (.after rfl whole rfl rfl rfl ⟨s.actions, [], [], counted, rfl, rfl, rfl⟩)
      | succ left =>
        have answer : s.source.read =
            (.ok s.source.rest.head?, ⟨s.source.rest.tail, some (left, .unreadable message)⟩) := by
          rw [Source.read, failure]
        rw [read_ok returned whole answer,
          read_ok (s := { s with source := ⟨s.source.rest.take (left + 1), none⟩ }) returned whole
            (Source.read_take _ left)]
        refine .ok (.before whole rfl ?_)
        rw [reads_read]
        omega
    · obtain ⟨c, cs, returned⟩ := List.exists_cons_of_ne_nil returned
      rw [read_returned returned,
        read_returned (s := { s with source := ⟨s.source.rest.take left, none⟩ }) returned]
      exact .ok (.before whole failure counted)
  | after broken whole ended returned pending inserted =>
    by_cases nothing : s.returned = []
    · have answer : t.source.read = (.ok none, ⟨[], none⟩) := by
        rw [ended]
        rfl
      rw [read_broken nothing broken, read_ok (returned ▸ nothing) whole answer]
      exact .ok (.after broken whole rfl returned pending (inserted.read _))
    · obtain ⟨c, cs, some⟩ := List.exists_cons_of_ne_nil nothing
      rw [read_returned some, read_returned (returned ▸ some)]
      exact .ok (.after broken whole ended rfl pending inserted)

/-- A run whose read fails for good goes on as on the characters before that read. -/
theorem simulation_shortened (n : Nat) (message : String) :
    Simulation (Shortened n message) (fun _ _ _ => False) fun _ _ => False where
  returned shortened := by
    cases shortened with
    | before => rfl
    | after _ _ _ returned _ _ => exact returned
  pending shortened := by
    cases shortened with
    | before => rfl
    | after _ _ _ _ pending _ => exact pending
  read := Shortened.read
  giveBack cs shortened := by
    cases shortened with
    | before whole failure counted => exact .before whole failure counted
    | after broken whole ended _ pending inserted =>
      exact .after broken whole ended rfl pending inserted
  hold cs shortened := by
    cases shortened with
    | before whole failure counted => exact .before whole failure counted
    | after broken whole ended returned _ inserted =>
      exact .after broken whole ended returned rfl inserted
  send token shortened := by
    cases shortened with
    | before whole failure counted => exact .before whole failure counted
    | after broken whole ended returned pending inserted =>
      exact .after broken whole ended returned pending (inserted.send token)
  apart := False.elim

variable {text : String}

/-- The runs on a source that fails for good and on the text before the failure leave lexers that
differ in the failure alone. -/
theorem exists_shortened (n : Nat) (message text : String) :
    ∃ s t : Lexer, finish .text { source := .failingAt n (.unreadable message) text } = .ok () s ∧
      finish .text { source := .ofText (Text.upTo text n) } = .ok () t ∧
        Shortened n message s t := by
  have start : Shortened n message { source := .failingAt n (.unreadable message) text }
      { source := .ofText (Text.upTo text n) } := by
    rw [Source.ofText, Text.upTo, String.toList_ofList]
    exact .before rfl rfl (Nat.zero_add n)
  have matched := (uniform_finish .text).keeps (simulation_shortened n message) start
  generalize finish .text { source := .failingAt n (.unreadable message) text } = x at matched ⊢
  generalize finish .text { source := .ofText (Text.upTo text n) } = y at matched ⊢
  cases matched with
  | ok shortened => exact ⟨_, _, rfl, rfl, shortened⟩
  | crash never => cases never
  | apart never => cases never

theorem run_of_finish {source : Source} (done : finish .text { source } = .ok () s) :
    run source = ⟨s.actions.reverse, none⟩ := by
  rw [run_eq, done]
  rfl

theorem sentBefore_of_suffix {before : List Action} (counted : before.count .read = n)
    (suffix : .read :: before <:+ s.actions) :
    Lexing.sentBefore ⟨s.actions.reverse, none⟩ n = before.reverse.filterMap (·.token?) := by
  rw [Lexing.sentBefore, upTo_of_suffix suffix counted]

/-- The error stands between the tokens sent before the read and those sent behind it. -/
theorem Inserted.bodies (inserted : Inserted n message s t) :
    ∃ before after : List Token,
      Lexing.sentBefore ⟨s.actions.reverse, none⟩ n = before ∧
        Lexing.sentBefore ⟨t.actions.reverse, none⟩ n = before ∧
        Lexing.body ⟨t.actions.reverse, none⟩ = before ++ after ∧
        Lexing.body ⟨s.actions.reverse, none⟩ = before ++ readFailure message :: after := by
  obtain ⟨before, after, after', counted, whole, whole', same⟩ := inserted
  have suffix : .read :: before <:+ s.actions := by
    rw [whole]
    exact (List.suffix_cons _ _).trans (List.suffix_append _ _)
  have suffix' : .read :: before <:+ t.actions := by
    rw [whole']
    exact List.suffix_append _ _
  have same' : after'.reverse.filterMap (·.token?) = after.reverse.filterMap (·.token?) := by
    rw [List.filterMap_reverse, List.filterMap_reverse, same]
  refine ⟨before.reverse.filterMap (·.token?), after.reverse.filterMap (·.token?),
    sentBefore_of_suffix counted suffix, sentBefore_of_suffix counted suffix', ?_, ?_⟩
  · rw [Lexing.body, whole', List.reverse_append, List.reverse_cons, List.append_assoc,
      List.filterMap_append, List.filterMap_append, same']
    rfl
  · rw [Lexing.body, whole, List.reverse_append, List.reverse_cons, List.reverse_cons,
      List.append_assoc, List.append_assoc, List.filterMap_append, List.filterMap_append,
      List.filterMap_append]
    rfl

end Lexer

open Lexer

/-- A source that cannot be read further is a shorter text with an error in its tokens. If the
failing read is not performed, the run is that of the whole text. If it is, the tokens are those of
the characters before it, with one error more, which is sent right behind the tokens that were sent
before the read; and the lexer does not crash. -/
theorem run_unreadable_shortened (text message : String) (n : Nat) :
    ((run (.ofText text)).reads ≤ n →
        run (.failingAt n (.unreadable message) text) = run (.ofText text)) ∧
      (n < (run (.ofText text)).reads →
        ∃ before after : List Token,
          (run (.ofText text)).sentBefore n = before ∧
            (run (.failingAt n (.unreadable message) text)).sentBefore n = before ∧
            (run (.ofText (Text.upTo text n))).sentBefore n = before ∧
            (run (.ofText (Text.upTo text n))).tokens = before ++ after ++ [.endOfInput] ∧
            (run (.failingAt n (.unreadable message) text)).tokens =
              before ++ readFailure message :: after ++ [.endOfInput] ∧
            (run (.failingAt n (.unreadable message) text)).crash = none) := by
  refine ⟨run_failingAt_of_le _, fun performed => ?_⟩
  obtain ⟨same, performed'⟩ := upTo_failingAt (.unreadable message) performed
  obtain ⟨s, t, done, done', shortened⟩ := exists_shortened n message text
  rw [reads_run, done] at performed'
  rw [Lexing.sentBefore, ← same, ← Lexing.sentBefore, Lexing.tokens_eq, Lexing.tokens_eq,
    run_of_finish done, run_of_finish done']
  cases shortened with
  | before _ _ counted =>
    rw [Outcome.lexer] at performed'
    omega
  | after _ _ _ _ _ inserted =>
    obtain ⟨before, after, sent, sent', body', body⟩ := inserted.bodies
    exact ⟨before, after, sent, sent, sent', by rw [body'], by rw [body], rfl⟩

/-- A failure of the look behind a single brace: the text that is pending comes behind the error. -/
theorem run_unreadable_shortened_brace :
    7 < (run (.ofText "\x7b\x7bx\x7d\x7da\x7bb")).reads ∧
      (run (.failingAt 7 (.unreadable "gone") "\x7b\x7bx\x7d\x7da\x7bb")).tokens =
        [.left, ⟨.ident, "x"⟩, .right, readFailure "gone", ⟨.text, "a\x7b"⟩, .endOfInput] := by
  have performed : 7 < (run (.ofText "\x7b\x7bx\x7d\x7da\x7bb")).reads := by decide +kernel
  obtain ⟨before, after, sent, -, -, tokens, failing, -⟩ :=
    (run_unreadable_shortened "\x7b\x7bx\x7d\x7da\x7bb" "gone" 7).2 performed
  have sent' : (run (.ofText "\x7b\x7bx\x7d\x7da\x7bb")).sentBefore 7 =
      [.left, ⟨.ident, "x"⟩, .right] := by decide +kernel
  have tokens' : (run (.ofText (Text.upTo "\x7b\x7bx\x7d\x7da\x7bb" 7))).tokens =
      [.left, ⟨.ident, "x"⟩, .right] ++ [⟨.text, "a\x7b"⟩] ++ [.endOfInput] := by decide +kernel
  obtain rfl := sent.symm.trans sent'
  obtain rfl := List.append_cancel_left (List.append_cancel_right (tokens.symm.trans tokens'))
  exact ⟨performed, failing⟩

end Stencil
