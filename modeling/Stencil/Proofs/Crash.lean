import Stencil.Proofs.Acceptance
import Stencil.Proofs.Discipline
import Stencil.Proofs.Faults

/-!
# What is left of a crash

A lexer that crashes has sent a part of the true tokens, from their start, and nothing that is not
among them: a token is sent when what is still to be read can no longer change it. So the tokens
that come before read number `n` are decided by the first `n` characters (`sentBefore_of_take`),
and every text that starts with these is lexed to tokens that start with those
(`run_crash_sent`).
-/

namespace Stencil

/-- Texts that start with the same `n` characters answer the first `n` reads alike. -/
theorem Source.agrees_of_take {n : Nat} {cs ds : List Char} (long : n ≤ cs.length)
    (same : cs.take n <+: ds) : Agrees n ⟨cs, none⟩ ⟨ds, none⟩ := by
  induction n generalizing cs ds with
  | zero => exact trivial
  | succ n ih =>
    cases cs with
    | nil => cases long
    | cons c cs =>
      obtain ⟨more, rfl⟩ := same
      refine ⟨some c, rfl, rfl, ih (Nat.le_of_succ_le_succ long) ?_⟩
      exact List.prefix_append _ _

open Lexer

variable {n : Nat} {text text' : String} {source : Source} {fault : Fault}

/-- The tokens sent before a read that is performed are decided by the characters before it. -/
theorem sentBefore_of_take (performed : n < (run (.ofText text)).reads)
    (long : n ≤ text.toList.length) (same : text.toList.take n <+: text'.toList) :
    (run (.ofText text)).sentBefore n = (run (.ofText text')).sentBefore n := by
  have agrees : Source.Agrees n (.ofText text) (.ofText text') :=
    Source.agrees_of_take long same
  have alike := (upTo_of_agrees agrees performed).1
  rw [Lexing.sentBefore, Lexing.sentBefore, alike]

/-- A text is lexed to the tokens that are sent before a read, and to more. -/
theorem exists_tokenize_eq_append (text : String) (n : Nat) :
    ∃ more, tokenize (.ofText text) =
      .ok ((run (.ofText text)).sentBefore n ++ more ++ [.endOfInput]) := by
  obtain ⟨more, whole⟩ := Lexing.sentBefore_prefix (run (.ofText text)) n
  refine ⟨more, ?_⟩
  rw [tokenize_ofText, whole, (run_ofText text).1]

theorem tokenize_of_crash (crash : (run source).crash = some fault) :
    tokenize source = .error (.lexerFailed fault.message) := by
  simp only [tokenize, Compilation.lexerFailure, crash]
  rfl

/-- A lexer that crashes sends a part of the true tokens. If the read that would crash is not
performed, the run is that of the text. If it is, what goes into the channel is the tokens that the
text has sent before that read, the end of the input and the close; every text that starts with the
characters before the read is lexed to tokens that start with these; and the crash is kept, so that
lexing all of the source reports it. -/
theorem run_crash_sent (text label message : String) (n : Nat) :
    ((run (.ofText text)).reads ≤ n →
        run (.failingAt n (.crash label message) text) = run (.ofText text) ∧
          (run (.failingAt n (.crash label message) text)).crash = none) ∧
      (n < (run (.ofText text)).reads →
        (run (.failingAt n (.crash label message) text)).parcels =
            Parcel.stream ((run (.ofText text)).sentBefore n ++ [.endOfInput]) ∧
          (run (.failingAt n (.crash label message) text)).crash = some (.crash label message) ∧
          (∃ more, tokenize (.ofText text) =
            .ok ((run (.ofText text)).sentBefore n ++ more ++ [.endOfInput])) ∧
          (n ≤ text.toList.length → ∀ text' : String, text.toList.take n <+: text'.toList →
            ∃ more, tokenize (.ofText text') =
              .ok ((run (.ofText text)).sentBefore n ++ more ++ [.endOfInput])) ∧
          tokenize (.failingAt n (.crash label message) text) = .error (.lexerFailed message) ∧
          (Failure.lexerFailed message).category = .internal ∧
          (Failure.lexerFailed message).message = "lexer failed: " ++ message) := by
  refine ⟨fun enough => ?_, fun performed => ?_⟩
  · have same := run_failingAt_of_le (.crash label message) enough
    refine ⟨same, ?_⟩
    rw [same]
    exact (run_ofText text).2
  · have failing := run_crash label message performed
    have crash : (run (.failingAt n (.crash label message) text)).crash =
        some (.crash label message) := by
      rw [failing]
    have body : (run (.failingAt n (.crash label message) text)).body =
        (run (.ofText text)).sentBefore n := by
      rw [Lexing.body, failing, List.filterMap_append]
      exact List.append_nil _
    refine ⟨?_, crash, exists_tokenize_eq_append text n, ?_, tokenize_of_crash crash, rfl, rfl⟩
    · rw [parcels_run, body]
    · intro long text' same
      rw [sentBefore_of_take performed long same]
      exact exists_tokenize_eq_append text' n

/-- A crash inside a word: the word is not sent, and a text in which it goes on is lexed on. -/
theorem run_crash_sent_word :
    6 < (run (.ofText "a\x7b\x7bend\x7d\x7d")).reads ∧
      (run (.failingAt 6 (.crash "ValueError" "gone") "a\x7b\x7bend\x7d\x7d")).parcels =
        [.token ⟨.text, "a"⟩, .token .left, .token .endOfInput, .closing] ∧
      "a\x7b\x7bend\x7d\x7d".toList.take 6 <+: "a\x7b\x7bending\x7d\x7d".toList ∧
      ∃ more, tokenize (.ofText "a\x7b\x7bending\x7d\x7d") =
        .ok ([⟨.text, "a"⟩, .left] ++ more ++ [.endOfInput]) := by
  have performed : 6 < (run (.ofText "a\x7b\x7bend\x7d\x7d")).reads := by decide +kernel
  have sent : (run (.ofText "a\x7b\x7bend\x7d\x7d")).sentBefore 6 = [⟨.text, "a"⟩, .left] := by
    decide +kernel
  obtain ⟨parcels, -, -, extended, -⟩ :=
    (run_crash_sent "a\x7b\x7bend\x7d\x7d" "ValueError" "gone" 6).2 performed
  have same : "a\x7b\x7bend\x7d\x7d".toList.take 6 <+: "a\x7b\x7bending\x7d\x7d".toList := by
    decide +kernel
  rw [sent] at parcels extended
  exact ⟨performed, parcels, same, extended (by decide +kernel) _ same⟩

end Stencil
