import Stencil.Compilation
import Stencil.Proofs.Grammar
import Stencil.Proofs.Scan

/-!
# The trees of texts

Scanning and parsing together. The tokens of a text have the values their kinds demand, and
none of them is an end of the input before the last one, so that the grammar of token streams
applies: a text compiles exactly to the grammatical list that yields its tokens.
-/

namespace Stencil

open Stencil.Lexer Stencil.Parser

/-- A word of a tag is one of the words with a meaning of their own, or else a name. -/
theorem Token.ofWord_cases (word : String) :
    (word = "if" ∧ ofWord word = ifMark) ∨ (word = "else" ∧ ofWord word = elseMark) ∨
      (word = "end" ∧ ofWord word = endMark) ∨
      ((word ≠ "if" ∧ word ≠ "else" ∧ word ≠ "end") ∧ ofWord word = ⟨.ident, word⟩) := by
  by_cases isIf : word = "if"
  · exact .inl ⟨isIf, by rw [isIf]; rfl⟩
  by_cases isElse : word = "else"
  · exact .inr (.inl ⟨isElse, by rw [isElse]; rfl⟩)
  by_cases isEnd : word = "end"
  · exact .inr (.inr (.inl ⟨isEnd, by rw [isEnd]; rfl⟩))
  · refine .inr (.inr (.inr ⟨⟨isIf, isElse, isEnd⟩, ?_⟩))
    simp only [ofWord, keywords, List.lookup_cons, List.lookup_nil, beq_false_of_ne isIf,
      beq_false_of_ne isElse, beq_false_of_ne isEnd, Option.getD_none]

theorem Token.standard_ofWord (word : String) :
    (ofWord word).Standard ∧ (ofWord word).kind ≠ .eof := by
  rcases ofWord_cases word with ⟨-, same⟩ | ⟨-, same⟩ | ⟨-, same⟩ | ⟨-, same⟩
  · rw [same]; decide
  · rw [same]; decide
  · rw [same]; decide
  · rw [same]
    exact ⟨nofun, nofun⟩

theorem Lexer.standard_of_mem_flushed {pending : List Char} {t : Token}
    (member : t ∈ flushed pending) : t.Standard ∧ t.kind ≠ .eof := by
  unfold flushed at member
  split at member
  · cases member
  · rw [List.mem_singleton.mp member]
    exact ⟨nofun, nofun⟩

/-- What the lexer sends has standard values, and is no end of the input. -/
theorem Lexer.standard_of_mem_scan {place : Place} {cs : List Char} {t : Token}
    (member : t ∈ scan place cs) : t.Standard ∧ t.kind ≠ .eof := by
  fun_induction scan place cs with
  | case1 pending => exact standard_of_mem_flushed member
  | case2 pending cs pair ih =>
    rcases List.mem_append.mp member with member | member
    · exact standard_of_mem_flushed member
    rcases List.mem_cons.mp member with rfl | member
    · decide
    · exact ih member
  | case3 =>
    rw [List.mem_singleton.mp member]
    decide
  | case4 pending c cs single ih => exact ih member
  | case5 => cases member
  | case6 cs pair ih =>
    rcases List.mem_cons.mp member with rfl | member
    · decide
    · exact ih member
  | case7 c cs pair other ih =>
    rcases List.mem_cons.mp member with rfl | member
    · decide
    · exact ih member
  | case8 c cs single letter ih =>
    rcases List.mem_cons.mp member with rfl | member
    · exact Token.standard_ofWord _
    · exact ih member
  | case9 c cs single other ih => exact ih member

/-- Lexing a text never fails, and gives what scanning gives. -/
theorem tokenize_ofText (text : String) :
    tokenize (.ofText text) = .ok (scan (.text []) text.toList ++ [.endOfInput]) := by
  obtain ⟨body, crash⟩ := run_ofText text
  rw [← body, ← Lexing.tokens_eq]
  simp only [tokenize, Compilation.lexerFailure, crash]
  rfl

/-- Compiling a text takes a run over its tokens, up to the end of the input. -/
theorem compile_ofText (text : String) :
    ∃ ns outcome rest, compile (.ofText text) = outcome.map (fun _ => .list true [] ns) ∧
      ListRun true [] 0 (scan (.text []) text.toList ++ [.endOfInput]) ns outcome rest := by
  obtain ⟨body, crash⟩ := run_ofText text
  obtain ⟨ns, left, run, -⟩ :=
    parse_list true [] [] (.atStart (Lexer.run (.ofText text)).tokens)
  generalize parsed : parse {} (.list true [] []) _ = result at left run
  rcases result with ⟨_, outcome, p⟩
  obtain rfl : _ = Node.list true [] ns := left
  refine ⟨ns, outcome, p.cursor.upcoming, ?_, ?_⟩
  · rw [compile, Compilation.result]
    simp only [Compilation.ofSource, Compilation.ofLexing, Compilation.lexerFailure, crash,
      Node.emptyRoot, parsed]
    cases outcome <;> rfl
  · rw [← body, ← Lexing.tokens_eq]
    exact run

/-- A text compiles to a tree exactly if the tree is a grammatical list that yields the tokens
of the text. -/
theorem compile_eq_ok_iff {text : String} {node : Node} :
    compile (.ofText text) = .ok node ↔
      ∃ ns, node = .list true [] ns ∧ scan (.text []) text.toList = Node.yieldAll ns ∧
        Node.Grammatical 0 ns := by
  obtain ⟨parsed, outcome, rest, compiled, run⟩ := compile_ofText text
  have inner : ∀ t ∈ scan (.text []) text.toList, t.kind ≠ .eof :=
    fun t member => (standard_of_mem_scan member).2
  have standard : ∀ t ∈ scan (.text []) text.toList, t.Standard :=
    fun t member => (standard_of_mem_scan member).1
  rw [compiled]
  constructor
  · intro succeeds
    cases outcome with
    | error e => cases succeeds
    | ok _ =>
      cases succeeds
      obtain ⟨grammatical, written, -⟩ := run.yield_of_ok rfl inner standard
      exact ⟨parsed, rfl, written.symm, grammatical⟩
  · rintro ⟨ns, rfl, written, grammatical⟩
    rw [written] at run
    obtain ⟨rfl, rfl, -⟩ := run.unique (.of_yield grammatical rfl)
    rfl

end Stencil
