import Stencil.Proofs.Blocks
import Stencil.Proofs.Faults
import Stencil.Proofs.FirstFailure
import Stencil.Proofs.ReadToEnd

/-!
# Sources that fail yield no tree

A template whose source failed is never taken for a complete one. A source that cannot be read
further puts an error among the tokens, and no tree is built past an error; a crash may leave
tokens that make a template, but then it is the crash that is reported. And a file whose bytes
are no text has its bad bytes read: the run on what comes before them either has an error of its
own, or goes on to its end and asks for one character more (`failed_source_has_no_tree`).
-/

namespace Stencil

open Stencil.Lexer Stencil.Parser Stencil.Text

/-- The outcome of parsing tokens as a whole template. -/
def Parser.verdict (tokens : List Token) : Except Failure Unit :=
  (parse {} Node.emptyRoot (.atStart tokens)).outcome

/-- The template is at fault, and tokens that start like these are enough for the failure. -/
def Failure.CausedBy (f : Failure) (tokens : List Token) : Prop :=
  f.OfTemplate ∧ ∀ more, Parser.verdict (tokens ++ more) = .error f

namespace Parser

variable {tokens : List Token} {outcome : Except Failure Unit} {ns : List Node} {rest : List Token}

theorem verdict_of_run (run : ListRun true [] 0 tokens ns outcome rest) :
    verdict tokens = outcome :=
  (outcome_of_run (p := .atStart tokens) [] run).1

theorem exists_run (tokens : List Token) :
    ∃ ns rest, ListRun true [] 0 tokens ns (verdict tokens) rest := by
  obtain ⟨ns, -, run, -⟩ := parse_list true [] [] (.atStart tokens)
  exact ⟨ns, _, run⟩

/-- A failure of parsing tokens up to the end of the input is the template's fault. -/
theorem ofTemplate_of_verdict {f : Failure}
    (failed : verdict (tokens ++ [.endOfInput]) = .error f) : f.OfTemplate := by
  obtain ⟨ns, rest, run⟩ := exists_run (tokens ++ [.endOfInput])
  exact run.ofTemplate (List.nil_subset _) ⟨.endOfInput, by simp, rfl⟩ failed

variable {p r : List Token} {e : Token}

/-- Tokens up to their first error are enough for parsing to fail. -/
theorem exists_causedBy (clean : ∀ t ∈ p, ¬t.Final) (bad : e.kind = .error) :
    ∃ f : Failure, f.CausedBy (p ++ [e]) := by
  obtain ⟨ns, rest, run⟩ := exists_run (p ++ [e])
  have alike : ∀ more, verdict (p ++ [e] ++ more) = verdict (p ++ [e]) := by
    intro more
    rw [List.append_assoc, List.singleton_append]
    rcases run.splits (List.nil_subset _) rfl clean (.inr bad) with
      ⟨p', -, -, runs⟩ | ⟨-, -, runs⟩
    · exact verdict_of_run (runs (e :: more))
    · exact verdict_of_run (runs more)
  rcases run.error_of_error clean bad with lexical | ⟨f, blamed, failed, -⟩
  · exact ⟨.lexical e, ⟨rfl, rfl⟩, fun more => (alike more).trans lexical⟩
  · exact ⟨f, blamed, fun more => (alike more).trans failed⟩

/-- With an error among the tokens, parsing fails with that error, or tokens before it are enough
for it to fail. -/
theorem verdict_of_error (inner : ∀ t ∈ p, t.kind ≠ .eof)
    (bad : e.kind = .error) :
    verdict (p ++ e :: r) = .error (.lexical e) ∨
      ∃ f : Failure, f.CausedBy p ∧ verdict (p ++ e :: r) = .error f := by
  cases found : p.find? fun t => t.kind = .error with
  | none =>
    have clean : ∀ t ∈ p, ¬t.Final := by
      rintro t member (last | error)
      · exact inner t member last
      · exact absurd error (by simpa using List.find?_eq_none.mp found t member)
    obtain ⟨ns, rest, run⟩ := exists_run (p ++ e :: r)
    rcases run.error_of_error clean bad with lexical | ⟨f, blamed, failed, runs⟩
    · exact .inl lexical
    · refine .inr ⟨f, ⟨blamed, fun more => ?_⟩, failed⟩
      obtain ⟨_, _, run⟩ := runs more
      exact verdict_of_run run
  | some e' =>
    -- The first error is before `e`.
    obtain ⟨bad', p₁, p₂, rfl, clean'⟩ := List.find?_eq_some_iff_append.mp found
    have clean : ∀ t ∈ p₁, ¬t.Final := by
      rintro t member (last | error)
      · exact inner t (List.mem_append_left _ member) last
      · exact absurd error (by simpa using clean' t member)
    obtain ⟨f, blamed, always⟩ := exists_causedBy clean (by simpa using bad')
    refine .inr ⟨f, ⟨blamed, fun more => ?_⟩, ?_⟩
    · simpa using always (p₂ ++ more)
    · simpa using always (p₂ ++ e :: r)

/-- Tokens that make a template hold no error. -/
theorem clean_of_verdict (inner : ∀ t ∈ tokens, t.kind ≠ .eof)
    (parsed : verdict (tokens ++ [.endOfInput]) = .ok ()) : ∀ t ∈ tokens, t.kind ≠ .error := by
  intro e member bad
  obtain ⟨p, r, rfl⟩ := List.append_of_mem member
  have inner' : ∀ t ∈ p, t.kind ≠ .eof := fun t here => inner t (List.mem_append_left _ here)
  rw [List.append_assoc, List.cons_append] at parsed
  rcases verdict_of_error inner' bad with failed | ⟨f, -, failed⟩
  · rw [failed] at parsed
    cases parsed
  · rw [failed] at parsed
    cases parsed

end Parser

/-! ## Compiling -/

variable {source : Source} {f : Failure} {fault : Fault} {text : String} {n : Nat}

theorem compile_of_verdict (failed : verdict (run source).tokens = .error f) :
    compile source = .error f := by
  rw [verdict] at failed
  simp only [compile, Compilation.result, Compilation.ofSource, Compilation.ofLexing, failed]
  rfl

theorem compile_of_crash (parsed : verdict (run source).tokens = .ok ())
    (crash : (run source).crash = some fault) :
    compile source = .error (.lexerFailed fault.message) := by
  rw [verdict] at parsed
  simp only [compile, Compilation.result, Compilation.ofSource, Compilation.ofLexing, parsed,
    Compilation.lexerFailure, crash]
  rfl

theorem inner_body (text : String) : ∀ t ∈ (run (.ofText text)).body, t.kind ≠ .eof := by
  rw [(run_ofText text).1]
  exact fun t member => (standard_of_mem_scan member).2

/-- A failing read that is performed comes after the tokens that the same text has before it. -/
theorem sentBefore_failingAt (fault : Fault) (performed : n < (run (.ofText text)).reads) :
    n < (run (.failingAt n fault text)).reads ∧
      (run (.failingAt n fault text)).sentBefore n = (run (.ofText text)).sentBefore n := by
  obtain ⟨same, performed'⟩ := upTo_failingAt fault performed
  refine ⟨performed', ?_⟩
  rw [Lexing.sentBefore, same, Lexing.sentBefore]

theorem inner_sentBefore (text : String) (n : Nat) :
    ∀ t ∈ (run (.ofText text)).sentBefore n, t.kind ≠ .eof :=
  fun t member => inner_body text t ((Lexing.sentBefore_prefix _ n).subset member)

/-- A read that fails for good is reported, unless the tokens sent before it are enough for
another failure. -/
theorem compile_unreadable (message : String) (performed : n < (run (.ofText text)).reads) :
    compile (.failingAt n (.unreadable message) text) = .error (.lexical (readFailure message)) ∨
      ∃ f : Failure, f.CausedBy ((run (.ofText text)).sentBefore n) ∧
        compile (.failingAt n (.unreadable message) text) = .error f := by
  obtain ⟨after, -, failing⟩ := run_unreadable message performed
  have tokens : (run (.failingAt n (.unreadable message) text)).tokens =
      (run (.ofText text)).sentBefore n ++ readFailure message ::
        (after.filterMap (·.token?) ++ [.endOfInput]) := by
    rw [Lexing.tokens_eq, Lexing.body, failing]
    simp [Lexing.sentBefore, Action.token?]
  rcases verdict_of_error (inner_sentBefore text n) (e := readFailure message) rfl with
    failed | ⟨f, caused, failed⟩
  · exact .inl (compile_of_verdict (tokens ▸ failed))
  · exact .inr ⟨f, caused, compile_of_verdict (tokens ▸ failed)⟩

/-- A crash is reported if the tokens sent before it make a template, and otherwise what is wrong
with them is. -/
theorem compile_crash (label message : String) (performed : n < (run (.ofText text)).reads) :
    (∀ f, verdict ((run (.ofText text)).sentBefore n ++ [.endOfInput]) = .error f →
        f.OfTemplate ∧ compile (.failingAt n (.crash label message) text) = .error f) ∧
      (compile (.failingAt n (.crash label message) text) = .error (.lexerFailed message) ↔
        verdict ((run (.ofText text)).sentBefore n ++ [.endOfInput]) = .ok ()) := by
  have failing := run_crash label message performed
  have tokens : (run (.failingAt n (.crash label message) text)).tokens =
      (run (.ofText text)).sentBefore n ++ [.endOfInput] := by
    rw [Lexing.tokens_eq, Lexing.body, failing]
    simp [Lexing.sentBefore, Action.token?]
  rw [← tokens]
  have blamed : ∀ f, verdict (run (.failingAt n (.crash label message) text)).tokens = .error f →
      f.OfTemplate ∧ compile (.failingAt n (.crash label message) text) = .error f :=
    fun f failed => ⟨ofTemplate_of_verdict (tokens ▸ failed), compile_of_verdict failed⟩
  have crash : (run (.failingAt n (.crash label message) text)).crash =
      some (.crash label message) := by rw [failing]
  refine ⟨blamed, fun crashed => ?_, fun parsed => compile_of_crash parsed crash⟩
  cases parsed : verdict (run (.failingAt n (.crash label message) text)).tokens with
  | ok => rfl
  | error f =>
    obtain ⟨ofTemplate, failed⟩ := blamed f parsed
    rw [failed] at crashed
    cases crashed
    cases ofTemplate.2

/-- A read that is not performed has no part in the outcome. -/
theorem compile_failingAt_of_le (fault : Fault) (enough : (run (.ofText text)).reads ≤ n) :
    compile (.failingAt n fault text) = compile (.ofText text) := by
  rw [compile, compile, Compilation.ofSource, Compilation.ofSource,
    run_failingAt_of_le fault enough]

/-- A source that cannot be read to the end of its text yields no tree. -/
theorem compile_failingAt_length (text message : String) :
    ∃ f : Failure, f.OfTemplate ∧
      compile (.failingAt text.toList.length (.unreadable message) text) = .error f := by
  by_cases performed : text.toList.length < (run (.ofText text)).reads
  · rcases compile_unreadable message performed with lexical | ⟨f, caused, failed⟩
    · exact ⟨_, ⟨rfl, rfl⟩, lexical⟩
    · exact ⟨f, caused.1, failed⟩
  · rw [compile_failingAt_of_le _ (Nat.not_lt.mp performed)]
    cases parsed : verdict ((run (.ofText text)).body ++ [.endOfInput]) with
    | ok => exact absurd (length_lt_reads (clean_of_verdict (inner_body text) parsed)) performed
    | error f =>
      have blamed := ofTemplate_of_verdict parsed
      rw [← Lexing.tokens_eq] at parsed
      exact ⟨f, blamed, compile_of_verdict parsed⟩

theorem compile_ofFile_of_not_encode {e : Encoding} {bytes : List UInt8}
    (noText : ∀ cs, e.encode cs ≠ some bytes) :
    ∃ f : Failure, f.OfTemplate ∧ compile (.ofFile e bytes) = .error f := by
  obtain ⟨text, message, fails⟩ := Source.exists_failure_of_ofFile noText
  rw [fails]
  exact compile_failingAt_length text message

/-- A source whose reading failed yields no tree. A failure of a read that is performed is
reported, or else a failure that the tokens sent before it bring about; one of a read that is not
performed has no part in the outcome. Bytes that are no text make a file fail in that way,
wherever they are. -/
theorem failed_source_has_no_tree (text : String) (n : Nat) :
    ((run (.ofText text)).reads ≤ n →
        ∀ fault, compile (.failingAt n fault text) = compile (.ofText text)) ∧
      (n < (run (.ofText text)).reads →
        (∀ fault, n < (run (.failingAt n fault text)).reads ∧
          (run (.failingAt n fault text)).sentBefore n = (run (.ofText text)).sentBefore n) ∧
        (∀ message,
          compile (.failingAt n (.unreadable message) text) =
              .error (.lexical (readFailure message)) ∨
            ∃ f : Failure, f.CausedBy ((run (.ofText text)).sentBefore n) ∧
              compile (.failingAt n (.unreadable message) text) = .error f) ∧
        ∀ label message,
          (∀ f, verdict ((run (.ofText text)).sentBefore n ++ [.endOfInput]) = .error f →
              f.OfTemplate ∧ compile (.failingAt n (.crash label message) text) = .error f) ∧
            (compile (.failingAt n (.crash label message) text) = .error (.lexerFailed message) ↔
              verdict ((run (.ofText text)).sentBefore n ++ [.endOfInput]) = .ok ())) ∧
      ∀ (e : Encoding) (bytes : List UInt8), (∀ cs, e.encode cs ≠ some bytes) →
        ∃ f : Failure, f.OfTemplate ∧ compile (.ofFile e bytes) = .error f := by
  refine ⟨fun enough fault => compile_failingAt_of_le fault enough,
    fun performed => ⟨?_, ?_, ?_⟩, ?_⟩
  · exact fun fault => sentBefore_failingAt fault performed
  · exact fun message => compile_unreadable message performed
  · exact fun label message => compile_crash label message performed
  · exact fun e bytes => compile_ofFile_of_not_encode

/-- The tokens before a failure that look like a complete template, a failure that comes too late
to be met, and a file that ends inside a character. -/
theorem failed_source_has_no_tree_complete :
    (6 < (run (.ofText "x\x7b\x7ba\x7d\x7dy")).reads ∧
        compile (.failingAt 6 (.crash "ValueError" "gone") "x\x7b\x7ba\x7d\x7dy") =
          .error (.lexerFailed "gone")) ∧
      compile (.failingAt 8 (.unreadable "gone") "x\x7b\x7ba\x7d\x7dy") =
        compile (.ofText "x\x7b\x7ba\x7d\x7dy") ∧
      ∃ f : Failure, f.OfTemplate ∧ compile (.ofFile .utf8 [0x61, 0xc3]) = .error f := by
  have steps : (run (.ofText "x\x7b\x7ba\x7d\x7dy")).steps =
      [.read, .read, .read, .send ⟨.text, "x"⟩, .send .left, .read, .read, .send ⟨.ident, "a"⟩,
        .read, .send .right, .read, .read, .send ⟨.text, "y"⟩] := by decide +kernel
  have reads : (run (.ofText "x\x7b\x7ba\x7d\x7dy")).reads = 8 := by
    rw [Lexing.reads, steps]
    decide
  have performed : 6 < (run (.ofText "x\x7b\x7ba\x7d\x7dy")).reads := by
    rw [reads]
    decide
  have sent : (run (.ofText "x\x7b\x7ba\x7d\x7dy")).sentBefore 6 =
      Node.yieldAll [.text "x", .ident "a"] := by
    rw [Lexing.sentBefore, steps]
    rfl
  have complete : verdict ((run (.ofText "x\x7b\x7ba\x7d\x7dy")).sentBefore 6 ++
      [.endOfInput]) = .ok () := by
    rw [sent]
    exact verdict_of_run (.of_yield (.text (.ident .nil)) rfl)
  have noText : ∀ cs, Encoding.utf8.encode cs ≠ some [0x61, 0xc3] := by
    intro cs code
    have refused : (Encoding.utf8.decodeAll [0x61, 0xc3]).isOk = false := by decide +kernel
    rw [Encoding.decodeAll_eq_ok_iff.mpr code] at refused
    cases refused
  refine ⟨⟨performed, ?_⟩, ?_, ?_⟩
  · have crash := ((failed_source_has_no_tree _ 6).2.1 performed).2.2 "ValueError" "gone"
    exact crash.2.mpr complete
  · exact (failed_source_has_no_tree _ 8).1 (Nat.le_of_eq reads) _
  · exact (failed_source_has_no_tree "" 0).2.2 .utf8 _ noText

end Stencil
