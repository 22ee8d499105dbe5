import Stencil.Proofs.Acceptance

/-!
# Whose fault a failure is

A failure of parsing is the template's fault as long as the tokens end somewhere: no lookahead
and no tag runs past the end of the input, every branch that stops well stops before the mark
its block then takes, and the parser asks for nothing it does not know. `Parser.blames_template`
says so for every stream of tokens, and hence for the tokens of every text.

The invariant of a run is that the end of the input is still ahead (`Token.Ended`). A branch
that stops well has consumed no end of the input, so the block that goes on behind its mark has
one ahead, too.
-/

namespace Stencil

/-- An end of the input is among the tokens. -/
def Token.Ended (ts : List Token) : Prop :=
  ∃ t ∈ ts, t.kind = .eof

/-- The template is at fault, and not the compiler. -/
def Failure.OfTemplate (e : Failure) : Prop :=
  e.category.refines .parse = true ∧ e.category.refines .internal = false

theorem Token.Ended.of_append {used ts : List Token} (ended : Ended (used ++ ts))
    (inner : ∀ t ∈ used, t.kind ≠ .eof) : Ended ts := by
  obtain ⟨t, member, last⟩ := ended
  rcases List.mem_append.mp member with member | member
  · exact absurd last (inner t member)
  · exact ⟨t, member, last⟩

theorem Token.Ended.tail {t : Token} {ts : List Token} (ended : Ended (t :: ts))
    (inner : t.kind ≠ .eof) : Ended ts := by
  rw [← List.singleton_append] at ended
  refine ended.of_append fun u member => ?_
  rw [List.mem_singleton.mp member]
  exact inner

namespace Parser

open Ahead Token

variable {root : Bool} {names : List String} {depth : Int} {ts rest : List Token}
  {ns : List Node} {outcome : Except Failure Unit}

/-! ## Failures at the start of an item -/

/-- Before the end of the input, all lookaheads have an answer. -/
theorem atListEnd_ne_error (known : names ⊆ firstEnd) (ended : Ended ts) (e : Failure) :
    atListEnd Lookahead.standard names ts ≠ .error e := by
  induction names with
  | nil => exact nofun
  | cons name names ih =>
    intro failed
    obtain ⟨l, member, found⟩ := find_of_mem_firstEnd (known List.mem_cons_self)
    obtain ⟨t, ahead, last⟩ := ended
    have foreign : t ∉ l.expected := by
      intro expected
      have inner : ∀ l ∈ Lookahead.standard, ∀ u ∈ l.expected, u.kind ≠ .eof := by decide
      exact inner l member t expected last
    rw [atListEnd, found] at failed
    simp only at failed
    split at failed
    · next unanswered => exact test_ne_error ahead foreign _ unanswered
    · cases failed
    · exact ih (fun name member => known (List.mem_cons_of_mem _ member)) failed

/-- As long as the end of the input is ahead, reading up to a delimiter fails for the template only.
-/
theorem ofTemplate_of_readUntil {wanted : TokenKind} {e : Failure} (ended : Ended ts)
    (failed : readUntil wanted ts = (.error e, rest)) : e.OfTemplate := by
  induction ts with
  | nil =>
    obtain ⟨_, member, _⟩ := ended
    cases member
  | cons t ts ih =>
    rw [readUntil] at failed
    split at failed
    · cases failed
    split at failed
    · cases failed
      exact ⟨rfl, rfl⟩
    split at failed
    · cases failed
      exact ⟨rfl, rfl⟩
    · next notEnd _ =>
      split at failed
      · next more =>
        cases failed
        exact ih (ended.tail notEnd) more
      · cases failed

theorem ofTemplate_of_ofTag {tokens : List Token} {e : Failure}
    (failed : Node.ofTag tokens = .error e) : e.OfTemplate := by
  unfold Node.ofTag at failed
  split at failed <;> cases failed <;> exact ⟨rfl, rfl⟩

/-- A tag that cannot be read before the end of the input is the template's fault. -/
theorem ofTemplate_of_readTag {e : Failure} (ended : Ended ts)
    (failed : readTag ts = (.error e, rest)) : e.OfTemplate := by
  rw [readTag] at failed
  split at failed
  · next inner =>
    cases failed
    exact ofTemplate_of_readUntil ended inner
  · next inner =>
    -- What was read ends before a closing delimiter, which is there to be taken.
    obtain ⟨-, -, closing, rest', rfl, -⟩ := readUntil_eq_ok inner
    split at failed
    · next bad =>
      cases failed
      exact ofTemplate_of_ofTag bad
    · cases failed
      exact ⟨rfl, rfl⟩
    · cases failed
      exact ⟨rfl, rfl⟩
    · cases failed

/-- Before the end of the input, an item that cannot start is the fault of the template. -/
theorem ofTemplate_of_front {e : Failure} (known : names ⊆ firstEnd) (ended : Ended ts)
    (start : front root names ts = .stop (.error e) rest) : e.OfTemplate := by
  unfold front at start
  split at start
  · next failed => exact absurd failed (atListEnd_ne_error known ended _)
  · cases start
  · next goesOn =>
    split at start
    · obtain ⟨_, member, _⟩ := ended
      cases member
    · next t ts =>
      rcases t with ⟨kind, value⟩
      cases kind <;> simp only at start
      case leftMeta =>
        split at start
        · next failed =>
          cases start
          exact ofTemplate_of_readTag (ended.tail nofun) failed
        · cases start
      case text => cases start
      case eof =>
        cases root <;> cases start
        exact ⟨rfl, rfl⟩
      all_goals
        cases start
        exact ⟨rfl, rfl⟩

/-! ## Failures of a run -/

/-- A tag that starts an item is no end of the input. -/
theorem ended_of_front_tag {node : Node} (ended : Ended ts)
    (start : front root names ts = .tag node rest) : Ended rest := by
  obtain ⟨-, opening, tokens, closing, rfl, left, right, inner, -⟩ := of_front_tag start
  have tokensEnded := ended.tail (by rw [left]; decide)
  have closingEnded := tokensEnded.of_append fun t member => (inner t member).2.1
  exact closingEnded.tail (by rw [right]; decide)

/-- A branch that stops well leaves the end of the input behind its mark. -/
theorem ended_of_branch {tag : List Token} (ended : Ended ts)
    (branch : ListRun false names depth ts ns (.ok ()) (tag ++ rest))
    (inner : ∀ t ∈ tag, t.kind ≠ .eof) : Ended rest := by
  obtain ⟨used, rfl, written, -⟩ := branch.grammatical.2.branch
  exact (ended.of_append written).of_append inner

/-- As long as the end of the input is ahead, a run that fails blames the template. -/
theorem ListRun.ofTemplate (run : ListRun root names depth ts ns outcome rest)
    (known : names ⊆ firstEnd) (ended : Ended ts) {e : Failure} (failed : outcome = .error e) :
    e.OfTemplate := by
  have secondKnown : Grammar.secondBranchEnd ⊆ firstEnd := by
    simp [Grammar.secondBranchEnd, firstEnd]
  induction run with
  | stop start => exact ofTemplate_of_front known ended (failed ▸ start)
  | text start _ ih =>
    obtain ⟨-, rfl⟩ := atListEnd_of_front_text start
    exact ih known (ended.tail (by simp)) failed
  | ident start _ ih => exact ih known (ended_of_front_tag ended start) failed
  | tooDeep start deep =>
    cases failed
    exact ⟨rfl, rfl⟩
  | firstFails start shallow first ih =>
    exact ih (List.Subset.refl _) (ended_of_front_tag ended start) failed
  | oneBranch start shallow first _ _ ih' =>
    have endedBranch := ended_of_front_tag ended start
    exact ih' known (ended_of_branch endedBranch first (by decide)) failed
  | secondFails start shallow first second _ ih' =>
    have endedBranch := ended_of_front_tag ended start
    exact ih' secondKnown (ended_of_branch endedBranch first (by decide)) failed
  | twoBranches start shallow first second _ _ _ ih'' =>
    have endedBranch := ended_of_front_tag ended start
    have endedSecond := ended_of_branch endedBranch first (by decide)
    exact ih'' known (ended_of_branch endedSecond second (by decide)) failed

/-- The compiler is never at fault. Parsing a whole template from tokens that end somewhere
succeeds or fails with an error of parsing, whatever else the tokens are, whatever the depth it
starts from and whatever was parsed before; compiling a text gives a tree or such an error. -/
theorem blames_template :
    (∀ (children : List Node) (p : Parser), Ended p.cursor.upcoming →
      (parse {} (.list true [] children) p).outcome = .ok () ∨
        ∃ e, (parse {} (.list true [] children) p).outcome = .error e ∧ e.OfTemplate) ∧
      ∀ text : String, (∃ node, compile (.ofText text) = .ok node) ∨
        ∃ e, compile (.ofText text) = .error e ∧ e.OfTemplate := by
  constructor
  · intro children p ended
    obtain ⟨ns, -, run, -⟩ := parse_list true [] children p
    cases outcome : (parse {} (.list true [] children) p).outcome with
    | ok _ => exact .inl rfl
    | error e => exact .inr ⟨e, rfl, run.ofTemplate (List.nil_subset _) ended outcome⟩
  · intro text
    obtain ⟨ns, outcome, rest, compiled, run⟩ := compile_ofText text
    rw [compiled]
    cases outcome with
    | ok _ => exact .inl ⟨_, rfl⟩
    | error e =>
      have ended : Ended (Lexer.scan (.text []) text.toList ++ [.endOfInput]) :=
        ⟨.endOfInput, by simp, rfl⟩
      exact .inr ⟨e, rfl, run.ofTemplate (List.nil_subset _) ended rfl⟩

/-- Two blocks that are never closed, the second without a condition, and tokens behind the end
of the input. -/
theorem blames_template_unclosed :
    Ended [.left, .ifMark, .right, .right, .endOfInput, ⟨.invalid, ""⟩] ∧
      ((parse {} (.list true [] [.endMark])
          { cursor :=
              { returned := [.left, .ifMark, ⟨.invalid, "?"⟩, .right],
                stream := [.left, .ifMark, .right, .right, .endOfInput, ⟨.invalid, ""⟩] },
            depth := -1 }).outcome = .ok () ∨
        ∃ e, (parse {} (.list true [] [.endMark])
          { cursor :=
              { returned := [.left, .ifMark, ⟨.invalid, "?"⟩, .right],
                stream := [.left, .ifMark, .right, .right, .endOfInput, ⟨.invalid, ""⟩] },
            depth := -1 }).outcome = .error e ∧ e.OfTemplate) :=
  ⟨⟨.endOfInput, by decide, rfl⟩, blames_template.1 _ _ ⟨.endOfInput, by decide, rfl⟩⟩

end Parser
end Stencil
