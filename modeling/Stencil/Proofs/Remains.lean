import Mathlib.Control.Monad.Basic
import Stencil.Proofs.Grammar
import Stencil.Proofs.StackHeight

/-!
# What parsing leaves behind

Whatever comes of parsing a list, the parser is back at its depth, the nodes that are attached are
complete, and no token is lost: those that were fed are the yield of the attached nodes, what the
last item has eaten, and the tokens that are still ahead (`Parser.parse_remains`).

`Parser.Eats` says what that last item is and which part of it has been eaten, one rule for each
way in which a list can stop. Where a branch of a block fails, it is the head of the block and what
of its branches was read, the nodes that were complete in them included: they were parsed, but hang
from no node of the list. `Parser.ListRun.eats` finds the rule for any run, by induction on it.
-/

namespace Stencil
namespace Parser

/-! ## The item that stops a list -/

open Ahead Node

/-- How a tag fails behind its opening delimiter: the tokens that are eaten, those that are left,
and why. -/
inductive TagFails : (eaten rest : List Token) → Failure → Prop
  /-- The stream is closed before the tag is. -/
  | closed {inner} : (∀ t ∈ inner, t.Inner) → TagFails inner [] .streamClosed
  | endOfInput {inner rest} {t : Token} : (∀ t ∈ inner, t.Inner) → t.kind = .eof →
    TagFails (inner ++ [t]) rest (.endWhileScanning .rightMeta)
  | lexical {inner rest} {t : Token} : (∀ t ∈ inner, t.Inner) → t.kind = .error →
    TagFails (inner ++ [t]) rest (.lexical t)
  /-- There is no such tag. Its closing delimiter has been seen, and is still ahead. -/
  | malformed {inner rest e} : (∀ t ∈ inner, t.Inner) → Node.ofTag inner = .error e →
    TagFails inner (.right :: rest) e
  | strayEnd {rest} : TagFails [.endMark] (.right :: rest) .strayEnd
  | strayElse {rest} : TagFails [.elseMark] (.right :: rest) .strayElse

/-- What is eaten where a list stops, behind the nodes that are complete, and what is left. -/
inductive Eats : (root : Bool) → (names : List String) → (depth : Int) →
    (eaten rest : List Token) → Except Failure Unit → Prop
  /-- A branch ends before one of its marks. -/
  | branch {names depth rest} {l : Lookahead} : l ∈ Lookahead.standard → l.name ∈ names →
    l.expected <+: rest → Eats false names depth [] rest (.ok ())
  | whole {names depth rest} {t : Token} : t.kind = .eof →
    Eats true names depth [t] rest (.ok ())
  /-- The stream is closed where an item should start. -/
  | closed {root names depth} : Eats root names depth [] [] (.error .streamClosed)
  /-- The stream is closed inside of what might be a mark. -/
  | closedInMark {root names depth rest} {l : Lookahead} : l ∈ Lookahead.standard →
    l.name ∈ names → rest <+: l.expected → rest ≠ l.expected →
    Eats root names depth [] rest (.error .streamClosed)
  | lexical {root names depth rest} {t : Token} : t.kind = .error →
    Eats root names depth [t] rest (.error (.lexical t))
  | endInBlock {names depth rest} {t : Token} : t.kind = .eof →
    Eats false names depth [t] rest (.error .endInBlock)
  | unexpected {root names depth rest} {t : Token} : t.kind ≠ .leftMeta → t.kind ≠ .text →
    t.kind ≠ .error → t.kind ≠ .eof →
    Eats root names depth [t] rest (.error (.unexpectedToken t))
  | tag {root names depth eaten rest e} :
    atListEnd Lookahead.standard names (.left :: (eaten ++ rest)) = .ok false →
    TagFails eaten rest e → Eats root names depth (.left :: eaten) rest (.error e)
  /-- Of a block that may not stand this deep only the head is eaten. -/
  | tooDeep {root names depth condition rest} : condition ≠ [] → (∀ t ∈ condition, t.Inner) →
    (maxNesting : Int) ≤ depth →
    Eats root names depth (blockHead condition) rest (.error .nestedTooDeeply)
  /-- The first branch fails behind the nodes `ns`. -/
  | firstFails {root names depth condition ns eaten rest e} : condition ≠ [] →
    (∀ t ∈ condition, t.Inner) → depth < (maxNesting : Int) → Grammatical (depth + 1) ns →
    Eats false firstEnd (depth + 1) eaten rest (.error e) →
    Eats root names depth (blockHead condition ++ (yieldAll ns ++ eaten)) rest (.error e)
  /-- The second branch fails behind the nodes `ms`. -/
  | secondFails {root names depth condition ns ms eaten rest e} : condition ≠ [] →
    (∀ t ∈ condition, t.Inner) → depth < (maxNesting : Int) → Grammatical (depth + 1) ns →
    Grammatical (depth + 1) ms →
    Eats false Grammar.secondBranchEnd (depth + 1) eaten rest (.error e) →
    Eats root names depth
      (blockHead condition ++ (yieldAll ns ++ (Token.elseTag ++ (yieldAll ms ++ eaten)))) rest
      (.error e)

variable {root : Bool} {names : List String} {children ns : List Node} {depth : Int}
  {ts rest : List Token} {outcome : Except Failure Unit} {condition : List Token}

/-! ### The failures of a tag -/

/-- A token whose kind leaves its value no choice is determined by it. -/
theorem eq_of_standard {t u : Token} (standard : t.Standard) (kind : t.kind = u.kind)
    (only : u.kind.value? = some u.value) : t = u := by
  rcases t with ⟨_, value⟩
  rcases u with ⟨_, value'⟩
  cases kind
  exact congrArg _ (standard _ only)

/-- Where reading up to a closing delimiter fails, all that was read but the last token is part of
a tag. -/
theorem readUntil_eq_error {e : Failure} (failed : readUntil .rightMeta ts = (.error e, rest)) :
    ∃ inner, (∀ t ∈ inner, t.Inner) ∧
      ((ts = inner ∧ rest = [] ∧ e = .streamClosed) ∨
        ∃ t, ts = inner ++ t :: rest ∧
          ((t.kind = .eof ∧ e = .endWhileScanning .rightMeta) ∨
            (t.kind = .error ∧ e = .lexical t))) := by
  induction ts with
  | nil =>
    cases failed
    exact ⟨[], nofun, .inl ⟨rfl, rfl, rfl⟩⟩
  | cons t ts ih =>
    rw [readUntil] at failed
    split at failed
    · cases failed
    split at failed
    · next last =>
      cases failed
      exact ⟨[], nofun, .inr ⟨t, rfl, .inl ⟨last, rfl⟩⟩⟩
    split at failed
    · next bad =>
      cases failed
      exact ⟨[], nofun, .inr ⟨t, rfl, .inr ⟨bad, rfl⟩⟩⟩
    · next notClosing notEnd notError =>
      split at failed
      · next more =>
        cases failed
        obtain ⟨inner, inside, ends⟩ := ih more
        refine ⟨t :: inner, List.forall_mem_cons.mpr ⟨⟨notClosing, notEnd, notError⟩, inside⟩, ?_⟩
        obtain ⟨rfl, ended⟩ | ⟨u, rfl, why⟩ := ends
        · exact .inl ⟨rfl, ended⟩
        · exact .inr ⟨u, rfl, why⟩
      · cases failed

/-- The tokens of a tag that cannot be read are those that are eaten and those that are left. -/
theorem tagFails_of_readTag {e : Failure} (standard : ∀ t ∈ ts, t.Standard)
    (failed : readTag ts = (.error e, rest)) :
    ∃ eaten, ts = eaten ++ rest ∧ TagFails eaten rest e := by
  rw [readTag] at failed
  split at failed
  · next unclosed =>
    cases failed
    obtain ⟨inner, inside, ⟨rfl, rfl, rfl⟩ | ⟨t, rfl, ⟨last, rfl⟩ | ⟨bad, rfl⟩⟩⟩ :=
      readUntil_eq_error unclosed
    · exact ⟨ts, (List.append_nil _).symm, .closed inside⟩
    · exact ⟨inner ++ [t], by simp, .endOfInput inside last⟩
    · exact ⟨inner ++ [t], by simp, .lexical inside bad⟩
  next tokens after read =>
  obtain ⟨rfl, inside, closing, rest', rfl, kind⟩ := readUntil_eq_ok read
  obtain rfl : closing = .right := eq_of_standard (standard _ (by simp)) kind rfl
  -- A tag is eaten up to its closing delimiter, which stays ahead.
  split at failed
  · next malformed =>
    cases failed
    exact ⟨tokens, rfl, .malformed inside malformed⟩
  · next stray =>
    cases failed
    rcases ofTag_eq_ok stray with ⟨_, -, node⟩ | ⟨word, rfl, node⟩ | ⟨_, -, node⟩ |
      ⟨_, _, -, -, node⟩ <;> cases node
    have mark : ⟨.endWord, word⟩ = Token.endMark :=
      eq_of_standard (standard _ List.mem_cons_self) rfl rfl
    exact ⟨_, rfl, mark ▸ .strayEnd⟩
  · next stray =>
    cases failed
    rcases ofTag_eq_ok stray with ⟨_, -, node⟩ | ⟨_, -, node⟩ | ⟨word, rfl, node⟩ |
      ⟨_, _, -, -, node⟩ <;> cases node
    have mark : ⟨.elseWord, word⟩ = Token.elseMark :=
      eq_of_standard (standard _ List.mem_cons_self) rfl rfl
    exact ⟨_, rfl, mark ▸ .strayElse⟩
  · cases failed

/-! ### Where a list stops -/

/-- Where it cannot be seen whether a list ends, the stream is closed inside one of the marks. -/
theorem short_of_atListEnd {e : Failure} (known : names ⊆ firstEnd)
    (failed : atListEnd Lookahead.standard names ts = .error e) :
    e = .streamClosed ∧
      ∃ l ∈ Lookahead.standard, l.name ∈ names ∧ ts <+: l.expected ∧ ts ≠ l.expected := by
  induction names with
  | nil => cases failed
  | cons name names ih =>
    obtain ⟨l, member, found⟩ := find_of_mem_firstEnd (known List.mem_cons_self)
    have named := (mem_of_find found).2
    rw [atListEnd, found] at failed
    simp only at failed
    split at failed
    · next short =>
      cases failed
      obtain ⟨closed, inside, other⟩ := test_eq_error_iff.mp short
      exact ⟨closed, l, member, by simp [named], inside, other⟩
    · cases failed
    · obtain ⟨closed, l, member, named, short⟩ :=
        ih (fun name member => known (List.mem_cons_of_mem _ member)) failed
      exact ⟨closed, l, member, List.mem_cons_of_mem _ named, short⟩

/-- What is eaten where a list stops without another node. -/
theorem eats_of_front_stop (whole : root = true → names = []) (known : names ⊆ firstEnd)
    (standard : ∀ t ∈ ts, t.Standard) (stops : front root names ts = .stop outcome rest) :
    ∃ eaten, ts = eaten ++ rest ∧ Eats root names depth eaten rest outcome := by
  unfold front at stops
  split at stops
  · next failed =>
    cases stops
    obtain ⟨rfl, l, member, named, inside, other⟩ := short_of_atListEnd known failed
    exact ⟨[], rfl, .closedInMark member named inside other⟩
  · next ends =>
    cases stops
    cases root with
    | true =>
      rw [whole rfl] at ends
      cases ends
    | false =>
      obtain ⟨l, member, named, ahead⟩ := exists_of_atListEnd ends
      exact ⟨[], rfl, .branch member named ahead⟩
  next goesOn =>
  split at stops
  · cases stops
    exact ⟨[], rfl, .closed⟩
  next t ts =>
  obtain ⟨first, others⟩ := List.forall_mem_cons.mp standard
  split at stops
  · next kind =>
    obtain rfl : t = .left := eq_of_standard first kind rfl
    split at stops
    · next failed =>
      cases stops
      obtain ⟨eaten, rfl, fails⟩ := tagFails_of_readTag others failed
      exact ⟨.left :: eaten, rfl, .tag goesOn fails⟩
    · cases stops
  · cases stops
  · next bad =>
    cases stops
    exact ⟨[t], rfl, .lexical bad⟩
  · next last =>
    cases stops
    cases root with
    | true => exact ⟨[t], rfl, .whole last⟩
    | false => exact ⟨[t], rfl, .endInBlock last⟩
  · next notLeft notText notError notEnd =>
    cases stops
    exact ⟨[t], rfl, .unexpected notLeft notText notError notEnd⟩

/-! ### Runs -/

/-- The head of a block whose tokens are standard. -/
theorem blockHead_of_front (standard : ∀ t ∈ ts, t.Standard)
    (start : front root names ts = .tag (.block condition .absent .absent) rest) :
    ts = blockHead condition ++ rest ∧ condition ≠ [] ∧ ∀ t ∈ condition, t.Inner := by
  obtain ⟨opening, word, closing, rfl, left, right, some, inner⟩ := of_front_block start
  have whole : opening :: ⟨.ifWord, word⟩ :: (condition ++ closing :: rest) =
      (opening :: ⟨.ifWord, word⟩ :: (condition ++ [closing])) ++ rest := by simp
  rw [whole] at standard ⊢
  have head := (Writes.blockHead left right inner word).2 (List.forall_mem_append.mp standard).1
  exact ⟨by rw [head], some, inner⟩

/-- A branch that succeeds is the yield of its nodes. -/
theorem ListRun.branch (standard : ∀ t ∈ ts, t.Standard)
    (run : ListRun false names depth ts ns (.ok ()) rest) :
    Grammatical depth ns ∧ ts = yieldAll ns ++ rest := by
  obtain ⟨grammatical, leaves⟩ := run.grammatical
  obtain ⟨used, rfl, -, written⟩ := leaves.branch
  rw [written fun t member => standard t (List.mem_append_left _ member)]
  exact ⟨grammatical, rfl⟩

/-- What a run has not written into its nodes, and does not leave, is eaten by the item that stops
it. -/
theorem ListRun.eats (whole : root = true → names = []) (known : names ⊆ firstEnd)
    (standard : ∀ t ∈ ts, t.Standard) (run : ListRun root names depth ts ns outcome rest) :
    ∃ eaten, ts = yieldAll ns ++ (eaten ++ rest) ∧ Eats root names depth eaten rest outcome := by
  have secondEnd : Grammar.secondBranchEnd ⊆ firstEnd := by simp [Grammar.secondBranchEnd, firstEnd]
  have nested (names : List String) : false = true → names = [] := Bool.false_ne_true.elim
  induction run with
  | stop start => exact eats_of_front_stop whole known standard start
  | text start _ ih =>
    obtain ⟨-, rfl⟩ := atListEnd_of_front_text start
    obtain ⟨eaten, rfl, eats⟩ := ih whole known (List.forall_mem_cons.mp standard).2
    exact ⟨eaten, rfl, eats⟩
  | ident start _ ih =>
    obtain ⟨opening, closing, rfl, left, right⟩ := of_front_ident start
    simp only [List.forall_mem_cons] at standard
    obtain ⟨standard, -, standard', others⟩ := standard
    obtain rfl : opening = .left := eq_of_standard standard left rfl
    obtain rfl : closing = .right := eq_of_standard standard' right rfl
    obtain ⟨eaten, rfl, eats⟩ := ih whole known others
    exact ⟨eaten, rfl, eats⟩
  | tooDeep start deep =>
    obtain ⟨rfl, some, inner⟩ := blockHead_of_front standard start
    exact ⟨_, rfl, .tooDeep some inner deep⟩
  | firstFails start shallow first ih =>
    obtain ⟨rfl, some, inner⟩ := blockHead_of_front standard start
    obtain ⟨-, others⟩ := List.forall_mem_append.mp standard
    obtain ⟨eaten, rfl, eats⟩ := ih (nested _) (List.Subset.refl _) others
    refine ⟨_, ?_, .firstFails some inner shallow first.grammatical.1 eats⟩
    simp [yieldAll]
  | oneBranch start shallow first _ _ ih =>
    obtain ⟨rfl, some, inner⟩ := blockHead_of_front standard start
    obtain ⟨-, rfl⟩ := first.branch (List.forall_mem_append.mp standard).2
    simp only [List.forall_mem_append] at standard
    obtain ⟨eaten, rfl, eats⟩ := ih whole known standard.2.2.2
    refine ⟨eaten, ?_, eats⟩
    rw [yieldAll, yield_oneBranch]
    simp
  | secondFails start shallow first second _ ih =>
    obtain ⟨rfl, some, inner⟩ := blockHead_of_front standard start
    obtain ⟨grammatical, rfl⟩ := first.branch (List.forall_mem_append.mp standard).2
    simp only [List.forall_mem_append] at standard
    obtain ⟨eaten, rfl, eats⟩ := ih (nested _) secondEnd standard.2.2.2
    refine ⟨_, ?_, .secondFails some inner shallow grammatical second.grammatical.1 eats⟩
    simp [yieldAll]
  | twoBranches start shallow first second _ _ _ ih =>
    obtain ⟨rfl, some, inner⟩ := blockHead_of_front standard start
    obtain ⟨-, rfl⟩ := first.branch (List.forall_mem_append.mp standard).2
    simp only [List.forall_mem_append] at standard
    obtain ⟨-, rfl⟩ := second.branch standard.2.2.2
    simp only [List.forall_mem_append] at standard
    obtain ⟨eaten, rfl, eats⟩ := ih whole known standard.2.2.2.2.2
    refine ⟨eaten, ?_, eats⟩
    rw [yieldAll, yield_twoBranches]
    simp

/-! ## What is left -/

/-- What is left of the tokens `ts` after a list that held the nodes `children` was parsed inside
`depth` blocks, whatever came of it. -/
structure Remains (root : Bool) (names : List String) (children : List Node) (depth : Int)
    (ts : List Token) (r : Parsed Node) : Prop where
  back : r.parser.depth = depth
  /-- The new nodes are complete. Their yield, what was eaten, the tokens put back and the stream
  are the tokens that were fed. -/
  nodes : ∃ new eaten, r.left = .list root names (children ++ new) ∧ Grammatical depth new ∧
    ts = yieldAll new ++ (eaten ++ (r.parser.cursor.returned ++ r.parser.cursor.stream)) ∧
    Eats root names depth eaten (r.parser.cursor.returned ++ r.parser.cursor.stream) r.outcome
  /-- At no time were there more than three tokens on the stack. -/
  low : r.parser.cursor.peak ≤ 3

/-- There is no choice in what was eaten. -/
theorem Remains.eats {r : Parsed Node} {eaten : List Token}
    (remains : Remains root names children depth ts r) (new : List Node)
    (left : r.left = .list root names (children ++ new))
    (fed : ts = yieldAll new ++ (eaten ++ (r.parser.cursor.returned ++ r.parser.cursor.stream))) :
    Eats root names depth eaten (r.parser.cursor.returned ++ r.parser.cursor.stream) r.outcome := by
  obtain ⟨new', eaten', left', -, fed', eats⟩ := remains.nodes
  rw [left] at left'
  obtain rfl := List.append_cancel_left (Node.list.inj left').2.2
  rw [fed, List.append_cancel_left_eq, List.append_cancel_right_eq] at fed'
  rw [fed']
  exact eats

/-- Whatever comes of parsing a list, a whole template or the branch of a block, the parser is back
at its depth, complete nodes are attached to the list and no others, and each token that was fed is
in one of them, was eaten by the item that stopped the list, or is still ahead. There are never
more than three tokens on the stack of those put back. -/
theorem parse_remains (children : List Node) (depth : Int) (whole : root = true → names = [])
    (known : names ⊆ firstEnd) (standard : ∀ t ∈ ts, t.Standard) :
    Remains root names children depth ts
      (parse {} (.list root names children) { cursor := { stream := ts }, depth }) := by
  obtain ⟨new, left, run, back⟩ :=
    parse_list root names children { cursor := { stream := ts }, depth }
  obtain ⟨eaten, fed, eats⟩ := run.eats whole known standard
  exact {
    back
    nodes := ⟨new, eaten, left, run.grammatical.1, fed, eats⟩
    low := low_parse _ (Nat.zero_le _) }

/-- In a branch that holds a node already, a block fails in its second branch, on a tag without a
condition. The text before it is attached; the block is eaten up to the closing delimiter of that
tag, which was read and put back. -/
theorem parse_remains_unended :
    ∃ r, r = parse {} (.list false firstEnd [.ident "a"])
        { cursor :=
            { stream := [⟨.text, "b"⟩, .left, .ifMark, ⟨.ident, "c"⟩, .right, ⟨.text, "d"⟩, .left,
                .elseMark, .right, .left, ⟨.ident, "e"⟩, .right, .left, .ifMark, .right,
                .endOfInput] },
          depth := 98 } ∧
      r.outcome = .error .conditionMissing ∧
      r.left = .list false firstEnd [.ident "a", .text "b"] ∧
      r.parser.depth = 98 ∧
      r.parser.cursor.returned = [.right] ∧
      r.parser.cursor.stream = [.endOfInput] ∧
      r.parser.cursor.peak = 3 ∧
      Eats false firstEnd 98
        [.left, .ifMark, ⟨.ident, "c"⟩, .right, ⟨.text, "d"⟩, .left, .elseMark, .right, .left,
          ⟨.ident, "e"⟩, .right, .left, .ifMark]
        (r.parser.cursor.returned ++ r.parser.cursor.stream) r.outcome := by
  have remains := @parse_remains false firstEnd
    [⟨.text, "b"⟩, .left, .ifMark, ⟨.ident, "c"⟩, .right, ⟨.text, "d"⟩, .left, .elseMark, .right,
      .left, ⟨.ident, "e"⟩, .right, .left, .ifMark, .right, .endOfInput]
    [.ident "a"] 98 Bool.false_ne_true.elim (List.Subset.refl _) (by decide)
  refine ⟨_, rfl, ?_, ?_, remains.back, ?_, ?_, ?_, remains.eats [.text "b"] ?_ ?_⟩
  all_goals decide +kernel

end Parser
end Stencil
