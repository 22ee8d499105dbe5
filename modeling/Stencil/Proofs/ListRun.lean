import Stencil.Proofs.Ahead

/-!
# Runs of a list

What the parser does on a list, as a relation between the tokens ahead, the nodes that were
complete, the outcome, and the tokens left. `Parser.front` says how the next item starts; a
`Parser.ListRun` has one rule for each way on from there. The rules are all that parsing does:
`Parser.parse_list` shows that the parser, given a bound above the number of tokens, takes
exactly such a run and comes back to the depth it started from.

Two things are settled here once, and need no further thought in what is proved by induction on
runs. The bound of the recursion is never reached. And the lookahead that ended the first
branch of a block is still true when the block asks again, so that the three tokens it then
takes are the mark, and a block is never left without one.
-/

namespace Stencil

/-- The tag of the end mark. -/
def Token.endTag : List Token := [.left, .endMark, .right]

/-- The tag of the else mark. -/
def Token.elseTag : List Token := [.left, .elseMark, .right]

/-- A token that does not end the tag it is read in, well or badly. -/
def Token.Inner (t : Token) : Prop :=
  t.kind ≠ .rightMeta ∧ t.kind ≠ .eof ∧ t.kind ≠ .error

instance (t : Token) : Decidable t.Inner :=
  inferInstanceAs (Decidable (_ ∧ _ ∧ _))

namespace Parser

open Ahead

/-- The lookaheads that end the first branch of a block. -/
def firstEnd : List String := ["before_end", "before_else"]

/-- How the next item of a list starts. -/
inductive Front where
  /-- There is no item: the list stops. -/
  | stop (outcome : Except Failure Unit) (rest : List Token)
  | text (value : String) (rest : List Token)
  /-- A whole tag; `node` is what it stands for. -/
  | tag (node : Node) (rest : List Token)

/-- The next item of a list that ends before the lookaheads in `names`. -/
def front (root : Bool) (names : List String) (ts : List Token) : Front :=
  match atListEnd Lookahead.standard names ts with
  | .error e => .stop (.error e) ts
  | .ok true => .stop (.ok ()) ts
  | .ok false =>
    match ts with
    | [] => .stop (.error .streamClosed) []
    | t :: ts =>
      match t.kind with
      | .leftMeta =>
        match readTag ts with
        | (.error e, rest) => .stop (.error e) rest
        | (.ok node, rest) => .tag node rest
      | .text => .text t.value ts
      | .error => .stop (.error (.lexical t)) ts
      | .eof => .stop (if root then .ok () else .error .endInBlock) ts
      | _ => .stop (.error (.unexpectedToken t)) ts

/-- `ListRun root names depth ts ns outcome rest`: on the tokens `ts`, inside `depth` blocks, a
list completes the nodes `ns`, stops with `outcome` and leaves `rest`. A block that fails is no
node of the list, however much of it was there. -/
inductive ListRun : (root : Bool) → (names : List String) → (depth : Int) → List Token →
    List Node → Except Failure Unit → List Token → Prop
  | stop {root names depth ts outcome rest} :
    front root names ts = .stop outcome rest →
    ListRun root names depth ts [] outcome rest
  | text {root names depth ts value rest ns outcome rest'} :
    front root names ts = .text value rest →
    ListRun root names depth rest ns outcome rest' →
    ListRun root names depth ts (.text value :: ns) outcome rest'
  | ident {root names depth ts name rest ns outcome rest'} :
    front root names ts = .tag (.ident name) rest →
    ListRun root names depth rest ns outcome rest' →
    ListRun root names depth ts (.ident name :: ns) outcome rest'
  | tooDeep {root names depth ts condition rest} :
    front root names ts = .tag (.block condition .absent .absent) rest →
    (maxNesting : Int) ≤ depth →
    ListRun root names depth ts [] (.error .nestedTooDeeply) rest
  | firstFails {root names depth ts condition rest ns e rest'} :
    front root names ts = .tag (.block condition .absent .absent) rest →
    depth < (maxNesting : Int) →
    ListRun false firstEnd (depth + 1) rest ns (.error e) rest' →
    ListRun root names depth ts [] (.error e) rest'
  | oneBranch {root names depth ts condition rest ns rest₁ ms outcome rest'} :
    front root names ts = .tag (.block condition .absent .absent) rest →
    depth < (maxNesting : Int) →
    ListRun false firstEnd (depth + 1) rest ns (.ok ())
      (Token.endTag ++ rest₁) →
    ListRun root names depth rest₁ ms outcome rest' →
    ListRun root names depth ts (.block condition (.list false firstEnd ns) .absent :: ms)
      outcome rest'
  | secondFails {root names depth ts condition rest ns rest₁ ms e rest'} :
    front root names ts = .tag (.block condition .absent .absent) rest →
    depth < (maxNesting : Int) →
    ListRun false firstEnd (depth + 1) rest ns (.ok ())
      (Token.elseTag ++ rest₁) →
    ListRun false Grammar.secondBranchEnd (depth + 1) rest₁ ms (.error e) rest' →
    ListRun root names depth ts [] (.error e) rest'
  | twoBranches {root names depth ts condition rest ns rest₁ ms rest₂ ks outcome rest'} :
    front root names ts = .tag (.block condition .absent .absent) rest →
    depth < (maxNesting : Int) →
    ListRun false firstEnd (depth + 1) rest ns (.ok ())
      (Token.elseTag ++ rest₁) →
    ListRun false Grammar.secondBranchEnd (depth + 1) rest₁ ms (.ok ())
      (Token.endTag ++ rest₂) →
    ListRun root names depth rest₂ ks outcome rest' →
    ListRun root names depth ts
      (.block condition (.list false firstEnd ns) (.list false Grammar.secondBranchEnd ms) :: ks)
      outcome rest'

/-! ## The start of an item -/

variable {root : Bool} {names : List String} {depth : Int} {ts rest : List Token}

/-- The tags that stand for a node, and what they are made of. -/
theorem ofTag_eq_ok {tokens : List Token} {node : Node} (h : Node.ofTag tokens = .ok node) :
    (∃ name, tokens = [⟨.ident, name⟩] ∧ node = .ident name) ∨
      (∃ word, tokens = [⟨.endWord, word⟩] ∧ node = .endMark) ∨
      (∃ word, tokens = [⟨.elseWord, word⟩] ∧ node = .elseMark) ∨
      ∃ word condition, tokens = ⟨.ifWord, word⟩ :: condition ∧ condition ≠ [] ∧
        node = .block condition .absent .absent := by
  unfold Node.ofTag at h
  split at h
  · cases h
  · next name => exact .inl ⟨name, rfl, (Except.ok.inj h).symm⟩
  · next word => exact .inr (.inl ⟨word, rfl, (Except.ok.inj h).symm⟩)
  · next word => exact .inr (.inr (.inl ⟨word, rfl, (Except.ok.inj h).symm⟩))
  · cases h
  · next word condition more =>
    exact .inr (.inr (.inr ⟨word, condition, rfl, more, (Except.ok.inj h).symm⟩))
  · cases h

/-- What is read up to a closing delimiter is part of a tag, and the delimiter is left. -/
theorem readUntil_eq_ok {tokens : List Token}
    (h : readUntil .rightMeta ts = (.ok tokens, rest)) :
    ts = tokens ++ rest ∧ (∀ t ∈ tokens, t.Inner) ∧
      ∃ closing rest', rest = closing :: rest' ∧ closing.kind = .rightMeta := by
  induction ts generalizing tokens with
  | nil => cases h
  | cons t ts ih =>
    rw [readUntil] at h
    split at h
    · next closing =>
      cases h
      exact ⟨rfl, by simp, t, ts, rfl, closing⟩
    split at h
    · cases h
    split at h
    · cases h
    · next notClosing notEnd notError =>
      split at h
      · cases h
      · next read rest' more =>
        cases h
        obtain ⟨split, inside, closed⟩ := ih more
        refine ⟨by rw [split, List.cons_append], ?_, closed⟩
        intro u member
        rcases List.mem_cons.mp member with rfl | member
        · exact ⟨notClosing, notEnd, notError⟩
        · exact inside u member

/-- Reading up to a delimiter takes tokens off the front only. -/
theorem suffix_of_readUntil {wanted : TokenKind} {answer : Except Failure (List Token)}
    (h : readUntil wanted ts = (answer, rest)) : rest <:+ ts := by
  induction ts generalizing answer with
  | nil => cases h; exact List.suffix_rfl
  | cons t ts ih =>
    rw [readUntil] at h
    split at h
    · cases h; exact List.suffix_rfl
    split at h
    · cases h; exact List.suffix_cons _ _
    split at h
    · cases h; exact List.suffix_cons _ _
    · split at h <;> next more => cases h; exact (ih more).trans (List.suffix_cons _ _)

theorem suffix_of_next {answer : Except Failure Token} (h : next ts = (answer, rest)) :
    rest <:+ ts := by
  cases ts with
  | nil => cases h; exact List.suffix_rfl
  | cons t ts => cases h; exact List.suffix_cons _ _

/-- Reading a tag takes tokens off the front only. -/
theorem suffix_of_readTag {answer : Except Failure Node} (h : readTag ts = (answer, rest)) :
    rest <:+ ts := by
  rw [readTag] at h
  split at h
  · next inner => cases h; exact suffix_of_readUntil inner
  · next inner =>
    have inside := suffix_of_readUntil inner
    split at h
    · cases h; exact inside
    · cases h; exact inside
    · cases h; exact inside
    · split at h <;> next closing => cases h; exact (suffix_of_next closing).trans inside

/-- Where a list goes on, it does not end. -/
theorem atListEnd_of_front_text {value : String} (h : front root names ts = .text value rest) :
    atListEnd Lookahead.standard names ts = .ok false ∧ ts = ⟨.text, value⟩ :: rest := by
  unfold front at h
  split at h
  · cases h
  · cases h
  · next goesOn =>
    split at h
    · cases h
    · next t ts =>
      rcases t with ⟨kind, value'⟩
      cases kind <;> simp only at h
      case text => cases h; exact ⟨goesOn, rfl⟩
      case leftMeta => split at h <;> cases h
      all_goals cases h

/-- A tag that starts an item stands whole between its delimiters, and is no mark. -/
theorem of_front_tag {node : Node} (h : front root names ts = .tag node rest) :
    atListEnd Lookahead.standard names ts = .ok false ∧
      ∃ opening tokens closing, ts = opening :: (tokens ++ closing :: rest) ∧
        opening.kind = .leftMeta ∧ closing.kind = .rightMeta ∧ (∀ t ∈ tokens, t.Inner) ∧
        Node.ofTag tokens = .ok node ∧ node ≠ .endMark ∧ node ≠ .elseMark := by
  unfold front at h
  split at h
  · cases h
  · cases h
  · next goesOn =>
    split at h
    · cases h
    · next t ts =>
      rcases t with ⟨kind, value⟩
      cases kind <;> simp only at h
      case leftMeta =>
        refine ⟨goesOn, ⟨.leftMeta, value⟩, ?_⟩
        split at h
        · cases h
        · next tag =>
          cases h
          rw [readTag] at tag
          split at tag
          · cases tag
          · next tokens rest' inner =>
            obtain ⟨whole, inside, closing, rest'', closed, kind⟩ := readUntil_eq_ok inner
            rw [closed] at whole tag
            split at tag
            · cases tag
            · cases tag
            · cases tag
            · next node' notEnd notElse ofTag =>
              cases tag
              exact ⟨tokens, closing, by rw [whole], rfl, kind, inside, ofTag,
                notEnd, notElse⟩
      all_goals cases h

/-- A tag that starts an item is a name or the head of a block. -/
theorem node_of_front_tag {node : Node} (h : front root names ts = .tag node rest) :
    (∃ name, node = .ident name) ∨
      ∃ condition, node = .block condition .absent .absent := by
  obtain ⟨-, _, tokens, _, -, -, -, -, ofTag, notEnd, notElse⟩ := of_front_tag h
  rcases ofTag_eq_ok ofTag with ⟨name, -, rfl⟩ | ⟨_, -, rfl⟩ | ⟨_, -, rfl⟩ |
    ⟨_, condition, -, -, rfl⟩
  · exact .inl ⟨name, rfl⟩
  · exact absurd rfl notEnd
  · exact absurd rfl notElse
  · exact .inr ⟨condition, rfl⟩

theorem of_front_ident {name : String} (h : front root names ts = .tag (.ident name) rest) :
    ∃ opening closing, ts = opening :: ⟨.ident, name⟩ :: closing :: rest ∧
      opening.kind = .leftMeta ∧ closing.kind = .rightMeta := by
  obtain ⟨-, opening, tokens, closing, rfl, left, right, -, ofTag, -, -⟩ := of_front_tag h
  rcases ofTag_eq_ok ofTag with ⟨_, rfl, node⟩ | ⟨_, -, node⟩ | ⟨_, -, node⟩ |
    ⟨_, _, -, -, node⟩ <;> cases node
  exact ⟨opening, closing, rfl, left, right⟩

/-- The tokens that start a block: its delimiters, its first word and a condition between them. -/
theorem of_front_block {condition : List Token}
    (h : front root names ts = .tag (.block condition .absent .absent) rest) :
    ∃ opening word closing,
      ts = opening :: ⟨.ifWord, word⟩ :: (condition ++ closing :: rest) ∧
        opening.kind = .leftMeta ∧ closing.kind = .rightMeta ∧ condition ≠ [] ∧
        ∀ t ∈ condition, t.Inner := by
  obtain ⟨-, opening, tokens, closing, rfl, left, right, inside, ofTag, -, -⟩ := of_front_tag h
  rcases ofTag_eq_ok ofTag with ⟨_, -, node⟩ | ⟨_, -, node⟩ | ⟨_, -, node⟩ |
    ⟨word, _, rfl, some, node⟩ <;> cases node
  exact ⟨opening, word, closing, rfl, left, right, some,
    fun t member => inside t (List.mem_cons_of_mem _ member)⟩

/-- A list stops well only before one of its lookaheads, or, if it is a whole template, behind
the end of the input. -/
theorem of_front_stop_ok (h : front root names ts = .stop (.ok ()) rest) :
    (atListEnd Lookahead.standard names ts = .ok true ∧ rest = ts) ∨
      (root = true ∧ atListEnd Lookahead.standard names ts = .ok false ∧
        ∃ t, ts = t :: rest ∧ t.kind = .eof) := by
  unfold front at h
  split at h
  · cases h
  · next ends => cases h; exact .inl ⟨ends, rfl⟩
  · next goesOn =>
    split at h
    · cases h
    · next t ts =>
      rcases t with ⟨kind, value⟩
      cases kind <;> simp only at h
      case leftMeta => split at h <;> cases h
      case eof =>
        cases root
        · cases h
        · cases h; exact .inr ⟨rfl, goesOn, ⟨.eof, value⟩, rfl, rfl⟩
      all_goals cases h

/-- Whatever it is that stops a list, what is left was ahead. -/
theorem suffix_of_front_stop {outcome : Except Failure Unit}
    (h : front root names ts = .stop outcome rest) : rest <:+ ts := by
  unfold front at h
  split at h
  · cases h; exact List.suffix_rfl
  · cases h; exact List.suffix_rfl
  · next goesOn =>
    split at h
    · cases h; exact List.suffix_rfl
    · next t ts =>
      rcases t with ⟨kind, value⟩
      cases kind <;> simp only at h
      case leftMeta =>
        split at h
        · next tag =>
          cases h
          exact (suffix_of_readTag tag).trans (List.suffix_cons _ _)
        · cases h
      case text => cases h
      all_goals
        cases h
        exact List.suffix_cons _ _

theorem suffix_of_front_tag {node : Node} (h : front root names ts = .tag node rest) :
    rest <:+ ts := by
  obtain ⟨-, opening, tokens, closing, rfl, -⟩ := of_front_tag h
  exact ⟨opening :: (tokens ++ [closing]), by simp⟩

theorem length_add_two_le_of_front_tag {node : Node}
    (h : front root names ts = .tag node rest) : rest.length + 2 ≤ ts.length := by
  obtain ⟨-, opening, tokens, closing, rfl, -⟩ := of_front_tag h
  simp only [List.length_cons, List.length_append]
  omega

/-! ## What every run does -/

variable {ns : List Node} {outcome : Except Failure Unit}

/-- A run only takes tokens from the front. -/
theorem ListRun.suffix (run : ListRun root names depth ts ns outcome rest) : rest <:+ ts := by
  induction run with
  | stop start => exact suffix_of_front_stop start
  | text start _ ih =>
    rw [(atListEnd_of_front_text start).2]
    exact ih.trans (List.suffix_cons _ _)
  | ident start _ ih => exact ih.trans (suffix_of_front_tag start)
  | tooDeep start _ => exact suffix_of_front_tag start
  | firstFails start _ _ ih => exact ih.trans (suffix_of_front_tag start)
  | oneBranch start _ _ _ branch ih =>
    exact ((ih.trans (List.suffix_append _ _)).trans branch).trans (suffix_of_front_tag start)
  | secondFails start _ _ _ branch ih =>
    exact ((ih.trans (List.suffix_append _ _)).trans branch).trans (suffix_of_front_tag start)
  | twoBranches start _ _ _ _ first second ih =>
    exact (((ih.trans (List.suffix_append _ _)).trans second).trans
      (List.suffix_append _ _)).trans (first.trans (suffix_of_front_tag start))

/-- A nested list stops well only before one of its lookaheads. -/
theorem ListRun.atListEnd_of_ok (run : ListRun false names depth ts ns (.ok ()) rest) :
    atListEnd Lookahead.standard names rest = .ok true := by
  generalize nested : false = root at run
  generalize well : (Except.ok () : Except Failure Unit) = outcome at run
  induction run with
  | stop start =>
    subst nested well
    rcases of_front_stop_ok start with ⟨ends, rfl⟩ | ⟨whole, -⟩
    · exact ends
    · cases whole
  | text _ _ ih => exact ih nested well
  | ident _ _ ih => exact ih nested well
  | tooDeep => cases well
  | firstFails => cases well
  | oneBranch _ _ _ _ _ ih => exact ih nested well
  | secondFails => cases well
  | twoBranches _ _ _ _ _ _ _ ih => exact ih nested well

/-! ## The lookaheads of a list -/

theorem mem_of_find {lookaheads : List Lookahead} {name : String} {l : Lookahead}
    (h : Lookahead.find lookaheads name = .ok l) : l ∈ lookaheads ∧ l.name = name := by
  unfold Lookahead.find at h
  split at h
  · next found =>
    cases h
    exact ⟨List.mem_of_find?_eq_some found, by simpa using List.find?_some found⟩
  · cases h

/-- A list ends before the expected tokens of a lookahead that it names. -/
theorem exists_of_atListEnd {lookaheads : List Lookahead}
    (h : atListEnd lookaheads names ts = .ok true) :
    ∃ l ∈ lookaheads, l.name ∈ names ∧ l.expected <+: ts := by
  induction names with
  | nil => cases h
  | cons name names ih =>
    rw [atListEnd] at h
    split at h
    · cases h
    · next l found =>
      obtain ⟨member, named⟩ := mem_of_find found
      split at h
      · cases h
      · next ahead =>
        exact ⟨l, member, by simp [named], test_eq_true_iff.mp ahead⟩
      · obtain ⟨l, member, named, ahead⟩ := ih h
        exact ⟨l, member, List.mem_cons_of_mem _ named, ahead⟩

/-- The first branch of a block ends before a mark. -/
theorem mark_of_firstEnd (h : atListEnd Lookahead.standard firstEnd ts = .ok true) :
    ∃ rest, ts = Token.endTag ++ rest ∨ ts = Token.elseTag ++ rest := by
  obtain ⟨l, member, -, rest, rfl⟩ := exists_of_atListEnd h
  simp only [Lookahead.standard, List.mem_cons, List.not_mem_nil, or_false] at member
  rcases member with rfl | rfl
  · exact ⟨rest, .inl rfl⟩
  · exact ⟨rest, .inr rfl⟩

/-- The second branch ends before the end mark. -/
theorem mark_of_secondBranchEnd
    (h : atListEnd Lookahead.standard Grammar.secondBranchEnd ts = .ok true) :
    ∃ rest, ts = Token.endTag ++ rest := by
  obtain ⟨l, member, named, rest, rfl⟩ := exists_of_atListEnd h
  simp only [Lookahead.standard, List.mem_cons, List.not_mem_nil, or_false] at member
  rcases member with rfl | rfl
  · exact ⟨rest, rfl⟩
  · simp [Grammar.secondBranchEnd, Lookahead.beforeElse] at named

/-! ## The parser takes a run -/

theorem ask_of_upcoming {l : Lookahead} {c : Cursor} (ahead : c.upcoming = l.expected ++ rest) :
    ∃ c', l.ask c = (.ok true, c') ∧ c'.upcoming = l.expected ++ rest := by
  have asked := Cursor.seen_ask l c
  rw [ahead, test_eq_true_iff.mpr (List.prefix_append _ _)] at asked
  exact Cursor.exists_of_seen asked

/-- The marks that a block asks for behind its first branch exclude each other. -/
theorem ask_beforeEnd_of_elseTag {c : Cursor} (ahead : c.upcoming = Token.elseTag ++ rest) :
    ∃ c', Lookahead.beforeEnd.ask c = (.ok false, c') ∧ c'.upcoming = Token.elseTag ++ rest := by
  have asked := Cursor.seen_ask .beforeEnd c
  rw [ahead] at asked
  exact Cursor.exists_of_seen asked

theorem take_of_upcoming {tag : List Token} {c : Cursor} (ahead : c.upcoming = tag ++ rest)
    (length : tag.length = Cursor.markLength) :
    ∃ c', c.take Cursor.markLength = (.ok tag, c') ∧ c'.upcoming = rest := by
  have taken := Cursor.seen_take Cursor.markLength c
  rw [ahead, take, if_pos (by simp [length]), ← length, List.take_left, List.drop_left,
    length] at taken
  exact Cursor.exists_of_seen taken

/-- Before the end mark the last branch is finished, one block further out. -/
theorem finishBranch_eq {p : Parser} (ahead : p.cursor.upcoming = Token.endTag ++ rest) :
    ∃ c, (∀ left : Node, p.finishBranch left = ⟨left, .ok (), ⟨c, p.depth - 1⟩⟩) ∧
      c.upcoming = rest := by
  obtain ⟨c, taken, after⟩ := take_of_upcoming ahead rfl
  exact ⟨c, fun left => by rw [finishBranch, taken], after⟩

/-- Lists parsed with the bound `bound` take a run, and come back to their depth. -/
def Bounded (bound : Nat) : Prop :=
  ∀ (root : Bool) (names : List String) (p : Parser), p.cursor.size < bound →
    ListRun root names p.depth p.cursor.upcoming (parseItems {} root names bound p).left
        (parseItems {} root names bound p).outcome
        (parseItems {} root names bound p).parser.cursor.upcoming ∧
      (parseItems {} root names bound p).parser.depth = p.depth

/-- What a list that starts at `ts` does with the item parsed from `p`: it fails with it, or
has it as its next node and goes on behind it. -/
def TakesItem (root : Bool) (names : List String) (ts : List Token) (p : Parser)
    (item : Parsed Node) : Prop :=
  item.parser.depth = p.depth ∧
    ((∃ e, item.outcome = .error e ∧
        ListRun root names p.depth ts [] (.error e) item.parser.cursor.upcoming) ∨
      (item.outcome = .ok () ∧ item.parser.cursor.upcoming <:+ p.cursor.upcoming ∧
        ∀ {ms o rest}, ListRun root names p.depth item.parser.cursor.upcoming ms o rest →
          ListRun root names p.depth ts (item.left :: ms) o rest))

/-- The head of a block is parsed, with its branches, to an item that the list takes. -/
theorem takesItem_block {bound : Nat} (below : Bounded bound) {condition : List Token}
    {p : Parser} (room : p.cursor.size < bound)
    (start : front root names ts = .tag (.block condition .absent .absent) p.cursor.upcoming) :
    TakesItem root names ts p
      (parseBody {} (bound + 1) (.block condition .absent .absent) p) := by
  rw [parseBody]
  split
  · next deep => exact ⟨rfl, .inl ⟨_, rfl, .tooDeep start deep⟩⟩
  next notDeep =>
  have shallow : p.depth < (maxNesting : Int) := by omega
  simp only [List.isEmpty_cons, Bool.false_eq_true, if_false]
  obtain ⟨run, depth⟩ := below false firstEnd { p with depth := p.depth + 1 } room
  simp only [firstEnd] at run depth
  generalize parseItems {} false ["before_end", "before_else"] bound
    { p with depth := p.depth + 1 } = first at run depth ⊢
  rcases first with ⟨ns, outcome, c, d⟩
  simp only at run depth ⊢
  subst depth
  cases outcome with
  | error e => exact ⟨by simp, .inl ⟨e, rfl, .firstFails start shallow run⟩⟩
  | ok _ =>
    obtain ⟨rest₁, ends | ends⟩ := mark_of_firstEnd run.atListEnd_of_ok
    · obtain ⟨c₁, asked, after⟩ := ask_of_upcoming (l := .beforeEnd) ends
      obtain ⟨c₂, finished, left⟩ := finishBranch_eq (p := ⟨c₁, p.depth + 1⟩) after
      rw [ends] at run
      simp only [asked, finished]
      refine ⟨by simp, .inr ⟨rfl, ?_, fun more => ?_⟩⟩
      · exact left ▸ (List.suffix_append _ _).trans run.suffix
      · exact .oneBranch start shallow run (left ▸ more)
    · obtain ⟨c₁, asked, after⟩ := ask_beforeEnd_of_elseTag ends
      obtain ⟨c₂, askedElse, after⟩ := ask_of_upcoming (l := .beforeElse) after
      obtain ⟨c₃, taken, after⟩ := take_of_upcoming after rfl
      rw [ends] at run
      have inner : rest₁ <:+ p.cursor.upcoming :=
        (List.suffix_append _ _).trans run.suffix
      obtain ⟨run', depth⟩ := below false Grammar.secondBranchEnd ⟨c₃, p.depth + 1⟩ (by
        rw [Cursor.size_eq, after]
        rw [Cursor.size_eq] at room
        exact Nat.lt_of_le_of_lt inner.length_le room)
      simp only [asked, askedElse, taken]
      generalize parseItems {} false Grammar.secondBranchEnd bound ⟨c₃, p.depth + 1⟩ = second
        at run' depth ⊢
      rcases second with ⟨ms, outcome, c₄, d⟩
      simp only [after] at run' depth ⊢
      subst depth
      cases outcome with
      | error e => exact ⟨by simp, .inl ⟨e, rfl, .secondFails start shallow run run'⟩⟩
      | ok _ =>
        obtain ⟨rest₂, ends'⟩ := mark_of_secondBranchEnd run'.atListEnd_of_ok
        obtain ⟨c₅, finished, left⟩ := finishBranch_eq (p := ⟨c₄, p.depth + 1⟩) ends'
        rw [ends'] at run'
        simp only [finished]
        refine ⟨by simp, .inr ⟨rfl, ?_, fun more => ?_⟩⟩
        · exact left ▸ ((List.suffix_append _ _).trans run'.suffix).trans inner
        · exact .twoBranches start shallow run run' (left ▸ more)

/-- A name is complete as it stands. -/
theorem takesItem_ident {bound : Nat} {name : String} {p : Parser}
    (start : front root names ts = .tag (.ident name) p.cursor.upcoming) :
    TakesItem root names ts p (parseBody {} (bound + 1) (.ident name) p) :=
  ⟨rfl, .inr ⟨rfl, List.suffix_rfl, fun more => .ident start more⟩⟩

/-- One turn of a list, by the start of its next item. -/
theorem parseItems_succ (root : Bool) (names : List String) (bound : Nat) (p : Parser) :
    match front root names p.cursor.upcoming with
    | .stop outcome rest => ∃ c, c.upcoming = rest ∧
        parseItems {} root names (bound + 1) p = ⟨[], outcome, { p with cursor := c }⟩
    | .text value rest => ∃ c, c.upcoming = rest ∧
        parseItems {} root names (bound + 1) p =
          { parseItems {} root names bound { p with cursor := c } with
            left := .text value :: (parseItems {} root names bound { p with cursor := c }).left }
    | .tag node rest => ∃ c, c.upcoming = rest ∧
        parseItems {} root names (bound + 1) p =
          match (parseBody {} bound node { p with cursor := c }).outcome with
          | .error e => ⟨[], .error e, (parseBody {} bound node { p with cursor := c }).parser⟩
          | .ok _ =>
            { parseItems {} root names bound
                (parseBody {} bound node { p with cursor := c }).parser with
              left := (parseBody {} bound node { p with cursor := c }).left ::
                (parseItems {} root names bound
                  (parseBody {} bound node { p with cursor := c }).parser).left } := by
  obtain ⟨c, asked, after⟩ :=
    Cursor.exists_of_seen (Cursor.seen_atListEnd Lookahead.standard names p.cursor)
  rw [parseItems, front.eq_def]
  simp only [asked]
  cases Ahead.atListEnd Lookahead.standard names p.cursor.upcoming with
  | error e => exact ⟨c, after, rfl⟩
  | ok ends =>
    cases ends with
    | true => exact ⟨c, after, rfl⟩
    | false =>
      obtain ⟨c₁, first, rest⟩ := Cursor.exists_of_seen (Cursor.seen_next c)
      rw [after] at first rest
      simp only [first]
      cases ahead : p.cursor.upcoming with
      | nil =>
        rw [ahead] at rest
        exact ⟨c₁, rest, rfl⟩
      | cons t ts =>
        rw [ahead] at rest
        change c₁.upcoming = ts at rest
        rcases t with ⟨kind, value⟩
        cases kind
        case leftMeta =>
          rcases inner : Ahead.readTag ts with ⟨answer, ts'⟩
          obtain ⟨c₂, tag, left⟩ :=
            Cursor.exists_of_seen ((Cursor.seen_readTag c₁).trans (rest ▸ inner))
          simp only [tag, inner]
          cases answer with
          | error e => exact ⟨c₂, left, rfl⟩
          | ok node => exact ⟨c₂, left, rfl⟩
        case eof => cases root <;> exact ⟨c₁, rest, rfl⟩
        all_goals exact ⟨c₁, rest, rfl⟩

/-- A tag that starts an item is parsed to an item that the list takes. -/
theorem takesItem_tag {bound : Nat} (below : Bounded bound) {node : Node} {p : Parser}
    (room : p.cursor.size < bound)
    (start : front root names ts = .tag node p.cursor.upcoming) :
    TakesItem root names ts p (parseBody {} (bound + 1) node p) := by
  rcases node_of_front_tag start with ⟨name, rfl⟩ | ⟨condition, rfl⟩
  · exact takesItem_ident start
  · exact takesItem_block below room start

/-- Any bound that exceeds the number of tokens ahead is enough. -/
theorem bounded (bound : Nat) : Bounded bound := by
  induction bound using Nat.strongRecOn with
  | _ bound ih =>
    intro root names p room
    obtain ⟨bound, rfl⟩ : ∃ b, bound = b + 1 := ⟨bound - 1, by omega⟩
    have turn := parseItems_succ root names bound p
    rw [Cursor.size_eq] at room
    cases start : front root names p.cursor.upcoming with
    | stop outcome rest =>
      rw [start] at turn
      obtain ⟨c, after, parsed⟩ := turn
      rw [parsed]
      exact ⟨.stop (after ▸ start), rfl⟩
    | text value rest =>
      rw [start] at turn
      obtain ⟨c, after, parsed⟩ := turn
      rw [(atListEnd_of_front_text start).2, List.length_cons] at room
      obtain ⟨run, depth⟩ := ih bound (by omega) root names { p with cursor := c } (by
        simp only [Cursor.size_eq, after]
        omega)
      rw [parsed]
      simp only [after] at run
      exact ⟨.text start run, depth⟩
    | tag node rest =>
      rw [start] at turn
      obtain ⟨c, after, parsed⟩ := turn
      have shorter := length_add_two_le_of_front_tag start
      -- A tag has two delimiters, so a bound is left for the branches of a block.
      obtain ⟨bound, rfl⟩ : ∃ b, bound = b + 1 := ⟨bound - 1, by omega⟩
      have taken := takesItem_tag (ih bound (by omega)) (p := { p with cursor := c })
        (by simp only [Cursor.size_eq, after]; omega) (start.trans (by rw [after]))
      rw [parsed]
      generalize parseBody {} (bound + 1) node { p with cursor := c } = item at taken ⊢
      rcases item with ⟨left, outcome, p'⟩
      obtain ⟨depth, ⟨e, rfl, run⟩ | ⟨rfl, inner, goesOn⟩⟩ := taken
      · exact ⟨run, depth⟩
      · simp only [after] at depth inner goesOn ⊢
        obtain ⟨run, depth'⟩ := ih (bound + 1) (by omega) root names p' (by
          have := inner.length_le
          simp only [Cursor.size_eq]
          omega)
        rw [depth] at run depth'
        exact ⟨goesOn run, depth'⟩

/-- Parsing a list takes a run, and comes back to the depth it started from. -/
theorem parse_list (root : Bool) (names : List String) (children : List Node) (p : Parser) :
    ∃ ns, (parse {} (.list root names children) p).left = .list root names (children ++ ns) ∧
      ListRun root names p.depth p.cursor.upcoming ns
        (parse {} (.list root names children) p).outcome
        (parse {} (.list root names children) p).parser.cursor.upcoming ∧
      (parse {} (.list root names children) p).parser.depth = p.depth := by
  rw [parse, parseBody]
  exact ⟨_, rfl, bounded (2 * p.cursor.size + 1) root names p (by omega)⟩

end Parser
end Stencil
