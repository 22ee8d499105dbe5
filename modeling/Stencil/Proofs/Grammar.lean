import Stencil.Proofs.ListRun

/-!
# The grammar of templates

`Node.yield` writes a node back as the tokens it was parsed from, and `Node.Grammatical` says
which lists of nodes have the form that parsing builds: text, names and blocks, every block
with a condition and with branches that are lists of the same form, inside fewer than
`maxNesting` blocks.

`Parser.root_accepts_iff` is the grammar of the parser: up to the end of the input, a whole
template is accepted exactly if it is the yield of a grammatical list, and this list is the one
that was parsed. It combines three facts on runs: a run that succeeds has consumed the yield of
its nodes (`ListRun.yield_of_ok`), on the yield of a grammatical list there is a run that completes
this list (`ListRun.of_yield`), and there is only one run (`ListRun.unique`).
-/

namespace Stencil

/-- The value of a token whose kind leaves it no choice. -/
def TokenKind.value? : TokenKind → Option String
  | leftMeta => some Token.leftMark
  | rightMeta => some Token.rightMark
  | ifWord => some "if"
  | elseWord => some "else"
  | endWord => some "end"
  | _ => none

/-- The token has the value that its kind demands. -/
def Token.Standard (t : Token) : Prop :=
  ∀ value ∈ t.kind.value?, t.value = value

instance (t : Token) : Decidable t.Standard :=
  inferInstanceAs (Decidable (∀ value ∈ t.kind.value?, t.value = value))

namespace Node

mutual

/-- The tokens that a node stands for. -/
def yield : Node → List Token
  | text value => [⟨.text, value⟩]
  | ident name => [.left, ⟨.ident, name⟩, .right]
  | block condition whenTrue whenFalse =>
    .left :: .ifMark :: (condition ++ .right :: (yield whenTrue ++
      ((if whenFalse.isPresent then Token.elseTag ++ yield whenFalse else []) ++ Token.endTag)))
  | list _ _ ns => yieldAll ns
  | _ => []

/-- The tokens that a list of nodes stands for. -/
def yieldAll : List Node → List Token
  | [] => []
  | n :: ns => yield n ++ yieldAll ns

end

/-- The tokens of a block up to its first branch. -/
def blockHead (condition : List Token) : List Token :=
  .left :: .ifMark :: (condition ++ [.right])

theorem yield_oneBranch (condition : List Token) (names : List String) (ts : List Node) :
    yield (.block condition (.list false names ts) .absent) =
      blockHead condition ++ (yieldAll ts ++ Token.endTag) := by
  simp [yield, isPresent, blockHead]

theorem yield_twoBranches (condition : List Token) (names names' : List String)
    (ts fs : List Node) :
    yield (.block condition (.list false names ts) (.list false names' fs)) =
      blockHead condition ++ (yieldAll ts ++ (Token.elseTag ++ (yieldAll fs ++ Token.endTag))) := by
  simp [yield, isPresent, blockHead]

/-- Lists of nodes of the form that parsing builds inside `depth` blocks. -/
inductive Grammatical : (depth : Int) → List Node → Prop
  | nil {depth : Int} : Grammatical depth []
  | text {depth : Int} {value : String} {ns : List Node} :
    Grammatical depth ns → Grammatical depth (.text value :: ns)
  | ident {depth : Int} {name : String} {ns : List Node} :
    Grammatical depth ns → Grammatical depth (.ident name :: ns)
  | oneBranch {depth : Int} {condition : List Token} {ts ns : List Node} :
    depth < maxNesting → condition ≠ [] → (∀ t ∈ condition, t.Inner) →
    Grammatical (depth + 1) ts → Grammatical depth ns →
    Grammatical depth (.block condition (.list false Parser.firstEnd ts) .absent :: ns)
  | twoBranches {depth : Int} {condition : List Token} {ts fs ns : List Node} :
    depth < maxNesting → condition ≠ [] → (∀ t ∈ condition, t.Inner) →
    Grammatical (depth + 1) ts → Grammatical (depth + 1) fs → Grammatical depth ns →
    Grammatical depth (.block condition (.list false Parser.firstEnd ts)
      (.list false Grammar.secondBranchEnd fs) :: ns)

variable {depth : Int} {ns : List Node}

theorem clean_blockHead {condition : List Token} (inner : ∀ t ∈ condition, t.Inner) :
    ∀ t ∈ blockHead condition, t.kind ≠ .error := by
  have tags : Token.left.kind ≠ .error ∧ Token.ifMark.kind ≠ .error ∧
      Token.right.kind ≠ .error := by decide
  simp only [blockHead, List.forall_mem_cons, List.forall_mem_append]
  exact ⟨tags.1, tags.2.1, fun t member => (inner t member).2.2, tags.2.2, nofun⟩

/-- A grammatical list yields no error. -/
theorem Grammatical.clean (grammatical : Grammatical depth ns) :
    ∀ t ∈ yieldAll ns, t.kind ≠ .error := by
  have endTag : ∀ t ∈ Token.endTag, t.kind ≠ .error := by decide
  have elseTag : ∀ t ∈ Token.elseTag, t.kind ≠ .error := by decide
  induction grammatical with
  | nil => exact nofun
  | text _ ih =>
    rw [yieldAll, List.forall_mem_append]
    exact ⟨by simp [yield], ih⟩
  | ident _ ih =>
    rw [yieldAll, List.forall_mem_append]
    exact ⟨by simp [yield, Token.left, Token.right], ih⟩
  | oneBranch _ _ inner _ _ ih ih' =>
    rw [yieldAll, yield_oneBranch]
    simp only [List.forall_mem_append]
    exact ⟨⟨clean_blockHead inner, ih, endTag⟩, ih'⟩
  | twoBranches _ _ inner _ _ _ ih ih' ih'' =>
    rw [yieldAll, yield_twoBranches]
    simp only [List.forall_mem_append]
    exact ⟨⟨clean_blockHead inner, ih, elseTag, ih', endTag⟩, ih''⟩

theorem Grammatical.yieldAll_ne_nil (grammatical : Grammatical depth ns) (some : ns ≠ []) :
    yieldAll ns ≠ [] := by
  cases grammatical with
  | nil => exact absurd rfl some
  | _ => simp [yieldAll, yield]

end Node

namespace Parser

open Ahead Node

variable {root : Bool} {names : List String} {depth : Int} {ts rest : List Token}
  {ns : List Node} {outcome : Except Failure Unit}

/-! ## There is only one run -/

theorem endTag_append_ne {a b : List Token} : Token.endTag ++ a ≠ Token.elseTag ++ b := by
  simp [Token.endTag, Token.elseTag, Token.endMark, Token.elseMark]

/-- Parsing has one result. -/
theorem ListRun.unique {ns' : List Node} {outcome' : Except Failure Unit} {rest' : List Token}
    (run : ListRun root names depth ts ns outcome rest)
    (run' : ListRun root names depth ts ns' outcome' rest') :
    ns = ns' ∧ outcome = outcome' ∧ rest = rest' := by
  induction run generalizing ns' outcome' rest' with
  | stop start => cases run' <;> grind
  | text start _ ih => cases run' <;> grind
  | ident start _ ih => cases run' <;> grind
  | tooDeep start deep => cases run' <;> grind
  | firstFails start shallow _ ih => cases run' <;> grind
  | oneBranch start shallow _ _ ih ih' =>
    cases run' <;> grind [endTag_append_ne, List.append_cancel_left_eq]
  | secondFails start shallow _ _ ih ih' =>
    cases run' <;> grind [endTag_append_ne, List.append_cancel_left_eq]
  | twoBranches start shallow _ _ _ ih ih' ih'' =>
    cases run' <;> grind [endTag_append_ne, List.append_cancel_left_eq]

/-! ## What a run consumes -/

/-- `used` holds no end of the input, and is `tokens` as far as its values are standard. -/
def Writes (used tokens : List Token) : Prop :=
  (∀ t ∈ used, t.kind ≠ .eof) ∧ ((∀ t ∈ used, t.Standard) → used = tokens)

theorem Writes.append {a b c d : List Token} (front : Writes a b) (back : Writes c d) :
    Writes (a ++ c) (b ++ d) := by
  constructor
  · intro t member
    rcases List.mem_append.mp member with member | member
    · exact front.1 t member
    · exact back.1 t member
  · intro standard
    rw [front.2 fun t member => standard t (List.mem_append_left _ member),
      back.2 fun t member => standard t (List.mem_append_right _ member)]

theorem Writes.refl {tokens : List Token} (inner : ∀ t ∈ tokens, t.kind ≠ .eof) :
    Writes tokens tokens :=
  ⟨inner, fun _ => rfl⟩

theorem Writes.left {t : Token} (kind : t.kind = .leftMeta) : Writes [t] [.left] := by
  rcases t with ⟨_, value⟩
  cases kind
  refine ⟨by simp, fun standard => ?_⟩
  have value_eq : value = Token.leftMark := standard _ List.mem_cons_self _ rfl
  rw [value_eq]
  rfl

theorem Writes.right {t : Token} (kind : t.kind = .rightMeta) : Writes [t] [.right] := by
  rcases t with ⟨_, value⟩
  cases kind
  refine ⟨by simp, fun standard => ?_⟩
  have value_eq : value = Token.rightMark := standard _ List.mem_cons_self _ rfl
  rw [value_eq]
  rfl

theorem Writes.ifMark (word : String) : Writes [⟨.ifWord, word⟩] [.ifMark] := by
  refine ⟨by simp, fun standard => ?_⟩
  have value_eq : word = "if" := standard _ List.mem_cons_self _ rfl
  rw [value_eq]
  rfl

theorem Writes.text (value : String) : Writes [⟨.text, value⟩] (yield (.text value)) :=
  Writes.refl (by simp)

theorem Writes.ident {opening closing : Token} (left : opening.kind = .leftMeta)
    (right : closing.kind = .rightMeta) (name : String) :
    Writes [opening, ⟨.ident, name⟩, closing] (yield (.ident name)) := by
  have word : Writes [⟨.ident, name⟩] [⟨.ident, name⟩] := Writes.refl (by simp)
  exact (Writes.left left).append (word.append (Writes.right right))

/-- The head of a block, up to its first branch. -/
theorem Writes.blockHead {opening closing : Token} {condition : List Token}
    (left : opening.kind = .leftMeta) (right : closing.kind = .rightMeta)
    (inner : ∀ t ∈ condition, t.Inner) (word : String) :
    Writes (opening :: ⟨.ifWord, word⟩ :: (condition ++ [closing]))
      (blockHead condition) :=
  (Writes.left left).append ((Writes.ifMark word).append
    ((Writes.refl fun t member => (inner t member).2.1).append (Writes.right right)))

theorem Writes.endTag : Writes Token.endTag Token.endTag :=
  Writes.refl (by decide)

theorem Writes.elseTag : Writes Token.elseTag Token.elseTag :=
  Writes.refl (by decide)

/-- What a run leaves of the tokens `ts`: those of its nodes come first, then those that were
eaten in vain. A run that succeeds eats nothing but the end of the input. -/
def Leaves (root : Bool) (names : List String) (ts : List Token) (ns : List Node)
    (outcome : Except Failure Unit) (rest : List Token) : Prop :=
  ∃ used eaten, ts = used ++ (eaten ++ rest) ∧ Writes used (yieldAll ns) ∧
    (outcome = .ok () → (eaten = [] ∧ atListEnd Lookahead.standard names rest = .ok true) ∨
      (root = true ∧ ∃ t, eaten = [t] ∧ t.kind = .eof))

theorem Leaves.of_suffix {e : Failure} (suffix : rest <:+ ts) :
    Leaves root names ts [] (.error e) rest := by
  obtain ⟨eaten, rfl⟩ := suffix
  exact ⟨[], eaten, rfl, Writes.refl (by simp), by simp⟩

/-- One more item in front. -/
theorem Leaves.cons {item : List Token} {n : Node} {rest' : List Token}
    (written : Writes item (yield n)) (more : Leaves root names rest ns outcome rest') :
    Leaves root names (item ++ rest) (n :: ns) outcome rest' := by
  obtain ⟨used, eaten, rfl, writes, ends⟩ := more
  refine ⟨item ++ used, eaten, by rw [List.append_assoc], ?_, ends⟩
  rw [yieldAll]
  exact written.append writes

/-- A branch that succeeds has left the mark behind it. -/
theorem Leaves.branch (more : Leaves false names ts ns (.ok ()) rest) :
    ∃ used, ts = used ++ rest ∧ Writes used (yieldAll ns) := by
  obtain ⟨used, eaten, rfl, writes, ends⟩ := more
  rcases ends rfl with ⟨rfl, -⟩ | ⟨whole, -⟩
  · exact ⟨used, rfl, writes⟩
  · cases whole

/-- Whatever becomes of a run, the nodes it completed are grammatical, and the tokens it leaves
are those behind their yield, less what it ate in vain. -/
theorem ListRun.grammatical (run : ListRun root names depth ts ns outcome rest) :
    Grammatical depth ns ∧ Leaves root names ts ns outcome rest := by
  induction run with
  | @stop _ names _ ts outcome rest start =>
    refine ⟨.nil, ?_⟩
    cases outcome with
    | error e => exact .of_suffix (suffix_of_front_stop start)
    | ok _ =>
      rcases of_front_stop_ok start with ⟨ends, rfl⟩ | ⟨whole, -, t, rfl, kind⟩
      · exact ⟨[], [], rfl, Writes.refl (by simp), fun _ => .inl ⟨rfl, ends⟩⟩
      · exact ⟨[], [t], rfl, Writes.refl (by simp), fun _ => .inr ⟨whole, t, rfl, kind⟩⟩
  | @text _ _ _ ts value _ _ _ _ start _ ih =>
    obtain ⟨-, rfl⟩ := atListEnd_of_front_text start
    exact ⟨.text ih.1, .cons (Writes.text value) ih.2⟩
  | ident start _ ih =>
    obtain ⟨opening, closing, rfl, left, right⟩ := of_front_ident start
    exact ⟨.ident ih.1, .cons (Writes.ident left right _) ih.2⟩
  | tooDeep start deep => exact ⟨.nil, .of_suffix (suffix_of_front_tag start)⟩
  | firstFails start shallow first _ =>
    exact ⟨.nil, .of_suffix (ListRun.firstFails start shallow first).suffix⟩
  | oneBranch start shallow first _ ih ih' =>
    obtain ⟨opening, word, closing, rfl, left, right, some, inner⟩ := of_front_block start
    obtain ⟨grammatical, more⟩ := ih
    obtain ⟨used, rfl, writes⟩ := more.branch
    refine ⟨.oneBranch shallow some inner grammatical ih'.1, ?_⟩
    have item := (Writes.blockHead left right inner word).append (writes.append Writes.endTag)
    rw [← yield_oneBranch] at item
    have more := Leaves.cons item ih'.2
    simpa using more
  | secondFails start shallow first second _ _ =>
    exact ⟨.nil, .of_suffix (ListRun.secondFails start shallow first second).suffix⟩
  | twoBranches start shallow first second _ ih ih' ih'' =>
    obtain ⟨opening, word, closing, rfl, left, right, some, inner⟩ := of_front_block start
    obtain ⟨grammatical, more⟩ := ih
    obtain ⟨used, rfl, writes⟩ := more.branch
    obtain ⟨grammatical', more'⟩ := ih'
    obtain ⟨used', rfl, writes'⟩ := more'.branch
    refine ⟨.twoBranches shallow some inner grammatical grammatical' ih''.1, ?_⟩
    have item := (Writes.blockHead left right inner word).append
      (writes.append (Writes.elseTag.append (writes'.append Writes.endTag)))
    rw [← yield_twoBranches] at item
    have more := Leaves.cons item ih''.2
    simpa using more

/-! ## A run on a yield -/

theorem readUntil_append {tokens : List Token} {closing : Token}
    (inner : ∀ t ∈ tokens, t.Inner) (kind : closing.kind = .rightMeta) :
    readUntil .rightMeta (tokens ++ closing :: ts) = (.ok tokens, closing :: ts) := by
  have passed : ∀ t ∈ tokens, passes .rightMeta t :=
    fun t member => passes_iff.mpr (inner t member)
  rw [readUntil_passed passed, readUntil, if_pos kind, Except.map, List.append_nil]

theorem find_of_mem_firstEnd {name : String} (known : name ∈ firstEnd) :
    ∃ l ∈ Lookahead.standard, Lookahead.find Lookahead.standard name = .ok l := by
  simp only [firstEnd, List.mem_cons, List.not_mem_nil, or_false] at known
  rcases known with rfl | rfl
  · exact ⟨.beforeEnd, by simp [Lookahead.standard], rfl⟩
  · exact ⟨.beforeElse, by simp [Lookahead.standard], rfl⟩

/-- A list goes on where none of the marks is ahead. -/
theorem atListEnd_eq_false (known : names ⊆ firstEnd)
    (other : ∀ l ∈ Lookahead.standard, test l.expected ts = .ok false) :
    atListEnd Lookahead.standard names ts = .ok false := by
  induction names with
  | nil => rfl
  | cons name names ih =>
    obtain ⟨l, member, found⟩ := find_of_mem_firstEnd (known List.mem_cons_self)
    rw [atListEnd, found]
    simp only [other l member]
    exact ih fun name member => known (List.mem_cons_of_mem _ member)

theorem front_text (known : names ⊆ firstEnd) (value : String) :
    front root names (⟨.text, value⟩ :: ts) = .text value ts := by
  have goesOn : atListEnd Lookahead.standard names (⟨.text, value⟩ :: ts) = .ok false := by
    apply atListEnd_eq_false known
    simp [Lookahead.standard, Lookahead.beforeEnd, Lookahead.beforeElse, test, Token.left]
  rw [front, goesOn]

/-- A closed tag is read up to its closing delimiter and no further. -/
theorem readTag_append {tokens : List Token} {node : Node} (inner : ∀ t ∈ tokens, t.Inner)
    (ofTag : Node.ofTag tokens = .ok node) (notEnd : node ≠ .endMark)
    (notElse : node ≠ .elseMark) :
    readTag (tokens ++ .right :: ts) = (.ok node, ts) := by
  rw [readTag, readUntil_append inner rfl]
  simp only [ofTag]
  cases node with
  | endMark => exact absurd rfl notEnd
  | elseMark => exact absurd rfl notElse
  | _ => rfl

/-- A tag whose first word is no mark starts an item. -/
theorem front_tag (known : names ⊆ firstEnd) {word : Token} {tokens : List Token} {node : Node}
    (inner : ∀ t ∈ word :: tokens, t.Inner) (ofTag : Node.ofTag (word :: tokens) = .ok node)
    (notEnd : node ≠ .endMark) (notElse : node ≠ .elseMark)
    (noMark : word ≠ .endMark ∧ word ≠ .elseMark) :
    front root names (.left :: word :: (tokens ++ .right :: ts)) = .tag node ts := by
  have goesOn : atListEnd Lookahead.standard names
      (.left :: word :: (tokens ++ .right :: ts)) = .ok false := by
    apply atListEnd_eq_false known
    simp [Lookahead.standard, Lookahead.beforeEnd, Lookahead.beforeElse, test, noMark]
  have read : readTag (word :: (tokens ++ .right :: ts)) = (.ok node, ts) :=
    readTag_append inner ofTag notEnd notElse
  rw [front, goesOn]
  simp only [Token.left, read]

theorem front_ident (known : names ⊆ firstEnd) (name : String) :
    front root names (.left :: ⟨.ident, name⟩ :: .right :: ts) = .tag (.ident name) ts := by
  change front root names (.left :: ⟨.ident, name⟩ :: ([] ++ .right :: ts)) = _
  apply front_tag known
  · simp [Token.Inner]
  · rfl
  · simp
  · simp
  · simp [Token.endMark, Token.elseMark]

/-- The head of a block starts an item, whatever follows it. -/
theorem front_block (known : names ⊆ firstEnd) {condition : List Token} (some : condition ≠ [])
    (inner : ∀ t ∈ condition, t.Inner) :
    front root names (blockHead condition ++ ts) =
      .tag (.block condition .absent .absent) ts := by
  have whole : blockHead condition ++ ts =
      .left :: .ifMark :: (condition ++ .right :: ts) := by
    simp [blockHead]
  rw [whole]
  apply front_tag known
  · intro t member
    rcases List.mem_cons.mp member with rfl | member
    · simp [Token.Inner, Token.ifMark]
    · exact inner t member
  · cases condition with
    | nil => exact absurd rfl some
    | cons t ts => rfl
  · simp
  · simp
  · simp [Token.ifMark, Token.endMark, Token.elseMark]

theorem ListRun.of_atListEnd (ends : atListEnd Lookahead.standard names ts = .ok true) :
    ListRun root names depth ts [] (.ok ()) ts := by
  apply ListRun.stop
  rw [front.eq_def, ends]

theorem ListRun.endTag (branch : names = firstEnd ∨ names = Grammar.secondBranchEnd) :
    ListRun root names depth (Token.endTag ++ rest) [] (.ok ()) (Token.endTag ++ rest) := by
  apply ListRun.of_atListEnd
  rcases branch with rfl | rfl <;> rfl

theorem ListRun.elseTag :
    ListRun root firstEnd depth (Token.elseTag ++ rest) [] (.ok ()) (Token.elseTag ++ rest) :=
  .of_atListEnd rfl

/-- A run on what follows the yield of a grammatical list extends to a run from the start of
the yield, which completes the nodes of the list first. -/
theorem ListRun.of_grammatical {ms : List Node} {rest' : List Token}
    (grammatical : Grammatical depth ns) (known : names ⊆ firstEnd)
    (after : ListRun root names depth rest ms outcome rest') :
    ListRun root names depth (yieldAll ns ++ rest) (ns ++ ms) outcome rest' := by
  induction grammatical generalizing root names rest ms outcome rest' with
  | nil => exact after
  | @text _ value _ _ ih =>
    exact .text (front_text known value) (ih known after)
  | @ident _ name _ _ ih =>
    exact .ident (front_ident known name) (ih known after)
  | @oneBranch depth _ _ ns shallow some inner _ _ ih ih' =>
    rw [yieldAll, yield_oneBranch]
    simp only [List.append_assoc]
    have stops : ListRun false firstEnd (depth + 1)
        (Token.endTag ++ (yieldAll ns ++ rest)) [] _ _ :=
      .endTag (.inl rfl)
    have first := ih (List.Subset.refl _) stops
    rw [List.append_nil] at first
    exact .oneBranch (front_block known some inner) shallow first (ih' known after)
  | @twoBranches depth _ _ fs ns shallow some inner _ _ _ ih ih' ih'' =>
    rw [yieldAll, yield_twoBranches]
    simp only [List.append_assoc]
    have stops : ListRun false firstEnd (depth + 1)
        (Token.elseTag ++ (yieldAll fs ++ (Token.endTag ++ (yieldAll ns ++ rest)))) [] _ _ :=
      .elseTag
    have stops' : ListRun false Grammar.secondBranchEnd (depth + 1)
        (Token.endTag ++ (yieldAll ns ++ rest)) [] _ _ :=
      .endTag (.inr rfl)
    have first := ih (List.Subset.refl _) stops
    have second := ih' (by simp [Grammar.secondBranchEnd, firstEnd]) stops'
    rw [List.append_nil] at first second
    exact .twoBranches (front_block known some inner) shallow first second (ih'' known after)

/-! ## The grammar of a whole template -/

/-- On the yield of a grammatical list, up to the end of the input, a whole template is that
list. -/
theorem ListRun.of_yield {e : Token} (grammatical : Grammatical depth ns) (last : e.kind = .eof) :
    ListRun true [] depth (yieldAll ns ++ e :: rest) ns (.ok ()) rest := by
  have stops : ListRun true [] depth (e :: rest) [] (.ok ()) rest :=
    .stop (by rw [front, atListEnd]; simp [last])
  have run := ListRun.of_grammatical grammatical (List.nil_subset _) stops
  rwa [List.append_nil] at run

/-- Lists that end at the first end of the input are split there in one way only. -/
theorem eq_of_split {used : List Token} {t e : Token} {rest' : List Token}
    (inner : ∀ u ∈ ts, u.kind ≠ .eof) (last : e.kind = .eof)
    (inner' : ∀ u ∈ used, u.kind ≠ .eof) (last' : t.kind = .eof)
    (same : ts ++ e :: rest = used ++ t :: rest') : used = ts ∧ rest' = rest := by
  induction ts generalizing used with
  | nil =>
    cases used with
    | nil => cases same; exact ⟨rfl, rfl⟩
    | cons u used =>
      cases same
      exact absurd last (inner' _ List.mem_cons_self)
  | cons u ts ih =>
    cases used with
    | nil =>
      cases same
      exact absurd last' (inner _ List.mem_cons_self)
    | cons u' used =>
      rw [List.cons_append, List.cons_append] at same
      obtain ⟨rfl, tails⟩ := List.cons.inj same
      obtain ⟨rfl, rfl⟩ := ih (fun v member => inner v (List.mem_cons_of_mem _ member))
        (fun v member => inner' v (List.mem_cons_of_mem _ member)) tails
      exact ⟨rfl, rfl⟩

/-- A run over a whole template succeeds only on the yield of its nodes. -/
theorem ListRun.yield_of_ok {e : Token} {rest' : List Token} (last : e.kind = .eof)
    (inner : ∀ t ∈ ts, t.kind ≠ .eof) (standard : ∀ t ∈ ts, t.Standard)
    (run : ListRun true [] depth (ts ++ e :: rest) ns (.ok ()) rest') :
    Grammatical depth ns ∧ yieldAll ns = ts ∧ rest' = rest := by
  obtain ⟨grammatical, used, eaten, whole, ⟨inner', written⟩, ends⟩ := run.grammatical
  rcases ends rfl with ⟨-, never⟩ | ⟨-, t, rfl, last'⟩
  · cases never
  · obtain ⟨rfl, rfl⟩ := eq_of_split inner last inner' last' whole
    exact ⟨grammatical, (written standard).symm, rfl⟩

/-- The grammar of a whole template. The tokens up to the end of the input are accepted exactly
if a grammatical list yields them; there is then no other such list, it is what was parsed, and
the parser stands behind the end of the input, at the depth it started from. -/
theorem root_accepts_iff {ts rest : List Token} {e : Token} {p : Parser}
    (ahead : p.cursor.upcoming = ts ++ e :: rest) (last : e.kind = .eof)
    (inner : ∀ t ∈ ts, t.kind ≠ .eof) (standard : ∀ t ∈ ts, t.Standard) :
    ((parse {} .emptyRoot p).outcome = .ok () ↔
        ∃ ns, yieldAll ns = ts ∧ Grammatical p.depth ns) ∧
      ∀ ns, yieldAll ns = ts → Grammatical p.depth ns →
        (parse {} .emptyRoot p).left = .list true [] ns ∧
          (parse {} .emptyRoot p).parser.cursor.upcoming = rest ∧
          (parse {} .emptyRoot p).parser.depth = p.depth ∧
          ∀ ms, yieldAll ms = ts → Grammatical p.depth ms → ms = ns := by
  obtain ⟨parsed, left, run, depth⟩ := parse_list true [] [] p
  change (parse {} .emptyRoot p).left = _ at left
  change ListRun true [] p.depth p.cursor.upcoming parsed (parse {} .emptyRoot p).outcome
    (parse {} .emptyRoot p).parser.cursor.upcoming at run
  rw [ahead] at run
  have only : ∀ ns, yieldAll ns = ts → Grammatical p.depth ns →
      parsed = ns ∧ (parse {} .emptyRoot p).outcome = .ok () ∧
        (parse {} .emptyRoot p).parser.cursor.upcoming = rest := by
    rintro ns rfl grammatical
    exact run.unique (.of_yield grammatical last)
  constructor
  · constructor
    · intro accepted
      rw [accepted] at run
      obtain ⟨grammatical, written, -⟩ := run.yield_of_ok last inner standard
      exact ⟨parsed, written, grammatical⟩
    · rintro ⟨ns, written, grammatical⟩
      exact (only ns written grammatical).2.1
  · intro ns written grammatical
    obtain ⟨rfl, -, after⟩ := only ns written grammatical
    exact ⟨left, after, depth, fun ms written' grammatical' =>
      ((only ms written' grammatical').1).symm⟩

/-- At the deepest level but one there is room for a block with two branches, whatever comes
behind the end of the input. -/
theorem root_accepts_iff_deep :
    (parse {} .emptyRoot
        { cursor :=
            { stream := [.left, .ifMark, .left, .endMark, .right, ⟨.text, "a"⟩, .left,
                .elseMark, .right, .left, ⟨.ident, "b"⟩, .right, .left, .endMark, .right,
                .endOfInput, .left, ⟨.error, "late"⟩] },
          depth := 99 }).left =
      .list true [] [.block [.left, .endMark] (.list false firstEnd [.text "a"])
        (.list false Grammar.secondBranchEnd [.ident "b"])] := by
  have accepts := @root_accepts_iff
    [.left, .ifMark, .left, .endMark, .right, ⟨.text, "a"⟩, .left, .elseMark, .right,
      .left, ⟨.ident, "b"⟩, .right, .left, .endMark, .right]
    [.left, ⟨.error, "late"⟩] .endOfInput
    { cursor :=
        { stream := [.left, .ifMark, .left, .endMark, .right, ⟨.text, "a"⟩, .left,
            .elseMark, .right, .left, ⟨.ident, "b"⟩, .right, .left, .endMark, .right,
            .endOfInput, .left, ⟨.error, "late"⟩] },
      depth := 99 }
    rfl rfl (by decide) (by decide)
  refine (accepts.2 _ ?_ ?_).1
  · rfl
  · exact .twoBranches (by decide) (by decide) (by decide) (.text .nil) (.ident .nil) .nil

end Parser
end Stencil
