import Stencil.Proofs.Blame

/-!
# The first failure wins

Nothing behind the first error or end of the input can matter to the parser. Up to there a list
either has stopped within the tokens before it, and then would have stopped just so whatever
came next, or it stops on that very token and reads no further (`Parser.ListRun.splits`). Hence
neither the outcome nor the nodes depend on what follows, and a whole template is never
completed across an error (`Parser.parse_first_failure`).

One case needs care: a lookahead that meets the token inside the expected ones has seen it
without consuming it. The tag that it then starts cannot be closed before the token, so the
list reaches the token all the same (`Parser.front_splits`).
-/

namespace Stencil

/-- An error or the end of the input: nothing is read past it. -/
def Token.Final (t : Token) : Prop :=
  t.kind = .eof ∨ t.kind = .error

instance (t : Token) : Decidable t.Final :=
  inferInstanceAs (Decidable (_ ∨ _))

theorem Token.inner_of_not_final {t : Token} (notClosing : t.kind ≠ .rightMeta) (inner : ¬t.Final) :
    t.Inner :=
  ⟨notClosing, fun last => inner (.inl last), fun bad => inner (.inr bad)⟩

namespace Parser

open Ahead Token

/-- What is left behind the start of an item. -/
def Front.rest : Front → List Token
  | stop _ rest => rest
  | text _ rest => rest
  | tag _ rest => rest

/-- The same start of an item, with more tokens behind it. -/
def Front.before (more : List Token) : Front → Front
  | stop outcome rest => stop outcome (rest ++ more)
  | text value rest => text value (rest ++ more)
  | tag node rest => tag node (rest ++ more)

/-- The tokens `p` alone decide how the next item starts. -/
def Decided (root : Bool) (names : List String) (p : List Token) (f : Front) : Prop :=
  f.rest <:+ p ∧ ∀ r, front root names (p ++ r) = f.before r

/-- An outcome that the token `e` forces on a list that reaches it. -/
def Reaches (root : Bool) (e : Token) (outcome : Except Failure Unit) : Prop :=
  (e.kind = .error → outcome = .error (.lexical e)) ∧ (outcome = .ok () → root = true)

variable {root : Bool} {names : List String} {depth : Int} {ts p r rest : List Token} {e : Token}
  {ns : List Node} {outcome : Except Failure Unit}

/-! ## Lookaheads and tags before a token -/

/-- Tokens that do not end inside the expected ones decide a lookahead. -/
theorem test_append {expected : List Token} (decided : p <+: expected → p = expected) :
    ∃ answer, ∀ r, test expected (p ++ r) = .ok answer := by
  induction expected generalizing p with
  | nil => exact ⟨true, fun _ => rfl⟩
  | cons want expected ih =>
    cases p with
    | nil => cases decided List.nil_prefix
    | cons got p =>
      by_cases same : got = want
      · subst same
        obtain ⟨answer, tested⟩ := ih (p := p) fun inside =>
          (List.cons.inj (decided ((List.prefix_cons_inj got).mpr inside))).2
        exact ⟨answer, fun r => by rw [List.cons_append, test, if_pos rfl, tested]⟩
      · exact ⟨false, fun r => by rw [List.cons_append, test, if_neg same]⟩

/-- Tokens that are inside of no mark decide whether a list ends before them. -/
theorem atListEnd_append (names : List String)
    (decided : ∀ l ∈ Lookahead.standard, p <+: l.expected → p = l.expected) :
    ∃ answer, ∀ r, atListEnd Lookahead.standard names (p ++ r) = answer := by
  induction names with
  | nil => exact ⟨.ok false, fun _ => rfl⟩
  | cons name names ih =>
    cases found : Lookahead.find Lookahead.standard name with
    | error f => exact ⟨.error f, fun r => by rw [atListEnd, found]⟩
    | ok l =>
      obtain ⟨answer, tested⟩ := test_append (decided l (mem_of_find found).1)
      obtain ⟨more, asked⟩ := ih
      cases answer with
      | true => exact ⟨.ok true, fun r => by rw [atListEnd, found]; simp only [tested]⟩
      | false => exact ⟨more, fun r => by rw [atListEnd, found]; simp only [tested, asked]⟩

/-- What the parser looks for is the tag of one word. -/
theorem expected_of_mem_standard {l : Lookahead} (member : l ∈ Lookahead.standard) :
    ∃ word, l.expected = [.left, word, .right] ∧ word.Inner := by
  simp only [Lookahead.standard, List.mem_cons, List.not_mem_nil, or_false] at member
  rcases member with rfl | rfl
  · exact ⟨.endMark, rfl, by decide⟩
  · exact ⟨.elseMark, rfl, by decide⟩

/-- A tag that is not closed before an error or the end of the input is none that a list ends
with. -/
theorem test_of_unclosed {opening : Token} {l : Lookahead} (member : l ∈ Lookahead.standard)
    (inner : ∀ t ∈ p, t.Inner) (final : e.Final) :
    test l.expected (opening :: (p ++ e :: r)) = .ok false := by
  obtain ⟨word, expected, wordInner⟩ := expected_of_mem_standard member
  have notWord : e ≠ word := by
    rintro rfl
    exact final.elim wordInner.2.1 wordInner.2.2
  have notRight : ∀ t : Token, t.Final ∨ t.Inner → t ≠ .right := by
    rintro _ (final | inner) rfl
    · revert final; decide
    · revert inner; decide
  rw [expected]
  match p, inner with
  | [], _ => simp [test, notWord]
  | [t], _ => simp [test, notRight e (.inl final)]
  | t :: u :: p, inner => simp [test, notRight u (.inr (inner u (by simp)))]

/-- Whether a tag is closed among tokens that hold no error and no end of the input. -/
theorem inner_or_closed (inner : ∀ t ∈ p, ¬t.Final) :
    (∀ t ∈ p, t.Inner) ∨
      ∃ tokens closing p', p = tokens ++ closing :: p' ∧ closing.kind = .rightMeta ∧
        ∀ t ∈ tokens, t.Inner := by
  induction p with
  | nil => exact .inl nofun
  | cons t p ih =>
    by_cases closing : t.kind = .rightMeta
    · exact .inr ⟨[], t, p, rfl, closing, nofun⟩
    have here := inner_of_not_final closing (inner t List.mem_cons_self)
    rcases ih fun u member => inner u (List.mem_cons_of_mem _ member) with
      all | ⟨tokens, closing, p', rfl, right, tokensInner⟩
    · exact .inl (List.forall_mem_cons.mpr ⟨here, all⟩)
    · exact .inr ⟨t :: tokens, closing, p', rfl, right,
        List.forall_mem_cons.mpr ⟨here, tokensInner⟩⟩

/-- A tag that is not closed before a final token fails at that token, whatever is behind it. -/
theorem readUntil_of_unclosed (inner : ∀ t ∈ p, t.Inner) (final : e.Final) :
    ∃ f, (e.kind = .error → f = .lexical e) ∧
      ∀ r, readUntil .rightMeta (p ++ e :: r) = (.error f, r) := by
  have passed : ∀ t ∈ p, passes .rightMeta t := fun t member => passes_iff.mpr (inner t member)
  rcases final with last | bad
  · refine ⟨.endWhileScanning .rightMeta, by simp [last], ?_⟩
    intro r
    rw [readUntil_passed passed]
    simp [readUntil, last, Except.map]
  · refine ⟨.lexical e, fun _ => rfl, ?_⟩
    intro r
    rw [readUntil_passed passed]
    simp [readUntil, bad, Except.map]

/-- A closed tag is read without regard to what follows it. -/
theorem readTag_of_closed {tokens : List Token} {closing : Token}
    (inner : ∀ t ∈ tokens, t.Inner) (right : closing.kind = .rightMeta) :
    ∃ answer p', ∀ r, readTag (tokens ++ closing :: r) = (answer, p' ++ r) := by
  have read : ∀ r, readUntil .rightMeta (tokens ++ closing :: r) = (.ok tokens, closing :: r) :=
    fun r => readUntil_append inner right
  cases ofTag : Node.ofTag tokens with
  | error f => exact ⟨.error f, [closing], fun r => by simp [readTag, read, ofTag]⟩
  | ok node =>
    cases node with
    | endMark => exact ⟨.error .strayEnd, [closing], fun r => by simp [readTag, read, ofTag]⟩
    | elseMark => exact ⟨.error .strayElse, [closing], fun r => by simp [readTag, read, ofTag]⟩
    | _ => exact ⟨.ok _, [], fun r => by simp [readTag, read, ofTag, next]; rfl⟩

/-! ## The start of an item before a token -/

/-- What comes first is decided by `p`, if it is the same whatever follows `p`. -/
theorem decided_of_forall {f : Front} (same : ∀ r, front root names (p ++ r) = f.before r) :
    Decided root names p f := by
  have start := same []
  rw [List.append_nil] at start
  refine ⟨?_, same⟩
  cases f with
  | stop outcome rest => simpa [Front.rest] using suffix_of_front_stop start
  | text value rest =>
    rw [(atListEnd_of_front_text start).2, List.append_nil]
    exact List.suffix_cons _ _
  | tag node rest => simpa [Front.rest] using suffix_of_front_tag start

/-- A list that ends before `p`, or cannot say whether it does, stops there. -/
theorem decided_of_atListEnd {answer : Except Failure Bool}
    (asked : ∀ r, atListEnd Lookahead.standard names (p ++ r) = answer)
    (stops : answer ≠ .ok false) : ∃ f, Decided root names p f := by
  cases answer with
  | error f =>
    exact ⟨.stop (.error f) p, decided_of_forall fun r => by rw [front.eq_def, asked]; rfl⟩
  | ok ends =>
    cases ends with
    | true => exact ⟨.stop (.ok ()) p, decided_of_forall fun r => by rw [front.eq_def, asked]; rfl⟩
    | false => exact absurd rfl stops

/-- An item that does not start with a tag is decided by its first token. -/
theorem decided_of_no_tag {t : Token} (noTag : t.kind ≠ .leftMeta) (inner : ¬t.Final) :
    ∃ f, Decided root names (t :: p) f := by
  have goesOn : ∀ l ∈ Lookahead.standard, t :: p <+: l.expected → t :: p = l.expected := by
    intro l member inside
    obtain ⟨word, expected, -⟩ := expected_of_mem_standard member
    rw [expected, List.cons_prefix_cons] at inside
    exact absurd (congrArg Token.kind inside.1) noTag
  obtain ⟨answer, asked⟩ := atListEnd_append names goesOn
  by_cases stops : answer = .ok false
  · subst stops
    rcases t with ⟨kind, value⟩
    cases kind
    case leftMeta => exact absurd rfl noTag
    case eof => exact absurd (.inl rfl) inner
    case error => exact absurd (.inr rfl) inner
    case text =>
      exact ⟨.text value p, decided_of_forall fun r => by rw [front.eq_def, asked]; rfl⟩
    all_goals
      exact ⟨.stop (.error (.unexpectedToken _)) p,
        decided_of_forall fun r => by rw [front.eq_def, asked]; rfl⟩
  · exact decided_of_atListEnd asked stops

/-- A closed tag decides the item that it starts. -/
theorem decided_of_closed {opening closing : Token} {tokens : List Token}
    (left : opening.kind = .leftMeta) (inner : ∀ t ∈ tokens, t.Inner)
    (right : closing.kind = .rightMeta) :
    ∃ f, Decided root names (opening :: (tokens ++ closing :: p)) f := by
  have goesOn : ∀ l ∈ Lookahead.standard, opening :: (tokens ++ closing :: p) <+: l.expected →
      opening :: (tokens ++ closing :: p) = l.expected := by
    intro l member inside
    obtain ⟨word, expected, wordInner⟩ := expected_of_mem_standard member
    rw [expected] at inside ⊢
    -- A closing delimiter is the third of the expected tokens, and no other.
    match tokens, inner with
    | [], _ =>
      simp only [List.nil_append, List.cons_prefix_cons] at inside
      exact absurd (inside.2.1 ▸ right) wordInner.1
    | [t], _ =>
      simp only [List.cons_append, List.nil_append, List.cons_prefix_cons, List.prefix_nil]
        at inside
      obtain ⟨rfl, rfl, rfl, rfl⟩ := inside
      rfl
    | t :: u :: tokens, inner =>
      simp only [List.cons_append, List.cons_prefix_cons] at inside
      exact absurd (congrArg Token.kind inside.2.2.1) (inner u (by simp)).1
  obtain ⟨answer, asked⟩ := atListEnd_append names goesOn
  by_cases stops : answer = .ok false
  · subst stops
    obtain ⟨answer, p', read⟩ := readTag_of_closed inner right
    rcases opening with ⟨kind, value⟩
    cases left
    cases answer with
    | error f =>
      refine ⟨.stop (.error f) (p' ++ p), decided_of_forall fun r => ?_⟩
      rw [front.eq_def, asked]
      simp [read, Front.before]
    | ok node =>
      refine ⟨.tag node (p' ++ p), decided_of_forall fun r => ?_⟩
      rw [front.eq_def, asked]
      simp [read, Front.before]
  · exact decided_of_atListEnd asked stops

/-- A list whose next token is final stops with it, whatever is behind. -/
theorem reaches_of_nil (known : names ⊆ firstEnd) (final : e.Final) :
    ∃ outcome, Reaches root e outcome ∧ ∀ r, front root names (e :: r) = .stop outcome r := by
  have goesOn : ∀ r, atListEnd Lookahead.standard names (e :: r) = .ok false := by
    refine fun r => atListEnd_eq_false known fun l member => ?_
    obtain ⟨word, expected, -⟩ := expected_of_mem_standard member
    have other : e ≠ .left := by
      rintro rfl
      revert final
      decide
    rw [expected, test, if_neg other]
  rcases final with last | bad
  · refine ⟨if root then .ok () else .error .endInBlock, ⟨by simp [last], ?_⟩, fun r => ?_⟩
    · cases root <;> simp
    · rw [front.eq_def, goesOn]
      simp only [last]
  · refine ⟨.error (.lexical e), ⟨fun _ => rfl, fun well => by cases well⟩, fun r => ?_⟩
    rw [front.eq_def, goesOn]
    simp only [bad]

/-- A list stops at the final token in a tag that is not closed before it. -/
theorem reaches_of_unclosed {opening : Token} (known : names ⊆ firstEnd)
    (left : opening.kind = .leftMeta) (inner : ∀ t ∈ p, t.Inner) (final : e.Final) :
    ∃ outcome, Reaches root e outcome ∧
      ∀ r, front root names (opening :: p ++ e :: r) = .stop outcome r := by
  have goesOn : ∀ r, atListEnd Lookahead.standard names (opening :: (p ++ e :: r)) = .ok false :=
    fun r => atListEnd_eq_false known fun l member => test_of_unclosed member inner final
  obtain ⟨f, bad, read⟩ := readUntil_of_unclosed inner final
  refine ⟨.error f, ⟨fun error => by rw [bad error], fun well => by cases well⟩,
    fun r => ?_⟩
  rw [front.eq_def, List.cons_append, goesOn]
  simp only [left, readTag, read]

/-- Before an error or the end of the input, the next item is decided by the tokens before it,
or else the list reaches it. -/
theorem front_splits (root : Bool) (known : names ⊆ firstEnd) (inner : ∀ t ∈ p, ¬t.Final)
    (final : e.Final) :
    (∃ f, Decided root names p f) ∨
      ∃ outcome, Reaches root e outcome ∧
        ∀ r, front root names (p ++ e :: r) = .stop outcome r := by
  cases p with
  | nil => exact .inr (reaches_of_nil known final)
  | cons t p =>
    obtain ⟨here, inner⟩ := List.forall_mem_cons.mp inner
    by_cases left : t.kind = .leftMeta
    · rcases inner_or_closed inner with unclosed | ⟨tokens, closing, p', rfl, right, closed⟩
      · exact .inr (reaches_of_unclosed known left unclosed final)
      · exact .inl (decided_of_closed left closed right)
    · exact .inl (decided_of_no_tag left here)

/-! ## Runs before a token -/

/-- A run on `p`, with `e` and `r` behind it, stops within `p` and knows nothing of what comes
next, or it stops on `e` and knows nothing of `r`. -/
def Splits (root : Bool) (names : List String) (depth : Int) (p : List Token) (e : Token)
    (r : List Token) (ns : List Node) (outcome : Except Failure Unit) (rest : List Token) :
    Prop :=
  (∃ p', p' <:+ p ∧ rest = p' ++ e :: r ∧
      ∀ r', ListRun root names depth (p ++ r') ns outcome (p' ++ r')) ∨
    (Reaches root e outcome ∧ rest = r ∧
      ∀ r', ListRun root names depth (p ++ e :: r') ns outcome r')

/-- What extends every run from `p'` to one from `p` extends a split. -/
theorem Splits.of_tail {root' : Bool} {names' : List String} {depth' : Int} {p' : List Token}
    {ns' : List Node} (tail : Splits root' names' depth' p' e r ns outcome rest)
    (suffix : p' <:+ p) (whole : outcome = .ok () → root' = true → root = true)
    (extend : ∀ {r' rest'}, ListRun root' names' depth' (p' ++ r') ns outcome rest' →
      ListRun root names depth (p ++ r') ns' outcome rest') :
    Splits root names depth p e r ns' outcome rest := by
  rcases tail with ⟨p'', inner, left, runs⟩ | ⟨⟨bad, ends⟩, left, runs⟩
  · exact .inl ⟨p'', inner.trans suffix, left, fun r' => extend (runs r')⟩
  · exact .inr ⟨⟨bad, fun well => whole well (ends well)⟩, left, fun r' => extend (runs r')⟩

/-- A branch that stops before its mark stops within `p`, mark included. -/
theorem Splits.branch {tag rest₁ : List Token}
    (branch : Splits false names depth p e r ns (.ok ()) (tag ++ rest₁)) (foreign : e ∉ tag) :
    ∃ p', p' <:+ p ∧ rest₁ = p' ++ e :: r ∧
      ∀ r', ListRun false names depth (p ++ r') ns (.ok ()) (tag ++ (p' ++ r')) := by
  rcases branch with ⟨p', suffix, left, runs⟩ | ⟨⟨-, never⟩, -⟩
  · rcases List.append_eq_append_iff.mp left with ⟨p'', rfl, rfl⟩ | ⟨p'', rfl, meets⟩
    · refine ⟨p'', (List.suffix_append _ _).trans suffix, rfl, fun r' => ?_⟩
      rw [← List.append_assoc]
      exact runs r'
    · cases p'' with
      | nil =>
        refine ⟨[], List.nil_suffix, meets.symm, fun r' => ?_⟩
        simpa using runs r'
      | cons t p'' =>
        cases meets
        exact absurd (List.mem_append_right _ List.mem_cons_self) foreign
  · cases never rfl

theorem not_mem_of_final {tag : List Token} (final : e.Final) (inner : ∀ t ∈ tag, ¬t.Final) :
    e ∉ tag :=
  fun member => inner e member final

/-- How the tokens before `e` decide the start of an item that is known to be `f`. -/
theorem decided_of_front {f : Front} (known : names ⊆ firstEnd) (inner : ∀ t ∈ p, ¬t.Final)
    (final : e.Final) (start : front root names (p ++ e :: r) = f) :
    (∃ f', Decided root names p f' ∧ f = f'.before (e :: r)) ∨
      ∃ outcome, Reaches root e outcome ∧ f = .stop outcome r ∧
        ∀ r', front root names (p ++ e :: r') = .stop outcome r' := by
  rcases front_splits root known inner final with ⟨f', decided⟩ | ⟨o, reaches, same⟩
  · exact .inl ⟨f', decided, start.symm.trans (decided.2 _)⟩
  · exact .inr ⟨o, reaches, start.symm.trans (same r), same⟩

theorem exists_of_front_tag {node : Node} (known : names ⊆ firstEnd) (inner : ∀ t ∈ p, ¬t.Final)
    (final : e.Final) (start : front root names (p ++ e :: r) = .tag node rest) :
    ∃ p', p' <:+ p ∧ rest = p' ++ e :: r ∧
      ∀ r', front root names (p ++ r') = .tag node (p' ++ r') := by
  rcases decided_of_front known inner final start with ⟨f, ⟨suffix, same⟩, is⟩ | ⟨_, -, never, -⟩
  · cases f <;> cases is
    exact ⟨_, suffix, rfl, same⟩
  · cases never

/-- A run that has a first final token ahead stops before it, and then alike whatever comes from
there on, or stops at it, and leaves all that is behind. -/
theorem ListRun.splits (run : ListRun root names depth ts ns outcome rest)
    (known : names ⊆ firstEnd) (whole : ts = p ++ e :: r) (inner : ∀ t ∈ p, ¬t.Final)
    (final : e.Final) : Splits root names depth p e r ns outcome rest := by
  have endTag : e ∉ Token.endTag := not_mem_of_final final (by decide)
  have elseTag : e ∉ Token.elseTag := not_mem_of_final final (by decide)
  have secondKnown : Grammar.secondBranchEnd ⊆ firstEnd := by
    simp [Grammar.secondBranchEnd, firstEnd]
  induction run generalizing p with
  | stop start =>
    subst whole
    rcases decided_of_front known inner final start with ⟨f, ⟨suffix, same⟩, is⟩ |
      ⟨_, reaches, is, same⟩
    · cases f <;> cases is
      exact .inl ⟨_, suffix, rfl, fun r' => .stop (same r')⟩
    · cases is
      exact .inr ⟨reaches, rfl, fun r' => .stop (same r')⟩
  | text start _ ih =>
    subst whole
    rcases decided_of_front known inner final start with ⟨f, ⟨suffix, same⟩, is⟩ | ⟨_, -, is, -⟩
    · cases f <;> cases is
      exact (ih known rfl (fun t member => inner t (suffix.subset member))).of_tail suffix
        (fun _ => id) fun run => .text (same _) run
    · cases is
  | ident start _ ih =>
    subst whole
    obtain ⟨p', suffix, rfl, same⟩ := exists_of_front_tag known inner final start
    have inner' := fun t member => inner t (suffix.subset member)
    exact (ih known rfl inner').of_tail suffix (fun _ => id) fun run => .ident (same _) run
  | tooDeep start deep =>
    subst whole
    obtain ⟨p', suffix, rfl, same⟩ := exists_of_front_tag known inner final start
    exact .inl ⟨p', suffix, rfl, fun r' => .tooDeep (same r') deep⟩
  | firstFails start shallow _ ih =>
    subst whole
    obtain ⟨p', suffix, rfl, same⟩ := exists_of_front_tag known inner final start
    have inner' := fun t member => inner t (suffix.subset member)
    exact (ih (List.Subset.refl _) rfl inner').of_tail suffix (fun well => by cases well)
      fun run => .firstFails (same _) shallow run
  | oneBranch start shallow _ _ ih ih' =>
    subst whole
    obtain ⟨p', suffix, rfl, same⟩ := exists_of_front_tag known inner final start
    have inner' := fun t member => inner t (suffix.subset member)
    obtain ⟨p₁, suffix₁, rfl, first⟩ := (ih (List.Subset.refl _) rfl inner').branch endTag
    have inner₁ := fun t member => inner' t (suffix₁.subset member)
    exact (ih' known rfl inner₁).of_tail (suffix₁.trans suffix) (fun _ => id)
      fun run => .oneBranch (same _) shallow (first _) run
  | secondFails start shallow _ _ ih ih' =>
    subst whole
    obtain ⟨p', suffix, rfl, same⟩ := exists_of_front_tag known inner final start
    have inner' := fun t member => inner t (suffix.subset member)
    obtain ⟨p₁, suffix₁, rfl, first⟩ := (ih (List.Subset.refl _) rfl inner').branch elseTag
    have inner₁ := fun t member => inner' t (suffix₁.subset member)
    exact (ih' secondKnown rfl inner₁).of_tail (suffix₁.trans suffix) (fun well => by cases well)
      fun run => .secondFails (same _) shallow (first _) run
  | twoBranches start shallow _ _ _ ih ih' ih'' =>
    subst whole
    obtain ⟨p', suffix, rfl, same⟩ := exists_of_front_tag known inner final start
    have inner' := fun t member => inner t (suffix.subset member)
    obtain ⟨p₁, suffix₁, rfl, first⟩ := (ih (List.Subset.refl _) rfl inner').branch elseTag
    have inner₁ := fun t member => inner' t (suffix₁.subset member)
    obtain ⟨p₂, suffix₂, rfl, second⟩ := (ih' secondKnown rfl inner₁).branch endTag
    have inner₂ := fun t member => inner₁ t (suffix₂.subset member)
    exact (ih'' known rfl inner₂).of_tail ((suffix₂.trans suffix₁).trans suffix) (fun _ => id)
      fun run => .twoBranches (same _) shallow (first _) (second _) run

/-- A whole template is not complete before its end. -/
theorem ListRun.ne_ok_of_not_mem_eof (run : ListRun true [] depth ts ns outcome rest)
    (inner : ∀ t ∈ ts, t.kind ≠ .eof) : outcome ≠ .ok () := by
  intro well
  obtain ⟨-, used, eaten, rfl, -, ends⟩ := run.grammatical
  rcases ends well with ⟨-, never⟩ | ⟨-, t, rfl, last⟩
  · cases never
  · exact inner t (by simp) last

/-- A whole template with an error in it fails: with the error, or before it and whatever comes
in its place. -/
theorem ListRun.error_of_error (run : ListRun true [] depth (p ++ e :: r) ns outcome rest)
    (inner : ∀ t ∈ p, ¬t.Final) (bad : e.kind = .error) :
    outcome = .error (.lexical e) ∨
      ∃ f, f.OfTemplate ∧ outcome = .error f ∧
        ∀ r', ∃ ns rest, ListRun true [] depth (p ++ r') ns (.error f) rest := by
  rcases run.splits (List.nil_subset _) rfl inner (.inr bad) with
    ⟨p', -, -, runs⟩ | ⟨⟨lexical, -⟩, -⟩
  · have stops := runs []
    rw [List.append_nil] at stops
    cases outcome with
    | ok _ =>
      exact absurd rfl (stops.ne_ok_of_not_mem_eof fun t member last => inner t member (.inl last))
    | error f =>
      have ended : Ended (p ++ [.endOfInput]) := ⟨.endOfInput, by simp, rfl⟩
      have blamed := (runs [.endOfInput]).ofTemplate (List.nil_subset _) ended rfl
      exact .inr ⟨f, blamed, rfl, fun r' => ⟨ns, p' ++ r', runs r'⟩⟩
  · exact .inl (lexical bad)

/-- The outcome of parsing a list is that of any run on the tokens ahead. -/
theorem outcome_of_run {p : Parser} (children : List Node)
    (run : ListRun root names p.depth p.cursor.upcoming ns outcome rest) :
    (parse {} (.list root names children) p).outcome = outcome ∧
      (parse {} (.list root names children) p).left = .list root names (children ++ ns) := by
  obtain ⟨ns', left, run', -⟩ := parse_list root names children p
  obtain ⟨rfl, same, -⟩ := run'.unique run
  exact ⟨same, left⟩

/-- The first failure wins. Two streams of tokens that agree up to their first error or end of
the input are parsed to the same outcome, the same nodes and the same depth, by a whole template
as by any branch, whatever comes behind that token. A whole template with an error in it fails,
with the error itself or with a failure that the tokens before it are enough for. -/
theorem parse_first_failure {p q : Parser} {ts r₁ r₂ : List Token} {children : List Node}
    (ahead : p.cursor.upcoming = ts ++ e :: r₁) (ahead' : q.cursor.upcoming = ts ++ e :: r₂)
    (depth : q.depth = p.depth) (inner : ∀ t ∈ ts, ¬t.Final) (final : e.Final)
    (known : names ⊆ firstEnd) :
    ((parse {} (.list root names children) p).outcome =
        (parse {} (.list root names children) q).outcome ∧
      (parse {} (.list root names children) p).left =
        (parse {} (.list root names children) q).left ∧
      (parse {} (.list root names children) p).parser.depth =
        (parse {} (.list root names children) q).parser.depth) ∧
      (e.kind = .error → root = true → names = [] →
        (parse {} (.list root names children) p).outcome = .error (.lexical e) ∨
          ∃ f, f.OfTemplate ∧ (parse {} (.list root names children) p).outcome = .error f ∧
            ∀ p' : Parser, p'.depth = p.depth → ts <+: p'.cursor.upcoming →
              (parse {} (.list root names children) p').outcome = .error f) := by
  obtain ⟨ns, left, run, same⟩ := parse_list root names children p
  obtain ⟨-, -, -, same'⟩ := parse_list root names children q
  generalize (parse {} (.list root names children) p).outcome = outcome at run ⊢
  rw [ahead] at run
  have alike : ∃ rest, ListRun root names p.depth (ts ++ e :: r₂) ns outcome rest := by
    rcases run.splits known rfl inner final with ⟨p', -, -, runs⟩ | ⟨-, -, runs⟩
    · exact ⟨_, runs (e :: r₂)⟩
    · exact ⟨_, runs r₂⟩
  obtain ⟨_, run'⟩ := alike
  rw [← ahead', ← depth] at run'
  obtain ⟨outcome', left'⟩ := outcome_of_run children run'
  refine ⟨⟨outcome'.symm, left.trans left'.symm, same.trans (depth.symm.trans same'.symm)⟩, ?_⟩
  rintro bad rfl rfl
  rcases run.error_of_error inner bad with lexical | ⟨f, blamed, fails, runs⟩
  · exact .inl lexical
  · refine .inr ⟨f, blamed, fails, ?_⟩
    rintro p' sameDepth ⟨r', ahead⟩
    obtain ⟨_, _, run⟩ := runs r'
    rw [← sameDepth, ahead] at run
    exact (outcome_of_run children run).1

/-- A branch of a block at the deepest level but one, which an error interrupts inside what
would be its mark; and a whole template that has failed before the error. -/
theorem parse_first_failure_branch :
    (parse {} (.list false firstEnd [.text "old"])
        { cursor :=
            { returned := [.left, .ifMark, ⟨.ident, "a"⟩, .right, .left],
              stream := [.elseMark, ⟨.error, "bad"⟩, .right, .endOfInput] },
          depth := 99 }).left =
      (parse {} (.list false firstEnd [.text "old"])
        { cursor :=
            { stream := [.left, .ifMark, ⟨.ident, "a"⟩, .right, .left, .elseMark,
                ⟨.error, "bad"⟩] },
          depth := 99 }).left ∧
      ((parse {} (.list true [] []) ⟨{ stream := [.right, ⟨.error, "bad"⟩] }, -7⟩).outcome =
          .error (.lexical ⟨.error, "bad"⟩) ∨
        ∃ f, f.OfTemplate ∧
          (parse {} (.list true [] []) ⟨{ stream := [.right, ⟨.error, "bad"⟩] }, -7⟩).outcome =
            .error f ∧
          ∀ p' : Parser, p'.depth = -7 → [.right] <+: p'.cursor.upcoming →
            (parse {} (.list true [] []) p').outcome = .error f) := by
  have ahead : Cursor.upcoming
      { returned := [.left, .ifMark, ⟨.ident, "a"⟩, .right, .left],
        stream := [.elseMark, ⟨.error, "bad"⟩, .right, .endOfInput] } =
      [.left, .ifMark, ⟨.ident, "a"⟩, .right, .left, .elseMark] ++
        ⟨.error, "bad"⟩ :: [.right, .endOfInput] := rfl
  have ahead' : Cursor.upcoming
      { stream := [.left, .ifMark, ⟨.ident, "a"⟩, .right, .left, .elseMark, ⟨.error, "bad"⟩] } =
      [.left, .ifMark, ⟨.ident, "a"⟩, .right, .left, .elseMark] ++ ⟨.error, "bad"⟩ :: [] := rfl
  have inner : ∀ t ∈ [Token.left, .ifMark, ⟨.ident, "a"⟩, .right, .left, .elseMark],
      ¬t.Final := by decide
  have aheadRoot : Cursor.upcoming { stream := [.right, ⟨.error, "bad"⟩] } =
      [.right] ++ ⟨.error, "bad"⟩ :: [] := rfl
  constructor
  · exact (parse_first_failure (p := ⟨_, 99⟩) (q := ⟨_, 99⟩) ahead ahead' rfl inner (.inr rfl)
      (List.Subset.refl _)).1.2.1
  · exact (parse_first_failure (p := ⟨_, -7⟩) (q := ⟨_, -7⟩) aheadRoot aheadRoot rfl (by decide)
      (.inr rfl) (List.nil_subset _)).2 rfl rfl rfl

end Parser
end Stencil
