import Stencil.Proofs.Handoff
import Stencil.Proofs.RoundTrip
import Stencil.Proofs.Simulation

/-!
# The order of what is sent

Whatever becomes of its source, a lexer sends tokens in one order (`Lexer.Shaped`), then the end
of the input, and closes its channel once (`Lexer.run_shaped`). The only token that may come
anywhere is the one that says why the source cannot be read further; and only what was taken
before that read may come behind it (`Lexer.Trails`).

`Lexer.Stands` says what is known of a lexer on a source that may fail: which characters its
reads still give, and which tokens it has sent. A read of one of these characters succeeds. A
read behind the last of them may also crash, or send that the source cannot be read further
(`Lexer.Reports`), so this is all that each operation has to allow for.
-/

namespace Stencil

open Text

/-- The characters that reads still give. -/
def Source.visible (source : Source) : List Char :=
  match source.failure with
  | some (n, _) => source.rest.take n
  | none => source.rest

/-- What an action puts into the channel. -/
def Action.parcel? : Action → Option Parcel
  | send t => some (.token t)
  | close => some .closing
  | read => none

/-- A token of a kind that sources contain, or an error. -/
def Token.Produced (t : Token) : Prop :=
  t.kind ≠ .eof ∧ t.kind ≠ .forWord ∧ t.kind ≠ .invalid

instance (t : Token) : Decidable t.Produced :=
  inferInstanceAs (Decidable (_ ∧ _ ∧ _))

/-- What a run puts into the channel, in order. -/
def Lexing.parcels (l : Lexing) : List Parcel :=
  l.actions.filterMap (·.parcel?)

namespace Lexer

/-! ## The order -/

/-- In text or in a tag: what still comes once the source could not be read further. -/
inductive Trails : (inTag : Bool) → List Token → Prop
  | nothing {inTag : Bool} : Trails inTag []
  | text {value : String} : Node.IsText value → Trails false [⟨.text, value⟩]
  | term {t : Token} : t.IsTerm → Trails true [t]

/-- In text or in a tag: what comes before the end of the input. -/
inductive Shaped : (inTag : Bool) → List Token → Prop
  | done {inTag : Bool} : Shaped inTag []
  | lastText {value : String} : Node.IsText value → Shaped false [⟨.text, value⟩]
  | text {value : String} {ts : List Token} :
    Node.IsText value → value.toList.getLast? ≠ some '{' → Shaped true ts →
    Shaped false (⟨.text, value⟩ :: .left :: ts)
  | left {ts : List Token} : Shaped true ts → Shaped false (.left :: ts)
  | strayRight : Shaped false [strayRight]
  | term {t : Token} {ts : List Token} : t.IsTerm → Shaped true ts → Shaped true (t :: ts)
  | right {ts : List Token} : Shaped false ts → Shaped true (.right :: ts)
  | strayLeft {ts : List Token} : Shaped false ts → Shaped true (strayLeft :: ts)
  | unreadable {inTag : Bool} {message : String} {ts : List Token} :
    Trails inTag ts → Shaped inTag (readFailure message :: ts)

/-- What comes from the start of a step on, if a read has failed (`broken`) or not. -/
def Expected : (broken : Bool) → Mode → List Token → Prop
  | false, .text, ts => Shaped false ts
  | false, _, ts => Shaped true ts
  | true, .text, ts => Trails false ts
  | true, _, ts => ts = []

variable {broken broken' : Bool} {m : Mode} {ts us : List Token} {inTag : Bool}
  {pending : List Char}

theorem expected_nil : Expected broken m [] := by
  cases broken with
  | false => cases m <;> exact Shaped.done
  | true =>
    cases m with
    | text => exact Trails.nothing
    | tag => rfl
    | word => rfl

theorem Trails.flushed (noPair : NoPair pending) : Trails false (flushed pending) := by
  cases pending with
  | nil => exact .nothing
  | cons c cs => exact .text (isText_of_pending noPair nofun)

theorem Shaped.flushed (noPair : NoPair pending) : Shaped false (flushed pending) := by
  cases pending with
  | nil => exact .done
  | cons c cs => exact .lastText (isText_of_pending noPair nofun)

theorem Shaped.flushed_left (noPair : NoPair ('{' :: pending)) (more : Shaped true ts) :
    Shaped false (Lexer.flushed pending ++ .left :: ts) := by
  cases pending with
  | nil => exact .left more
  | cons c cs =>
    obtain ⟨isText, seam⟩ := isText_before_left noPair nofun
    exact .text isText seam more

theorem expected_flushed (noPair : NoPair pending) : Expected broken .text (flushed pending) := by
  cases broken with
  | false => exact .flushed noPair
  | true => exact .flushed noPair

/-! ## What reads may do -/

/-- The characters still to come. -/
def ahead (s : Lexer) : List Char :=
  s.returned ++ if s.broken then [] else s.source.visible

/-- The tokens sent so far. -/
def sent (s : Lexer) : List Token :=
  s.actions.reverse.filterMap (·.token?)

/-- A lexer on any source: whether a read has failed, which characters are pending and which are
to come, and what has been sent. -/
structure Stands (s : Lexer) (broken : Bool) (pending ahead : List Char) (sent : List Token) :
    Prop where
  state : s.broken = broken
  held : s.pending = pending
  coming : s.ahead = ahead
  done : s.sent = sent
  ended : broken = true → ahead = []

/-- What the reads of an operation have sent: nothing, or that the source cannot be read
further. -/
inductive Report : (before after : Bool) → List Token → Prop
  | silent {broken : Bool} : Report broken broken []
  | failed {message : String} : Report false true [readFailure message]

/-- The same for the lexer that an operation leaves. -/
def Reports (s : Lexer) (broken : Bool) (pending ahead : List Char) (sent : List Token) : Prop :=
  ∃ broken' ts, Report broken broken' ts ∧ Stands s broken' pending ahead (sent ++ ts)

variable {s s' : Lexer} {c : Char} {cs ahead : List Char} {sent : List Token}

theorem sent_read (s : Lexer) (source : Source) :
    Lexer.sent { s with source, actions := .read :: s.actions } = s.sent := by
  simp [Lexer.sent, Action.token?]

theorem sent_send (s : Lexer) (t : Token) : (s.send t).sent = s.sent ++ [t] := by
  simp [Lexer.sent, Lexer.send, Action.token?]

/-- A character that reads give is given by the next one, if it is the first. -/
theorem read_of_visible {source : Source} (visible : source.visible = c :: cs) :
    ∃ source', source.read = (.ok (some c), source') ∧ source'.visible = cs := by
  rcases source with ⟨rest, _ | ⟨_ | n, fault⟩⟩
  · obtain rfl : rest = c :: cs := visible
    exact ⟨⟨cs, none⟩, rfl, rfl⟩
  · cases visible
  · cases rest with
    | nil => cases visible
    | cons d ds =>
      obtain ⟨rfl, rfl⟩ := List.cons.inj visible
      exact ⟨⟨ds, some (n, fault)⟩, rfl, rfl⟩

/-- Where reads give no more characters, the next one shows that, or fails. -/
theorem read_of_not_visible {source : Source} (visible : source.visible = []) :
    (∃ source', source.read = (.ok none, source') ∧ source'.visible = []) ∨
      ∃ fault source', source.read = (.error fault, source') := by
  rcases source with ⟨rest, _ | ⟨_ | n, fault⟩⟩
  · obtain rfl : rest = [] := visible
    exact .inl ⟨⟨[], none⟩, rfl, rfl⟩
  · exact .inr ⟨fault, ⟨rest, none⟩, rfl⟩
  · cases rest with
    | nil => exact .inl ⟨⟨[], some (n, fault)⟩, rfl, List.take_nil⟩
    | cons d ds => cases visible

theorem Stands.start (source : Source) : Stands { source } false [] source.visible [] :=
  ⟨rfl, rfl, rfl, rfl, nofun⟩

/-- A lexer that has more to come has not met a failure. -/
theorem Stands.whole (stands : Stands s broken pending (c :: cs) sent) : broken = false := by
  cases broken with
  | false => rfl
  | true => exact absurd (stands.ended rfl) (List.cons_ne_nil c cs)

theorem Stands.reports (stands : Stands s broken pending ahead sent) :
    Reports s broken pending ahead sent := by
  refine ⟨broken, [], .silent, ?_⟩
  rw [List.append_nil]
  exact stands

theorem Stands.hold (stands : Stands s broken pending ahead sent) (cs : List Char) :
    Stands { s with pending := cs } broken cs ahead sent :=
  ⟨stands.state, rfl, stands.coming, stands.done, stands.ended⟩

theorem Stands.giveBack (stands : Stands s false pending ahead sent) (c : Char) :
    Stands { s with returned := c :: s.returned } false pending (c :: ahead) sent := by
  refine ⟨stands.state, stands.held, ?_, stands.done, nofun⟩
  rw [← stands.coming]
  rfl

theorem Stands.send (stands : Stands s broken pending ahead sent) (t : Token) :
    Stands (s.send t) broken pending ahead (sent ++ [t]) := by
  refine ⟨stands.state, stands.held, stands.coming, ?_, stands.ended⟩
  rw [sent_send, stands.done]

theorem Stands.discard (stands : Stands s broken pending ahead sent) (n : Nat) :
    Stands (s.discard n) broken (pending.drop n) ahead sent := by
  rw [← stands.held]
  exact stands.hold _

theorem Stands.emit (stands : Stands s broken pending ahead sent) (token : String → Token) :
    Stands (s.emit token) broken [] ahead (sent ++ [token (String.ofList pending.reverse)]) := by
  rw [← stands.held]
  exact (stands.hold []).send _

theorem Stands.flush (stands : Stands s broken pending ahead sent) :
    Stands s.flush broken [] ahead (sent ++ Lexer.flushed pending) := by
  unfold Lexer.flush Lexer.flushed
  rw [stands.held]
  cases pending with
  | nil =>
    rw [List.isEmpty_nil, if_pos rfl, if_pos rfl, List.append_nil]
    exact stands
  | cons c cs => exact stands.emit _

/-! ## Reading -/

/-- A read with characters to come gives the first of them. -/
theorem Stands.read_cons (stands : Stands s broken pending (c :: cs) sent) :
    ∃ s', s.read = .ok (some c) s' ∧ Stands s' broken pending cs sent := by
  obtain rfl : broken = false := stands.whole
  have coming := stands.coming
  rw [Lexer.ahead, stands.state, if_neg nofun] at coming
  cases returned : s.returned with
  | cons d ds =>
    rw [returned] at coming
    cases coming
    refine ⟨_, read_returned returned, stands.state, stands.held, ?_, stands.done, nofun⟩
    rw [Lexer.ahead, stands.state, if_neg nofun]
    rfl
  | nil =>
    rw [returned] at coming
    obtain ⟨source', answer, visible⟩ := read_of_visible coming
    refine ⟨_, read_ok returned stands.state answer, stands.state, stands.held, ?_, ?_, nofun⟩
    · rw [Lexer.ahead, stands.state, if_neg nofun, returned]
      exact visible
    · rw [sent_read, stands.done]

/-- A read with nothing to come finds the end, or fails and is reported. -/
theorem Stands.read_nil (stands : Stands s broken pending [] sent) :
    s.read.Leaves (fun c? s' => c? = none ∧ Reports s' broken pending [] sent)
      fun _ s' => s'.sent = sent := by
  obtain ⟨returned, nothing⟩ := List.append_eq_nil_iff.mp stands.coming
  have state := stands.state
  cases broken with
  | true =>
    rw [read_broken returned state]
    exact .ok ⟨rfl, stands.reports⟩
  | false =>
    rw [state, if_neg nofun] at nothing
    rcases read_of_not_visible nothing with ⟨source', answer, visible⟩ | ⟨fault, source', answer⟩
    · rw [read_ok returned state answer]
      refine .ok ⟨rfl, Stands.reports ⟨state, stands.held, ?_, ?_, nofun⟩⟩
      · rw [Lexer.ahead, state, if_neg nofun, returned]
        exact visible
      · rw [sent_read, stands.done]
    · cases fault with
      | crash label message =>
        rw [read_crash returned state answer]
        refine .crash ?_
        rw [sent_read, stands.done]
      | unreadable message =>
        rw [read_unreadable returned state answer]
        refine .ok ⟨rfl, true, [readFailure message], .failed, rfl, stands.held, ?_, ?_, ?_⟩
        · rw [Lexer.ahead, returned, if_pos rfl, List.append_nil]
        · simp [Lexer.sent, Action.token?, ← stands.done]
        · exact fun _ => rfl

theorem Stands.next_cons (stands : Stands s broken pending (c :: cs) sent) :
    ∃ s', s.next = .ok (some c) s' ∧ Stands s' broken (c :: pending) cs sent := by
  obtain ⟨s', read, after⟩ := stands.read_cons
  refine ⟨{ s' with pending := c :: s'.pending }, ?_, ?_⟩
  · rw [next_eq, read]
    rfl
  · rw [after.held]
    exact after.hold _

theorem Stands.peek_cons (stands : Stands s broken pending (c :: cs) sent) :
    ∃ s', s.peek = .ok (some c) s' ∧ Stands s' broken pending (c :: cs) sent := by
  obtain rfl : broken = false := stands.whole
  obtain ⟨s', read, after⟩ := stands.read_cons
  refine ⟨{ s' with returned := c :: s'.returned }, ?_, after.giveBack c⟩
  rw [peek_eq, read]
  rfl

/-- Reading a character moves it from what is ahead to what is pending. -/
theorem Stands.next (stands : Stands s broken pending ahead sent) :
    s.next.Leaves
      (fun c? s' => c? = ahead.head? ∧
        Reports s' broken (ahead.head?.toList ++ pending) ahead.tail sent)
      fun _ s' => s'.sent = sent := by
  cases ahead with
  | nil =>
    rw [next_eq]
    refine stands.read_nil.andThen ?_ fun _ _ same => same
    rintro _ s' ⟨rfl, reports⟩
    exact .ok ⟨rfl, reports⟩
  | cons c cs =>
    obtain ⟨s', next, after⟩ := stands.next_cons
    rw [next]
    exact .ok ⟨rfl, after.reports⟩

/-- Looking at the next character moves nothing. -/
theorem Stands.peek (stands : Stands s broken pending ahead sent) :
    s.peek.Leaves (fun c? s' => c? = ahead.head? ∧ Reports s' broken pending ahead sent)
      fun _ s' => s'.sent = sent := by
  cases ahead with
  | nil =>
    rw [peek_eq]
    refine stands.read_nil.andThen ?_ fun _ _ same => same
    rintro _ s' ⟨rfl, reports⟩
    exact .ok ⟨rfl, reports⟩
  | cons c cs =>
    obtain ⟨s', peek, after⟩ := stands.peek_cons
    rw [peek]
    exact .ok ⟨rfl, after.reports⟩

/-- Taking a word moves it from what is ahead to what is pending. -/
theorem Stands.takeWord (stands : Stands s broken pending ahead sent) :
    s.takeWord.Leaves
      (fun _ s' => Reports s' broken ((ahead.takeWhile continuesWord).reverse ++ pending)
        (ahead.dropWhile continuesWord) sent)
      fun _ s' => s'.sent = sent := by
  induction ahead generalizing s pending with
  | nil =>
    rw [takeWord_eq]
    refine stands.read_nil.andThen ?_ fun _ _ same => same
    rintro _ s' ⟨rfl, reports⟩
    exact .ok reports
  | cons c cs ih =>
    obtain rfl : broken = false := stands.whole
    obtain ⟨s', read, after⟩ := stands.read_cons
    rw [takeWord_eq, read]
    simp only [Outcome.andThen]
    by_cases more : continuesWord c
    · rw [if_pos more, List.takeWhile_cons_of_pos more, List.dropWhile_cons_of_pos more,
        List.reverse_cons, List.append_assoc, after.held]
      exact ih (after.hold _)
    · rw [if_neg more, List.takeWhile_cons_of_neg more, List.dropWhile_cons_of_neg more]
      exact .ok (after.giveBack c).reports

/-- Skipping to the end of the line drops what is ahead of it. -/
theorem Stands.skipLine (stands : Stands s broken pending ahead sent) :
    s.skipLine.Leaves
      (fun _ s' => Reports s' broken pending (ahead.dropWhile fun c => !endsLine c) sent)
      fun _ s' => s'.sent = sent := by
  induction ahead generalizing s with
  | nil =>
    rw [skipLine_eq]
    refine stands.read_nil.andThen ?_ fun _ _ same => same
    rintro _ s' ⟨rfl, reports⟩
    exact .ok reports
  | cons c cs ih =>
    obtain rfl : broken = false := stands.whole
    obtain ⟨s', read, after⟩ := stands.read_cons
    rw [skipLine_eq, read]
    simp only [Outcome.andThen]
    by_cases stops : endsLine c
    · rw [if_pos stops, List.dropWhile_cons_of_neg (by simp [stops])]
      exact .ok (after.giveBack c).reports
    · rw [if_neg stops, List.dropWhile_cons_of_pos (by simp [stops])]
      exact ih after

/-! ## One step -/

/-- What is pending where a step starts. -/
def Poised : Mode → (broken : Bool) → (pending ahead : List Char) → Prop
  | .text, _, pending, ahead => (Place.text pending).Apart ahead
  | .tag, _, pending, _ => pending = []
  | .word, broken, pending, _ => broken = false ∧ ∃ c, isLetter c ∧ pending = [c]

/-- A run from the start of a step may end here. -/
def Ends (broken : Bool) (m : Mode) (sent : List Token) (s : Lexer) : Prop :=
  ∃ ts, s.sent = sent ++ ts ∧ Expected broken m ts

/-- What a step leaves: a run that may end, or the start of the next step, from where what is
expected makes, with what was sent, what was expected before. -/
inductive StepsTo (broken : Bool) (m : Mode) (sent : List Token) : Option Mode → Lexer → Prop
  | last {s : Lexer} : Ends broken m sent s → StepsTo broken m sent none s
  | on {s : Lexer} {broken' : Bool} {m' : Mode} {pending ahead : List Char} {ts : List Token} :
    Stands s broken' pending ahead (sent ++ ts) → Poised m' broken' pending ahead →
    (∀ us, Expected broken' m' us → Expected broken m (ts ++ us)) →
    StepsTo broken m sent (some m') s

/-- A step that keeps the order, also if it crashes. -/
abbrev KeepsOrder (broken : Bool) (m : Mode) (sent : List Token) (x : Outcome (Option Mode)) :
    Prop :=
  x.Leaves (StepsTo broken m sent) fun _ => Ends broken m sent

theorem ends_of_sent (same : s.sent = sent) : Ends broken m sent s :=
  ⟨[], by rw [same, List.append_nil], expected_nil⟩

/-- Behind a failed read, in text or in a tag, only what was taken before is expected. -/
theorem Report.expected (report : Report broken broken' ts) (more : Expected broken' m us) :
    Expected broken m (ts ++ us) := by
  cases report with
  | silent => exact more
  | failed =>
    cases m with
    | text => exact Shaped.unreadable more
    | tag => obtain rfl : us = [] := more; exact Shaped.unreadable .nothing
    | word => obtain rfl : us = [] := more; exact Shaped.unreadable .nothing

theorem Stands.textStep_end (stands : Stands s broken pending [] sent)
    (noPair : NoPair pending) :
    KeepsOrder broken .text sent (textStep s) := by
  unfold textStep
  refine stands.next.andThen ?_ fun _ _ => ends_of_sent
  rintro _ s' ⟨rfl, broken', ts, report, after⟩
  refine .ok (.last ⟨ts ++ flushed pending, ?_, report.expected (expected_flushed noPair)⟩)
  rw [after.flush.done, List.append_assoc]
  rfl

/-- An opening delimiter behind text: the text is sent before it. -/
theorem Stands.textStep_left (stands : Stands s broken pending ('{' :: '{' :: cs) sent)
    (noPair : NoPair ('{' :: pending)) :
    KeepsOrder broken .text sent (textStep s) := by
  obtain rfl : broken = false := stands.whole
  obtain ⟨s₁, next, after⟩ := stands.next_cons
  obtain ⟨s₂, peek, after⟩ := after.peek_cons
  obtain ⟨s₃, next', after⟩ := after.next_cons
  have sent' := (after.discard 2).flush.send .left
  rw [List.append_assoc] at sent'
  rw [textStep_of_left next peek next']
  refine .ok (.on sent' rfl fun us more => ?_)
  rw [List.append_assoc]
  exact Shaped.flushed_left noPair more

theorem Stands.textStep_right (stands : Stands s broken pending ('}' :: '}' :: cs) sent) :
    KeepsOrder broken .text sent (textStep s) := by
  obtain rfl : broken = false := stands.whole
  obtain ⟨s₁, next, after⟩ := stands.next_cons
  obtain ⟨s₂, peek, after⟩ := after.peek_cons
  rw [textStep_of_right next peek]
  exact .ok (.last ⟨[strayRight], (after.send strayRight).done, .strayRight⟩)

/-- A step that stays where it is, and reads. -/
theorem StepsTo.of_reports (reports : Reports s broken pending ahead sent)
    (poised : ∀ broken', Poised m broken' pending ahead) : StepsTo broken m sent (some m) s := by
  obtain ⟨broken', ts, report, stands⟩ := reports
  exact .on stands (poised broken') fun us => report.expected

/-- A look behind a character finds another one, or none. -/
theorem Stands.peek_other {f : Option Char → Lexer → Outcome (Option Mode)}
    (stands : Stands s broken pending cs sent) (other : cs.head? ≠ some c)
    (rest : ∀ c? s', c? ≠ some c → Reports s' broken pending cs sent →
      KeepsOrder broken m sent (f c? s')) : KeepsOrder broken m sent (s.peek.andThen f) := by
  refine stands.peek.andThen ?_ fun _ _ => ends_of_sent
  rintro _ s' ⟨rfl, reports⟩
  exact rest _ s' other reports

/-- A character of text becomes pending, and nothing is sent. -/
theorem Stands.textStep_plain (stands : Stands s broken pending (c :: cs) sent)
    (single : ¬isPair c cs) (apart : (Place.text pending).Apart (c :: cs)) :
    KeepsOrder broken .text sent (textStep s) := by
  obtain ⟨s₁, next, after⟩ := stands.next_cons
  have poised : ∀ broken', Poised .text broken' (c :: pending) cs := fun _ => apart.step single
  by_cases brace : c = '{' ∨ c = '}'
  · obtain ⟨f, looks, lone⟩ := step_of_brace (m := .text) nofun next brace
    rw [← step, looks]
    refine after.peek_other (head?_ne_of_not_isPair brace single) fun c? s₂ other reports => ?_
    rw [lone c? s₂ other]
    exact .ok (.of_reports reports poised)
  · rw [textStep_of_plain next brace]
    exact .ok (.of_reports after.reports poised)

theorem Stands.tagStep_end (stands : Stands s broken [] [] sent) :
    KeepsOrder broken .tag sent (tagStep s) := by
  unfold tagStep
  refine stands.next.andThen ?_ fun _ _ => ends_of_sent
  rintro _ s' ⟨rfl, broken', ts, report, after⟩
  refine .ok (.last ⟨ts, after.done, ?_⟩)
  rw [← List.append_nil ts]
  exact report.expected expected_nil

theorem Stands.tagStep_right (stands : Stands s broken [] ('}' :: '}' :: cs) sent) :
    KeepsOrder broken .tag sent (tagStep s) := by
  obtain rfl : broken = false := stands.whole
  obtain ⟨s₁, next, after⟩ := stands.next_cons
  obtain ⟨s₂, peek, after⟩ := after.peek_cons
  obtain ⟨s₃, next', after⟩ := after.next_cons
  rw [tagStep_of_right next peek next']
  exact .ok (.on (after.emit _) Place.apart_text_nil fun us => Shaped.right)

/-- What is sent while a line is skipped comes behind the error, in text. -/
theorem Stands.tagStep_left (stands : Stands s broken [] ('{' :: '{' :: cs) sent) :
    KeepsOrder broken .tag sent (tagStep s) := by
  obtain rfl : broken = false := stands.whole
  obtain ⟨s₁, next, after⟩ := stands.next_cons
  obtain ⟨s₂, peek, after⟩ := after.peek_cons
  have ends : ∀ s', Ends false .text (sent ++ [strayLeft]) s' → Ends false .tag sent s' := by
    rintro s' ⟨ts, same, expected⟩
    refine ⟨strayLeft :: ts, ?_, .strayLeft expected⟩
    rw [same, List.append_assoc, List.singleton_append]
  rw [tagStep_of_left next peek]
  -- Skipping and the read behind it may each have to report, but only one of them can have failed.
  refine (after.send strayLeft).skipLine.andThen ?_ fun _ s' same => ends s' (ends_of_sent same)
  rintro _ s₃ ⟨broken₁, ts₁, report₁, after⟩
  refine after.next.andThen ?_ fun _ s' same => ends s' ⟨ts₁, same, ?_⟩
  · rintro _ s₄ ⟨-, broken₂, ts₂, report₂, after⟩
    have cleared := after.discard s₄.pending.length
    rw [after.held, List.drop_length, List.append_assoc, List.append_assoc] at cleared
    rw [after.held]
    refine .ok (.on cleared Place.apart_text_nil fun us more => ?_)
    rw [List.append_assoc, List.append_assoc]
    exact Shaped.strayLeft (report₁.expected (report₂.expected more))
  · rw [← List.append_nil ts₁]
    exact report₁.expected expected_nil

/-- A character that belongs in no tag is dropped. -/
theorem Stands.tagStep_other (stands : Stands s broken [] (c :: cs) sent)
    (single : ¬isPair c cs) (noLetter : ¬isLetter c) :
    KeepsOrder broken .tag sent (tagStep s) := by
  obtain ⟨s₁, next, after⟩ := stands.next_cons
  have dropped : ∀ s', Reports s' broken [c] cs sent →
      StepsTo broken .tag sent (some .tag) (s'.discard 1) := by
    rintro s' ⟨broken', ts, report, stands⟩
    exact .on (stands.discard 1) rfl fun us => report.expected
  by_cases brace : c = '{' ∨ c = '}'
  · obtain ⟨f, looks, lone⟩ := step_of_brace (m := .tag) nofun next brace
    rw [← step, looks]
    refine after.peek_other (head?_ne_of_not_isPair brace single) fun c? s₂ other reports => ?_
    rw [lone c? s₂ other]
    exact .ok (dropped s₂ reports)
  · rw [tagStep_of_plain next brace, if_neg noLetter]
    exact .ok (dropped s₁ after.reports)

theorem Stands.tagStep_letter (stands : Stands s broken [] (c :: cs) sent) (letter : isLetter c) :
    KeepsOrder broken .tag sent (tagStep s) := by
  obtain rfl : broken = false := stands.whole
  obtain ⟨s₁, next, after⟩ := stands.next_cons
  rw [tagStep_of_plain next (not_brace_of_isLetter letter), if_pos letter]
  rw [← List.append_nil sent] at after
  exact .ok (.on after ⟨rfl, c, letter, rfl⟩ fun us more => more)

/-- A letter starts a word, which is sent whole. -/
theorem Stands.wordStep (stands : Stands s false [c] ahead sent) (letter : isLetter c) :
    KeepsOrder false .word sent (wordStep s) := by
  unfold Lexer.wordStep
  refine stands.takeWord.andThen ?_ fun _ _ => ends_of_sent
  rintro _ s₁ ⟨broken', ts, report, after⟩
  have word := after.emit .ofWord
  rw [List.append_assoc, List.reverse_append, List.reverse_reverse] at word
  have isTerm : (Token.ofWord (String.ofList (c :: ahead.takeWhile continuesWord))).IsTerm :=
    Token.isTerm_ofWord (isWord_takeWhile letter)
  refine .ok (.on word rfl fun us more => ?_)
  -- A read that failed was reported before the word is sent, which is the token that may follow.
  cases report with
  | silent => exact Shaped.term isTerm more
  | failed =>
    obtain rfl : us = [] := more
    exact Shaped.unreadable (.term isTerm)

/-- Each step keeps the order, on any source. -/
theorem Stands.step (stands : Stands s broken pending ahead sent)
    (poised : Poised m broken pending ahead) :
    KeepsOrder broken m sent (step m s) := by
  cases m with
  | text =>
    cases ahead with
    | nil => exact stands.textStep_end poised
    | cons c cs =>
      by_cases pair : isPair c cs
      · obtain ⟨rfl | rfl, rest, rfl⟩ := isPair_iff.mp pair
        · exact stands.textStep_left poised
        · exact stands.textStep_right
      · exact stands.textStep_plain pair poised
  | tag =>
    obtain rfl : pending = [] := poised
    cases ahead with
    | nil => exact stands.tagStep_end
    | cons c cs =>
      by_cases pair : isPair c cs
      · obtain ⟨rfl | rfl, rest, rfl⟩ := isPair_iff.mp pair
        · exact stands.tagStep_left
        · exact stands.tagStep_right
      · by_cases letter : isLetter c
        · exact stands.tagStep_letter letter
        · exact stands.tagStep_other pair letter
  | word =>
    obtain ⟨rfl, c, letter, rfl⟩ := poised
    exact stands.wordStep letter

/-! ## A whole run -/

/-- Whatever the source does, a run sends what is expected. -/
theorem Stands.runFrom (stands : Stands s broken pending ahead sent)
    (poised : Poised m broken pending ahead) : Ends broken m sent (runFrom m s).1 := by
  fun_induction Lexer.runFrom m s generalizing broken pending ahead sent with
  | case1 m s m' s' step ih =>
    have leaves := (stands.step poised).of_ok step
    cases leaves with
    | on after poised' before =>
      obtain ⟨us, same, expected⟩ := ih after poised'
      refine ⟨_ ++ us, ?_, before us expected⟩
      rw [same, List.append_assoc]
  | case2 m s s' step =>
    have leaves := (stands.step poised).of_ok step
    cases leaves with
    | last ends => exact ends
  | case3 m s fault s' step =>
    have leaves := stands.step poised
    rw [step] at leaves
    cases leaves with
    | crash ends => exact ends

/-- Scanning does not close the channel. -/
theorem invariant_open :
    Invariant (fun s => .close ∉ s.actions) fun _ s => .close ∉ s.actions where
  read {s} opened := by
    by_cases returned : s.returned = []
    · rcases Bool.eq_false_or_eq_true s.broken with broken | whole
      · rw [read_broken returned broken]
        exact .ok opened
      · rcases answer : s.source.read with ⟨(⟨message⟩ | ⟨label, message⟩) | c?, source⟩
        · rw [read_unreadable returned whole answer]
          exact .ok (by simpa using opened)
        · rw [read_crash returned whole answer]
          exact .crash (by simpa using opened)
        · rw [read_ok returned whole answer]
          exact .ok (by simpa using opened)
    · obtain ⟨c, cs, returned⟩ := List.exists_cons_of_ne_nil returned
      rw [read_returned returned]
      exact .ok opened
  giveBack _ opened := opened
  hold _ opened := opened
  send _ opened := by simpa [Lexer.send] using opened

theorem close_not_mem_steps (source : Source) : .close ∉ (run source).steps := by
  have leaves := (uniform_finish .text).invariant invariant_open (s := { source }) (by simp)
  rw [steps_run, List.mem_reverse]
  generalize finish .text { source } = x at leaves
  cases leaves with
  | ok opened => exact opened
  | crash opened => exact opened

/-- Until the channel is closed, only tokens are put into it. -/
theorem parcels_of_open {actions : List Action} (opened : .close ∉ actions) :
    actions.filterMap (·.parcel?) = (actions.filterMap (·.token?)).map .token := by
  induction actions with
  | nil => rfl
  | cons action actions ih =>
    rw [List.mem_cons, not_or] at opened
    obtain ⟨other, opened⟩ := opened
    cases action with
    | read => exact ih opened
    | send t => exact congrArg (.token t :: ·) (ih opened)
    | close => exact absurd rfl other

theorem parcels_run (source : Source) :
    (run source).parcels = Parcel.stream ((run source).body ++ [.endOfInput]) := by
  rw [Lexing.parcels, Lexing.actions, List.filterMap_append,
    parcels_of_open (close_not_mem_steps source), Parcel.stream, List.map_append,
    List.append_assoc]
  rfl

theorem produced_of_isTerm {t : Token} (isTerm : t.IsTerm) : t.Produced := by
  rcases isTerm with ⟨kind, -⟩ | rfl | rfl | rfl
  · simp [Token.Produced, kind]
  · decide
  · decide
  · decide

theorem produced_readFailure (message : String) : (readFailure message).Produced := by
  simp [Token.Produced, readFailure]

theorem Trails.produced (trails : Trails inTag ts) : ∀ t ∈ ts, t.Produced := by
  cases trails with
  | nothing => nofun
  | text => simp [Token.Produced]
  | term isTerm => exact List.forall_mem_singleton.mpr (produced_of_isTerm isTerm)

theorem Shaped.produced (shaped : Shaped inTag ts) : ∀ t ∈ ts, t.Produced := by
  induction shaped with
  | done => nofun
  | lastText => simp [Token.Produced]
  | text _ _ _ ih =>
    refine List.forall_mem_cons.mpr ⟨by simp [Token.Produced], ?_⟩
    exact List.forall_mem_cons.mpr ⟨by decide, ih⟩
  | left _ ih => exact List.forall_mem_cons.mpr ⟨by decide, ih⟩
  | strayRight => decide
  | term isTerm _ ih => exact List.forall_mem_cons.mpr ⟨produced_of_isTerm isTerm, ih⟩
  | right _ ih => exact List.forall_mem_cons.mpr ⟨by decide, ih⟩
  | strayLeft _ ih => exact List.forall_mem_cons.mpr ⟨by decide, ih⟩
  | unreadable trails =>
    exact List.forall_mem_cons.mpr ⟨produced_readFailure _, trails.produced⟩

/-- Whatever its source does, also where a read fails or crashes, a run puts its tokens into the
channel, then the end of the input, and then the close, once. The tokens come in their order, and
none of them is an end of the input or of a kind that no source contains. -/
theorem run_shaped (source : Source) :
    (run source).parcels = Parcel.stream ((run source).body ++ [.endOfInput]) ∧
      Shaped false (run source).body ∧ ∀ t ∈ (run source).body, t.Produced := by
  obtain ⟨ts, same, shaped⟩ := (Stands.start source).runFrom (m := .text) Place.apart_text_nil
  have body : (run source).body = ts := same
  rw [body]
  refine ⟨?_, shaped, shaped.produced⟩
  rw [parcels_run, body]

/-- A tag inside a tag, and a source that fails inside a word. -/
theorem run_shaped_unreadable :
    ∃ source : Source, (run source).body = [⟨.text, "a\x7d"⟩, .left, ⟨.ident, "x"⟩, strayLeft,
        .left, readFailure "gone", ⟨.ident, "ab"⟩] ∧
      Shaped false (run source).body ∧ Token.Produced ⟨.ident, "ab"⟩ := by
  refine ⟨.failingAt 12 (.unreadable "gone") "a\x7d\x7b\x7bx\x7b\x7b\n\x7b\x7bab", ?_⟩
  obtain ⟨-, shaped, produced⟩ := run_shaped (.failingAt 12 (.unreadable "gone") _)
  exact ⟨by decide +kernel, shaped, produced _ (by decide +kernel)⟩

end Lexer
end Stencil
