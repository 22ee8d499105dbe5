import Stencil.Proofs.Discipline
import Stencil.Proofs.Faults
import Stencil.Proofs.Watching

/-!
# Every moment of a run

What is known of a lexer on a text is known at every moment, and not only between its steps: at
most one character is given back, and the reads so far have given the first characters of the
text, each once and in order (`Lexer.Steady`). Between two steps there is also what is pending
(`Lexer.Ready`).

The number of characters passed is what reads have given less what was given back. The end of the
text is passed too, and may be read again: once behind a word or a look ahead, twice behind a line
that is skipped. `Lexer.Mode.slack` says by how much a step may start behind the end, which bounds
the reads of a run (`Lexer.run_steady`).
-/

namespace Stencil
namespace Lexer

open Text Watched

variable {α β : Type} {m : Mode} {s s' t : Lexer} {c : Char} {c? : Option Char}

/-! ## What is known at a moment -/

/-- The number of characters that were read and not given back, the end of the text included. -/
def passed (s : Lexer) : Nat :=
  s.reads - s.returned.length

/-- A lexer of a text at some moment. -/
structure Steady (text : List Char) (s : Lexer) : Prop where
  whole : s.broken = false
  /-- The reads so far have given the first characters, each once and in order. -/
  source : s.source = ⟨text.drop s.reads, none⟩
  /-- At most one character is given back, which is the last one read. -/
  returned : s.returned = [] ∨ ∃ n, s.reads = n + 1 ∧ ∃ c, text[n]? = some c ∧ s.returned = [c]

/-- What a read leaves: one more character is passed, and none is given back. -/
structure Passes (text : List Char) (s : Lexer) (c? : Option Char) (s' : Lexer) : Prop where
  steady : Steady text s'
  answer : text[s.passed]? = c?
  returned : s'.returned = []
  reads : s'.reads = s.passed + 1

/-- What a look at the next character leaves. -/
structure Looks (text : List Char) (s : Lexer) (c? : Option Char) (s' : Lexer) : Prop where
  steady : Steady text s'
  answer : text[s.passed]? = c?
  passed : s'.passed = if c? = none then s.passed + 1 else s.passed

section Moments

variable {text : List Char}

theorem lt_of_answer {n : Nat} (answer : text[n]? = some c) : n < text.length :=
  (List.getElem?_eq_some_iff.mp answer).1

theorem reads_send (t : Token) (s : Lexer) : (s.send t).reads = s.reads := by
  have other : Action.send t ≠ .read := nofun
  exact List.count_cons_of_ne other

theorem Steady.start (text : String) : Steady text.toList { source := .ofText text } :=
  ⟨rfl, rfl, .inl rfl⟩

theorem Steady.hold (steady : Steady text s) (cs : List Char) :
    Steady text { s with pending := cs } :=
  ⟨steady.whole, steady.source, steady.returned⟩

theorem Steady.send (steady : Steady text s) (t : Token) : Steady text (s.send t) := by
  refine ⟨steady.whole, ?_, ?_⟩
  · rw [reads_send]
    exact steady.source
  · rw [reads_send]
    exact steady.returned

/-- Where more was read than is passed, a character of the text was given back. -/
theorem Steady.reads_le (steady : Steady text s) : s.reads ≤ max s.passed text.length := by
  rcases steady.returned with none | ⟨n, reads, c, answer, returned⟩
  · rw [passed, none]
    exact Nat.le_max_left _ _
  · have inside := lt_of_answer answer
    omega

/-- A steady lexer can read: it passes the next character, or the end of the text. -/
theorem Steady.read (steady : Steady text s) :
    ∃ c? s', s.read = .ok c? s' ∧ Passes text s c? s' ∧ s'.pending = s.pending := by
  rcases steady.returned with none | ⟨n, reads, c, answer, returned⟩
  · have answer : s.source.read = (.ok text[s.reads]?, ⟨text.drop (s.reads + 1), Option.none⟩) := by
      rw [Source.read, steady.source, List.head?_drop, List.tail_drop]
    have here : s.passed = s.reads := by rw [passed, none, List.length_nil, Nat.sub_zero]
    refine ⟨_, _, read_ok none steady.whole answer,
      ⟨⟨steady.whole, ?_, .inl none⟩, ?_, none, ?_⟩, rfl⟩
    · rw [reads_read]
    · rw [here]
    · rw [reads_read, here]
  · have here : s.passed = n := by rw [passed, reads, returned]; rfl
    refine ⟨_, _, read_returned returned,
      ⟨⟨steady.whole, steady.source, .inl rfl⟩, ?_, rfl, ?_⟩, rfl⟩
    · rw [here, answer]
    · rw [here]
      exact reads

/-- The text up to where it was read, less what was given back. -/
def consumed (text : List Char) (s : Lexer) : List Char :=
  text.take s.passed

theorem Passes.passed (passes : Passes text s c? s') : s'.passed = s.passed + 1 := by
  rw [Lexer.passed, passes.returned, passes.reads]
  rfl

theorem Passes.lt (passes : Passes text s (some c) s') : s.passed < text.length :=
  lt_of_answer passes.answer

theorem Passes.hold (passes : Passes text s c? s') (cs : List Char) :
    Passes text s c? { s' with pending := cs } :=
  ⟨passes.steady.hold cs, passes.answer, passes.returned, passes.reads⟩

theorem Passes.consumed (passes : Passes text s c? s') :
    consumed text s' = consumed text s ++ c?.toList := by
  rw [Lexer.consumed, passes.passed, List.take_add_one, passes.answer]
  rfl

theorem Passes.giveBack (passes : Passes text s (some c) s') :
    Looks text s (some c) { s' with returned := c :: s'.returned } := by
  refine ⟨⟨passes.steady.whole, passes.steady.source,
    .inr ⟨s.passed, passes.reads, c, passes.answer, ?_⟩⟩, passes.answer, ?_⟩
  · rw [passes.returned]
  · rw [if_neg nofun, Lexer.passed, passes.returned]
    exact congrArg (· - 1) passes.reads

theorem Looks.passed_eq (looks : Looks text s (some c) s') : s'.passed = s.passed :=
  looks.passed.trans (if_neg nofun)

theorem Looks.passed_le (looks : Looks text s c? s') : s'.passed ≤ s.passed + 1 := by
  rw [looks.passed]
  split <;> omega

theorem Looks.consumed (looks : Looks text s c? s') : consumed text s' = consumed text s := by
  rw [Lexer.consumed, looks.passed]
  split
  · next nothing =>
    rw [List.take_add_one, looks.answer, nothing]
    exact List.append_nil _
  · rfl

/-- Nothing fails, the lexer is steady at each moment, and this is known of it at the end. -/
structure Watched.Keeps (text : List Char) (Q : α → Lexer → Prop) (w : Watched α) : Prop where
  moments : ∀ t ∈ w.moments, Steady text t
  ends : ∃ a t, w.outcome = .ok a t ∧ Q a t

theorem keeps_done {Q : α → Lexer → Prop} {a : α} (holds : Q a s) : (done a s).Keeps text Q :=
  ⟨nofun, a, s, rfl, holds⟩

theorem keeps_once {Q : α → Lexer → Prop} {a : α} (steady : Steady text s) (holds : Q a s) :
    (once (.ok a s)).Keeps text Q :=
  ⟨List.forall_mem_singleton.mpr steady, a, s, rfl, holds⟩

theorem Watched.Keeps.andThen {Q : α → Lexer → Prop} {Q' : β → Lexer → Prop} {w : Watched α}
    {f : α → Lexer → Watched β} (first : w.Keeps text Q)
    (rest : ∀ a t, Q a t → (f a t).Keeps text Q') : (w.andThen f).Keeps text Q' := by
  rcases w with ⟨outcome, moments⟩
  obtain ⟨steady, a, t, rfl, holds⟩ := first
  obtain ⟨steady', ends⟩ := rest a t holds
  exact ⟨List.forall_mem_append.mpr ⟨steady, steady'⟩, ends⟩

theorem Watched.Keeps.behind {Q : β → Lexer → Prop} {a : α} {f : α → Lexer → Watched β}
    (steady : Steady text s) (rest : (f a s).Keeps text Q) :
    ((once (.ok a s)).andThen f).Keeps text Q :=
  ⟨List.forall_mem_cons.mpr ⟨steady, rest.moments⟩, rest.ends⟩

theorem keeps_read (steady : Steady text s) :
    (once s.read).Keeps text fun c? s' => Passes text s c? s' ∧ s'.pending = s.pending := by
  obtain ⟨c?, s', read, passes, held⟩ := steady.read
  rw [read]
  exact keeps_once passes.steady ⟨passes, held⟩

/-- Reading a character keeps a lexer steady, and makes the character pending. -/
theorem keeps_next (steady : Steady text s) :
    (watchNext s).Keeps text
      fun c? s' => Passes text s c? s' ∧ s'.pending = c?.toList ++ s.pending := by
  refine (keeps_read steady).andThen fun c? s' ⟨passes, held⟩ => ?_
  cases c? with
  | none => exact keeps_done ⟨passes, held⟩
  | some c =>
    have taken := passes.hold (c :: s'.pending)
    refine keeps_once taken.steady ⟨taken, ?_⟩
    rw [held]
    rfl

theorem keeps_peek (steady : Steady text s) :
    (watchPeek s).Keeps text fun c? s' => Looks text s c? s' ∧ s'.pending = s.pending := by
  refine (keeps_read steady).andThen fun c? s' ⟨passes, held⟩ => ?_
  cases c? with
  | none => exact keeps_done ⟨⟨passes.steady, passes.answer, passes.passed⟩, held⟩
  | some c => exact keeps_once passes.giveBack.steady ⟨passes.giveBack, held⟩

/-- A loop that starts in the text passes its end at most once. -/
theorem keeps_while {goesOn : Char → Bool} {held : Bool} (steady : Steady text s)
    (inside : s.passed ≤ text.length) :
    (watchWhile goesOn held s).Keeps text
      fun _ s' => Steady text s' ∧ s'.passed ≤ text.length + 1 := by
  induction left : text.length - s.passed using Nat.strongRecOn generalizing s with
  | ind n ih =>
    rw [watchWhile_eq]
    refine (keeps_read steady).andThen fun c? s' ⟨passes, _⟩ => ?_
    have on := passes.passed
    cases c? with
    | none => exact keeps_done ⟨passes.steady, by omega⟩
    | some c =>
      have before := passes.lt
      by_cases more : goesOn c
      · simp only [if_pos more]
        cases held with
        | true =>
          have taken := passes.hold (c :: s'.pending)
          have further := taken.passed
          exact .behind taken.steady (ih _ (by omega) taken.steady (by omega) rfl)
        | false => exact ih _ (by omega) passes.steady (by omega) rfl
      · have looks := passes.giveBack
        have back := looks.passed_eq
        simp only [if_neg more]
        exact keeps_once looks.steady ⟨looks.steady, by omega⟩

theorem keeps_emit (token : String → Token) (steady : Steady text s) :
    (watchEmit token s).Keeps text fun _ s' => s' = s.emit token :=
  have cleared := steady.hold []
  .behind cleared (keeps_once (cleared.send _) rfl)

theorem keeps_flush (steady : Steady text s) :
    (watchFlush s).Keeps text fun _ s' => s' = s.flush := by
  unfold watchFlush flush
  split
  · exact keeps_done rfl
  · exact keeps_emit _ steady

theorem passed_send (t : Token) (s : Lexer) : (s.send t).passed = s.passed := by
  rw [passed, reads_send]
  rfl

theorem passed_emit (token : String → Token) (s : Lexer) : (s.emit token).passed = s.passed :=
  passed_send _ _

theorem passed_flush (s : Lexer) : s.flush.passed = s.passed := by
  unfold flush
  split
  · rfl
  · exact passed_emit _ s

theorem Steady.emit (steady : Steady text s) (token : String → Token) :
    Steady text (s.emit token) :=
  (steady.hold []).send _

theorem Steady.flush (steady : Steady text s) : Steady text s.flush := by
  unfold Lexer.flush
  split
  · exact steady
  · exact steady.emit _

/-! ## One step -/

/-- By how much the next step may start behind the end of the text, or the last one end. -/
def Mode.slack : Option Mode → Nat
  | some .word => 0
  | some .tag => 1
  | some .text => 2
  | none => 3

/-- What a step leaves. -/
structure Turn (text : List Char) (m : Mode) (s : Lexer) (m? : Option Mode) (s' : Lexer) :
    Prop where
  steady : Steady text s'
  bounded : s'.passed ≤ text.length + Mode.slack m?
  /-- Text that goes on holds one more character. -/
  longer : m = .text → m? = some .text → ∃ c, s'.pending = c :: s.pending ∧
    consumed text s' = consumed text s ++ [c]
  /-- A tag leads to text that holds nothing. -/
  fresh : m = .tag → m? = some .text → s'.pending = []
  /-- A word leads to a tag. -/
  inTag : m = .word → m? = some .tag

/-- A character that is text, and a look behind it. -/
theorem Passes.keeps_text (passes : Passes text s (some c) s') (held : s'.pending = c :: s.pending)
    (looks : Looks text s' c? t) (held' : t.pending = s'.pending) :
    (done (some .text) t).Keeps text (Turn text .text s) := by
  have before := passes.lt
  have on := passes.passed
  have further := looks.passed_le
  refine keeps_done ⟨looks.steady, ?_, fun _ _ => ?_, nofun, nofun⟩
  · simp only [Mode.slack]
    omega
  · exact ⟨c, held'.trans held, looks.consumed.trans passes.consumed⟩

/-- One step in text: the lexer is steady at each of its moments, and what it leaves is a turn. -/
theorem keeps_textStep (steady : Steady text s) (start : s.passed ≤ text.length + 2) :
    (watchTextStep s).Keeps text (Turn text .text s) := by
  refine (keeps_next steady).andThen fun c? s₁ ⟨passes, held⟩ => ?_
  have on := passes.passed
  by_cases left : c? = some '{'
  · subst left
    rw [if_pos rfl]
    refine (keeps_peek passes.steady).andThen fun c? s₂ ⟨looks, held'⟩ => ?_
    by_cases pair : c? = some '{'
    · subst pair
      rw [if_pos rfl]
      refine (keeps_next looks.steady).andThen fun c? s₃ ⟨passes', _⟩ => ?_
      have before := lt_of_answer looks.answer
      have same := looks.passed_eq
      have dropped := passes'.hold (s₃.pending.drop 2)
      have on' := dropped.passed
      refine .behind dropped.steady ((keeps_flush dropped.steady).andThen ?_)
      rintro _ _ rfl
      have opened := dropped.steady.flush.send .left
      refine keeps_once opened ⟨opened, ?_, fun _ => nofun, nofun, nofun⟩
      simp only [passed_send, passed_flush, Mode.slack]
      omega
    · rw [if_neg pair]
      exact passes.keeps_text held looks held'
  by_cases right : c? = some '}'
  · subst right
    rw [if_neg left, if_pos rfl]
    refine (keeps_peek passes.steady).andThen fun c? s₂ ⟨looks, held'⟩ => ?_
    by_cases pair : c? = some '}'
    · subst pair
      rw [if_pos rfl]
      have before := lt_of_answer looks.answer
      have same := looks.passed_eq
      have stopped := looks.steady.send strayRight
      refine keeps_once stopped ⟨stopped, ?_, fun _ => nofun, nofun, nofun⟩
      simp only [passed_send, Mode.slack]
      omega
    · rw [if_neg pair]
      exact passes.keeps_text held looks held'
  rw [if_neg left, if_neg right]
  cases c? with
  | none =>
    rw [if_pos rfl]
    refine (keeps_flush passes.steady).andThen ?_
    rintro _ _ rfl
    refine keeps_done ⟨passes.steady.flush, ?_, fun _ => nofun, nofun, nofun⟩
    simp only [passed_flush, Mode.slack]
    omega
  | some c =>
    rw [if_neg nofun]
    have before := passes.lt
    refine keeps_done ⟨passes.steady, ?_, fun _ _ => ⟨c, held, passes.consumed⟩, nofun, nofun⟩
    simp only [Mode.slack]
    omega

/-- A character in a tag that is dropped. -/
theorem keeps_dropped (steady : Steady text t) (bound : t.passed ≤ text.length + 1) :
    (once (.ok (some .tag) (t.discard 1))).Keeps text (Turn text .tag s) :=
  have dropped := steady.hold (t.pending.drop 1)
  keeps_once dropped ⟨dropped, bound, nofun, fun _ => nofun, nofun⟩

/-- One step in a tag: the lexer is steady at each of its moments, and what it leaves is a turn. -/
theorem keeps_tagStep (steady : Steady text s) (start : s.passed ≤ text.length + 1) :
    (watchTagStep s).Keeps text (Turn text .tag s) := by
  refine (keeps_next steady).andThen fun c? s₁ ⟨passes, _⟩ => ?_
  have on := passes.passed
  by_cases right : c? = some '}'
  · subst right
    rw [if_pos rfl]
    have inside := passes.lt
    refine (keeps_peek passes.steady).andThen fun c? s₂ ⟨looks, _⟩ => ?_
    by_cases pair : c? = some '}'
    · subst pair
      rw [if_pos rfl]
      refine (keeps_next looks.steady).andThen fun c? s₃ ⟨passes', _⟩ => ?_
      have before := lt_of_answer looks.answer
      have same := looks.passed_eq
      have on' := passes'.passed
      refine (keeps_emit _ passes'.steady).andThen ?_
      rintro _ _ rfl
      refine keeps_done ⟨passes'.steady.emit _, ?_, nofun, fun _ _ => rfl, nofun⟩
      simp only [passed_emit, Mode.slack]
      omega
    · have further := looks.passed_le
      rw [if_neg pair]
      exact keeps_dropped looks.steady (by omega)
  by_cases left : c? = some '{'
  · subst left
    rw [if_neg right, if_pos rfl]
    have inside := passes.lt
    refine (keeps_peek passes.steady).andThen fun c? s₂ ⟨looks, _⟩ => ?_
    by_cases pair : c? = some '{'
    · subst pair
      rw [if_pos rfl]
      have same := looks.passed_eq
      have reported := looks.steady.send strayLeft
      have same' := passed_send strayLeft s₂
      refine .behind reported ((keeps_while reported (by omega)).andThen ?_)
      rintro _ s₃ ⟨skipped, bound⟩
      refine (keeps_next skipped).andThen fun _ s₄ ⟨passes', _⟩ => ?_
      have on' := passes'.passed
      have dropped := passes'.steady.hold (s₄.pending.drop s₄.pending.length)
      refine keeps_once dropped ⟨dropped, ?_, nofun, fun _ _ => List.drop_length, nofun⟩
      show s₄.passed ≤ text.length + 2
      omega
    · have further := looks.passed_le
      rw [if_neg pair]
      exact keeps_dropped looks.steady (by omega)
  rw [if_neg right, if_neg left]
  cases c? with
  | none =>
    rw [if_pos rfl]
    refine keeps_done ⟨passes.steady, ?_, nofun, fun _ => nofun, nofun⟩
    simp only [Mode.slack]
    omega
  | some c =>
    rw [if_neg nofun]
    have inside := passes.lt
    split
    · refine keeps_done ⟨passes.steady, ?_, nofun, fun _ => nofun, nofun⟩
      simp only [Mode.slack]
      omega
    · exact keeps_dropped passes.steady (by omega)

theorem keeps_wordStep (steady : Steady text s) (start : s.passed ≤ text.length) :
    (watchWordStep s).Keeps text (Turn text .word s) := by
  refine (keeps_while steady start).andThen fun _ s₁ ⟨taken, bound⟩ => ?_
  refine (keeps_emit _ taken).andThen ?_
  rintro _ _ rfl
  refine keeps_done ⟨taken.emit _, ?_, nofun, nofun, fun _ => rfl⟩
  rw [passed_emit]
  exact bound

/-- One step, wherever it starts. -/
theorem keeps_watch (steady : Steady text s)
    (start : s.passed ≤ text.length + Mode.slack (some m)) :
    (watch m s).Keeps text (Turn text m s) := by
  cases m with
  | text => exact keeps_textStep steady start
  | tag => exact keeps_tagStep steady start
  | word => exact keeps_wordStep steady start

theorem Turn.of_step {m? : Option Mode} (steady : Steady text s)
    (start : s.passed ≤ text.length + Mode.slack (some m)) (step : step m s = .ok m? s') :
    Turn text m s m? s' := by
  obtain ⟨-, _, _, outcome, turn⟩ := keeps_watch steady start
  rw [(follows_watch m s).outcome, step] at outcome
  cases outcome
  exact turn

end Moments

/-! ## A whole run -/

/-- A lexer before a step of a run. -/
inductive Calls (source : Source) : Mode → Lexer → Prop
  | start : Calls source .text { source }
  | next {m m' : Mode} {s s' : Lexer} :
    Calls source m s → step m s = .ok (some m') s' → Calls source m' s'

/-- A lexer before a step in text, and as it was when it came into this text: at the start, or by
a step in a tag, behind closing braces or behind the line that an error skips. -/
inductive InText (source : Source) : (entry s : Lexer) → Prop
  | start : InText source { source } { source }
  | entered {r s : Lexer} :
    Calls source .tag r → step .tag r = .ok (some .text) s → InText source s s
  | further {entry s s' : Lexer} :
    InText source entry s → step .text s = .ok (some .text) s' → InText source entry s'

/-- What is pending before a step of a run on a text: in text, all that was read since this text
was entered. -/
def Ready (text : String) : Mode → Lexer → Prop
  | .text, s => NoPair s.pending.reverse ∧ ∃ entry, InText (.ofText text) entry s ∧
    consumed text.toList s = consumed text.toList entry ++ s.pending.reverse
  | .tag, s => s.pending = []
  | .word, s => ∃ c, isLetter c ∧ s.pending = [c]

variable {text : String} {source : Source}

/-- Between two steps a lexer stands somewhere in its source, poised for its mode. -/
theorem Calls.stands (calls : Calls source m s) :
    ∃ broken ahead sent, Stands s broken s.pending ahead sent ∧
      Poised m broken s.pending ahead := by
  induction calls with
  | start => exact ⟨false, source.visible, [], .start source, Place.apart_text_nil⟩
  | next _ step ih =>
    obtain ⟨broken, ahead, sent, stands, poised⟩ := ih
    have leaves := (stands.step poised).of_ok step
    cases leaves with
    | on after poised' _ =>
      obtain rfl := after.held
      exact ⟨_, _, _, after, poised'⟩

theorem Place.Apart.noPair {pending ahead : List Char}
    (apart : (Place.text pending).Apart ahead) : NoPair pending := by
  cases ahead with
  | nil => exact apart
  | cons c cs => exact (noPair_cons_iff.mp apart).2

theorem Calls.steady (calls : Calls (.ofText text) m s) :
    Steady text.toList s ∧ s.passed ≤ text.toList.length + Mode.slack (some m) := by
  induction calls with
  | start => exact ⟨.start text, Nat.zero_le _⟩
  | next _ step ih =>
    have turn := Turn.of_step ih.1 ih.2 step
    exact ⟨turn.steady, turn.bounded⟩

/-- A lexer in text has entered it somewhere, and what was consumed since then is what is pending.
-/
theorem Calls.inText (calls : Calls (.ofText text) m s) (here : m = .text) :
    ∃ entry, InText (.ofText text) entry s ∧
      consumed text.toList s = consumed text.toList entry ++ s.pending.reverse := by
  induction calls with
  | start => exact ⟨_, .start, (List.append_nil _).symm⟩
  | @next m m' s s' calls step ih =>
    subst here
    have turn := Turn.of_step calls.steady.1 calls.steady.2 step
    cases m with
    | text =>
      obtain ⟨entry, inText, whole⟩ := ih rfl
      obtain ⟨c, held, longer⟩ := turn.longer rfl rfl
      refine ⟨entry, .further inText step, ?_⟩
      rw [longer, whole, held, List.reverse_cons, List.append_assoc]
    | tag =>
      refine ⟨s', .entered calls step, ?_⟩
      rw [turn.fresh rfl rfl, List.reverse_nil, List.append_nil]
    | word => cases turn.inTag rfl

theorem Calls.ready (calls : Calls (.ofText text) m s) : Ready text m s := by
  obtain ⟨broken, ahead, sent, -, poised⟩ := calls.stands
  cases m with
  | text => exact ⟨noPair_reverse_iff.mpr poised.noPair, calls.inText rfl⟩
  | tag => exact poised
  | word => exact poised.2

/-- From each of its steps on, a run ends. -/
theorem Calls.ends (calls : Calls (.ofText text) m s) :
    ∃ m' s' t, Calls (.ofText text) m' s' ∧ step m' s' = .ok none t ∧ runFrom m s = (t, none) := by
  fun_induction runFrom m s with
  | case1 m s m' s' step ih => exact ih (calls.next step)
  | case2 m s s' step => exact ⟨m, s, s', calls, step, rfl⟩
  | case3 m s fault s' step =>
    obtain ⟨-, _, _, outcome, -⟩ := keeps_watch calls.steady.1 calls.steady.2
    rw [(follows_watch m s).outcome, step] at outcome
    cases outcome

/-- On every text: before each step of the run, what is pending is as it should be; nothing is
left out of the moments of the step, and the lexer is steady at each of them; there is a last
step; there are at most three reads more than characters, so a later read cannot fail. -/
theorem run_steady (text : String) :
    (∀ m s, Calls (.ofText text) m s → Ready text m s ∧ (watch m s).Follows s (step m s) ∧
        ∀ t ∈ s :: (watch m s).moments, Steady text.toList t) ∧
      (∃ m s t, Calls (.ofText text) m s ∧ step m s = .ok none t ∧
        run (.ofText text) = ⟨t.actions.reverse, none⟩) ∧
      (run (.ofText text)).reads ≤ text.length + 3 ∧
      ∀ n fault, text.length + 3 ≤ n → run (.failingAt n fault text) = run (.ofText text) := by
  have first : Calls (.ofText text) .text { source := .ofText text } := .start
  obtain ⟨m, s, t, calls, last, whole⟩ := first.ends
  have ended : run (.ofText text) = ⟨t.actions.reverse, none⟩ := by
    rw [run, whole]
  have turn := Turn.of_step calls.steady.1 calls.steady.2 last
  have bound : (run (.ofText text)).reads ≤ text.length + 3 := by
    have reads := turn.steady.reads_le
    have passed := turn.bounded
    rw [ended, Lexing.reads, List.count_reverse, ← String.length_toList]
    simp only [Mode.slack] at passed
    rw [Lexer.reads] at reads
    omega
  refine ⟨fun m s calls => ⟨calls.ready, follows_watch m s, ?_⟩, ⟨m, s, t, calls, last, ended⟩,
    bound, fun n fault enough => run_failingAt_of_le fault (Nat.le_trans bound enough)⟩
  exact List.forall_mem_cons.mpr
    ⟨calls.steady.1, (keeps_watch calls.steady.1 calls.steady.2).moments⟩

/-- A tag that opens inside a tag, at the end of the text: the end is read by the recovery, behind
it, and in text. -/
theorem run_steady_recovery :
    (run (.ofText "\x7b\x7b\x7b\x7b")).reads = 7 ∧
      (∃ s, step .text { source := .ofText "\x7b\x7b\x7b\x7b" } = .ok (some .tag) s ∧
        s.pending = [] ∧ Steady "\x7b\x7b\x7b\x7b".toList s) ∧
      run (.failingAt 7 (.unreadable "gone") "\x7b\x7b\x7b\x7b") =
        run (.ofText "\x7b\x7b\x7b\x7b") := by
  obtain ⟨calls, -, -, late⟩ := run_steady "\x7b\x7b\x7b\x7b"
  refine ⟨by decide +kernel, ?_, late 7 (.unreadable "gone") (by decide)⟩
  obtain ⟨s, opened, -⟩ := (At.start "\x7b\x7b\x7b\x7b").textStep_left
  obtain ⟨ready, -, steady⟩ := calls .tag s (.next .start opened)
  exact ⟨s, opened, ready, steady s List.mem_cons_self⟩

end Lexer
end Stencil
