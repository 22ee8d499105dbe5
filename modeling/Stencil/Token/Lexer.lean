import Stencil.Source
import Stencil.Text.CharClass
import Stencil.Text.Letter
import Stencil.Token.Basic

/-!
# The lexer

The lexer: a machine that reads a source character by character and sends tokens as soon as it
knows them. It is in text, inside a tag, or at the start of a word of a tag; a step consumes
characters and says where the next step starts, or that there is none. Every read and every
token sent is recorded, so that "the tokens sent before read `n`" has a meaning.

`Lexer.run` ends because a step consumes a character, ends a word or is the last one
(`Lexer.step_decreases`).
-/

namespace Stencil

open Text

/-- What a lexer does that can be seen from outside. -/
inductive Action where
  /-- A character was asked for. -/
  | read
  /-- A token was sent. -/
  | send (t : Token)
  /-- No more tokens follow. -/
  | close
  deriving Repr, DecidableEq

/-- The token of an action that sends one. -/
def Action.token? : Action → Option Token
  | send t => some t
  | _ => none

/-- The state of a lexer between two steps. -/
structure Lexer where
  source : Source
  /-- A read failed, and the source is not asked again. -/
  broken : Bool := false
  /-- Characters given back, the next one first. -/
  returned : List Char := []
  /-- Characters taken for the token at hand, the latest first. -/
  pending : List Char := []
  /-- All actions so far, the latest first. -/
  actions : List Action := []
  deriving Repr, DecidableEq

namespace Lexer

/-- Where a step starts. -/
inductive Mode where
  | text
  | tag
  | word
  deriving Repr, DecidableEq

/-- What a piece of scanning comes to: a value, or the failure that stopped it; and the lexer
as it then is. -/
inductive Outcome (α : Type) where
  | ok (value : α) (lexer : Lexer)
  | crash (fault : Fault) (lexer : Lexer)
  deriving Repr, DecidableEq

/-- Scans on after success. -/
def Outcome.andThen {α β : Type} (x : Outcome α) (f : α → Lexer → Outcome β) : Outcome β :=
  match x with
  | ok a s => f a s
  | crash fault s => .crash fault s

/-- Two steps in sequence are done when both are. -/
theorem Outcome.andThen_eq_ok {α β : Type} {x : Outcome α} {f : α → Lexer → Outcome β} {b : β}
    {s' : Lexer} : x.andThen f = .ok b s' ↔ ∃ a s, x = .ok a s ∧ f a s = .ok b s' := by
  cases x with
  | ok a s =>
    constructor
    · exact fun h => ⟨a, s, rfl, h⟩
    · rintro ⟨_, _, h, h'⟩
      cases h
      exact h'
  | crash => simp [andThen]

/-- Sends a token. -/
def send (t : Token) (s : Lexer) : Lexer :=
  { s with actions := .send t :: s.actions }

/-- Sends an error. Pending characters stay pending. -/
def sendError (message : String) (s : Lexer) : Lexer :=
  s.send ⟨.error, message⟩

/-- The next character: one given back, or else one from the source. A source that cannot be
read further counts as ended, after an error token that says why. -/
def read (s : Lexer) : Outcome (Option Char) :=
  match s.returned with
  | c :: cs => .ok (some c) { s with returned := cs }
  | [] =>
    if s.broken then .ok none s
    else
      let actions := .read :: s.actions
      match s.source.read with
      | (.ok c?, source) => .ok c? { s with source, actions }
      | (.error (.unreadable message), source) =>
        let token := ⟨.error, "lex error in next: " ++ message⟩
        .ok none { s with source, broken := true, actions := .send token :: actions }
      | (.error fault, source) => .crash fault { s with source, actions }

/-- The next character, taken for the token at hand. -/
def next (s : Lexer) : Outcome (Option Char) :=
  match read s with
  | .ok (some c) s => .ok (some c) { s with pending := c :: s.pending }
  | r => r

/-- The next character, left where it is. -/
def peek (s : Lexer) : Outcome (Option Char) :=
  match read s with
  | .ok (some c) s => .ok (some c) { s with returned := c :: s.returned }
  | r => r

/-- The number of characters still to be read. -/
def unread (s : Lexer) : Nat :=
  s.returned.length + s.source.rest.length

theorem unread_of_read_some {s s' : Lexer} {c : Char} (h : read s = .ok (some c) s') :
    s'.unread + 1 = s.unread := by
  unfold read at h
  split at h
  · next returned => cases h; simp [unread, returned]; omega
  · next returned =>
    split at h
    · cases h
    · rcases s with ⟨⟨rest, failure⟩, broken, ret, pending, actions⟩
      cases rest <;> rcases failure with _ | ⟨_ | n, _ | _⟩ <;>
        simp_all [Source.read] <;> (obtain ⟨_, rfl⟩ := h; simp [unread])

theorem unread_of_read_none {s s' : Lexer} (h : read s = .ok none s') :
    s'.unread = s.unread := by
  unfold read at h
  split at h
  · cases h
  · split at h
    · cases h; rfl
    · rcases s with ⟨⟨rest, failure⟩, broken, ret, pending, actions⟩
      cases rest <;> rcases failure with _ | ⟨_ | n, _ | _⟩ <;>
        simp_all [Source.read] <;> (subst h; simp [unread])

/-! ## Words and lines -/

/-- A character that continues a word. -/
def continuesWord (c : Char) : Bool :=
  isLetter c || isDecimalDigit c || c == '_'

/-- A character that ends a line. -/
def endsLine (c : Char) : Bool :=
  c == '\n' || c == '\r'

/-- Takes the rest of a word; the character behind it is given back. -/
def takeWord (s : Lexer) : Outcome Unit :=
  match _h : read s with
  | .ok (some c) s' =>
    if continuesWord c then takeWord { s' with pending := c :: s'.pending }
    else .ok () { s' with returned := c :: s'.returned }
  | .ok none s' => .ok () s'
  | .crash fault s' => .crash fault s'
termination_by s.unread
decreasing_by have := unread_of_read_some _h; simp only [unread] at this ⊢; omega

/-- Drops characters up to the end of the line, which is given back. -/
def skipLine (s : Lexer) : Outcome Unit :=
  match _h : read s with
  | .ok (some c) s' =>
    if endsLine c then .ok () { s' with returned := c :: s'.returned }
    else skipLine s'
  | .ok none s' => .ok () s'
  | .crash fault s' => .crash fault s'
termination_by s.unread
decreasing_by have := unread_of_read_some _h; omega

/-- Taking a word gives no characters back. -/
theorem unread_of_takeWord {s s' : Lexer} (h : takeWord s = .ok () s') :
    s'.unread ≤ s.unread := by
  fun_induction takeWord s with
  | case1 s c s₁ hr _ ih =>
    have := unread_of_read_some hr
    have := ih h
    simp only [unread] at *; omega
  | case2 s c s₁ hr _ =>
    have := unread_of_read_some hr
    cases h
    simp only [unread, List.length_cons] at *; omega
  | case3 s s₁ hr => cases h; exact Nat.le_of_eq (unread_of_read_none hr)
  | case4 => cases h

/-- Skipping a line gives no characters back. -/
theorem unread_of_skipLine {s s' : Lexer} (h : skipLine s = .ok () s') :
    s'.unread ≤ s.unread := by
  fun_induction skipLine s with
  | case1 s c s₁ hr _ =>
    have := unread_of_read_some hr
    cases h
    simp only [unread, List.length_cons] at *; omega
  | case2 s c s₁ hr _ ih =>
    have := unread_of_read_some hr
    have := ih h
    omega
  | case3 s s₁ hr => cases h; exact Nat.le_of_eq (unread_of_read_none hr)
  | case4 => cases h

/-! ## Steps -/

/-- The characters taken for the token at hand. -/
def pendingText (s : Lexer) : String :=
  String.ofList s.pending.reverse

/-- Drops the last `n` pending characters. -/
def discard (n : Nat) (s : Lexer) : Lexer :=
  { s with pending := s.pending.drop n }

/-- Sends the token that the pending characters are. -/
def emit (token : String → Token) (s : Lexer) : Lexer :=
  { s with pending := [] }.send (token s.pendingText)

/-- Sends the pending characters as plain text, if there are any. -/
def flush (s : Lexer) : Lexer :=
  if s.pending.isEmpty then s else s.emit fun value => ⟨.text, value⟩

/-- In text: a pair of opening braces starts a tag, a pair of closing braces ends the run, and
the end of the input sends the text pending. A lone brace is text. -/
def textStep (s : Lexer) : Outcome (Option Mode) :=
  s.next.andThen fun
  | none, s => .ok none s.flush
  | some '{', s =>
    s.peek.andThen fun
    | some '{', s =>
      s.next.andThen fun _ s => .ok (some .tag) ((s.discard 2).flush.send .left)
    | _, s => .ok (some .text) s
  | some '}', s =>
    s.peek.andThen fun
    | some '}', s => .ok none (s.sendError "unexpected right meta in lexPlaintext")
    | _, s => .ok (some .text) s
  | some _, s => .ok (some .text) s

/-- Inside a tag: a pair of closing braces ends it, a letter starts a word, and all other
characters are dropped. A pair of opening braces is an error; text starts again at the next
line. -/
def tagStep (s : Lexer) : Outcome (Option Mode) :=
  s.next.andThen fun
  | none, s => .ok none s
  | some '}', s =>
    s.peek.andThen fun
    | some '}', s =>
      s.next.andThen fun _ s => .ok (some .text) (s.emit fun value => ⟨.rightMeta, value⟩)
    | _, s => .ok (some .tag) (s.discard 1)
  | some '{', s =>
    s.peek.andThen fun
    | some '{', s =>
      (s.sendError "unexpected left meta in lexTagBody").skipLine.andThen fun _ s =>
        s.next.andThen fun _ s => .ok (some .text) (s.discard s.pending.length)
    | _, s => .ok (some .tag) (s.discard 1)
  | some c, s =>
    if isLetter c then .ok (some .word) s else .ok (some .tag) (s.discard 1)

/-- At the second character of a word: the longest word is sent. -/
def wordStep (s : Lexer) : Outcome (Option Mode) :=
  s.takeWord.andThen fun _ s => .ok (some .tag) (s.emit .ofWord)

/-- One step: where the next one starts, or nothing after the last one. -/
def step : Mode → Lexer → Outcome (Option Mode)
  | .text => textStep
  | .tag => tagStep
  | .word => wordStep

/-- A step that starts a word has consumed its first letter, and one that ends it may consume
nothing. -/
def Mode.weight : Mode → Nat
  | .word => 1
  | _ => 0

/-- The next character, if there is one, is no longer unread. -/
theorem unread_of_next {s s' : Lexer} {c? : Option Char} (h : next s = .ok c? s') :
    s'.unread + c?.toList.length = s.unread := by
  unfold next at h
  split at h
  · next c s₁ hr =>
    have := unread_of_read_some hr
    cases h
    exact this
  · next hr =>
    cases c? with
    | none => exact unread_of_read_none h
    | some c => exact (hr c s' h).elim

/-- A character that was only looked at is still unread. -/
theorem unread_of_peek {s s' : Lexer} {c? : Option Char} (h : peek s = .ok c? s') :
    s'.unread = s.unread := by
  unfold peek at h
  split at h
  · next c s₁ hr =>
    have := unread_of_read_some hr
    cases h
    simp only [unread, List.length_cons] at *; omega
  · next hr =>
    cases c? with
    | none => exact unread_of_read_none h
    | some c => exact (hr c s' h).elim

@[simp] theorem unread_send (t : Token) (s : Lexer) : (s.send t).unread = s.unread := rfl

@[simp] theorem unread_sendError (message : String) (s : Lexer) :
    (s.sendError message).unread = s.unread := rfl

@[simp] theorem unread_discard (n : Nat) (s : Lexer) : (s.discard n).unread = s.unread := rfl

@[simp] theorem unread_emit (token : String → Token) (s : Lexer) :
    (s.emit token).unread = s.unread := rfl

@[simp] theorem unread_flush (s : Lexer) : s.flush.unread = s.unread := by
  unfold flush; split <;> rfl

/-- A step of the text leaves fewer characters unread and starts no word. -/
theorem unread_of_textStep {s s' : Lexer} {m : Mode} (h : textStep s = .ok (some m) s') :
    s'.unread < s.unread ∧ m.weight = 0 := by
  obtain ⟨c?, s₁, hn, h⟩ := Outcome.andThen_eq_ok.1 h
  have spent := unread_of_next hn
  split at h
  · cases h
  · obtain ⟨p?, s₂, hp, h⟩ := Outcome.andThen_eq_ok.1 h
    have kept := unread_of_peek hp
    split at h
    · obtain ⟨c?, s₃, hn', h⟩ := Outcome.andThen_eq_ok.1 h
      have := unread_of_next hn'
      cases h
      simp [Mode.weight] at *
      omega
    · cases h
      simp [Mode.weight] at *
      omega
  · obtain ⟨p?, s₂, hp, h⟩ := Outcome.andThen_eq_ok.1 h
    have kept := unread_of_peek hp
    split at h
    · cases h
    · cases h
      simp [Mode.weight] at *
      omega
  · cases h
    simp [Mode.weight] at *
    omega

/-- A step inside a tag leaves fewer characters unread. -/
theorem unread_of_tagStep {s s' : Lexer} {m : Mode} (h : tagStep s = .ok (some m) s') :
    s'.unread < s.unread := by
  obtain ⟨c?, s₁, hn, h⟩ := Outcome.andThen_eq_ok.1 h
  have spent := unread_of_next hn
  split at h
  · cases h
  · obtain ⟨p?, s₂, hp, h⟩ := Outcome.andThen_eq_ok.1 h
    have kept := unread_of_peek hp
    split at h
    · obtain ⟨c?, s₃, hn', h⟩ := Outcome.andThen_eq_ok.1 h
      have := unread_of_next hn'
      cases h
      simp at *
      omega
    · cases h
      simp at *
      omega
  · obtain ⟨p?, s₂, hp, h⟩ := Outcome.andThen_eq_ok.1 h
    have kept := unread_of_peek hp
    split at h
    · obtain ⟨_, s₃, hs, h⟩ := Outcome.andThen_eq_ok.1 h
      obtain ⟨c?, s₄, hn', h⟩ := Outcome.andThen_eq_ok.1 h
      have := unread_of_skipLine hs
      have := unread_of_next hn'
      cases h
      simp at *
      omega
    · cases h
      simp at *
      omega
  · split at h <;> cases h <;> simp at * <;> omega

/-- Every step makes progress: it leaves fewer characters unread, or it ends a word. -/
theorem step_decreases {m m' : Mode} {s s' : Lexer} (h : step m s = .ok (some m') s') :
    2 * s'.unread + m'.weight < 2 * s.unread + m.weight := by
  cases m with
  | text =>
    have := unread_of_textStep h
    omega
  | tag =>
    have := unread_of_tagStep h
    have : m'.weight ≤ 1 := by cases m' <;> simp [Mode.weight]
    omega
  | word =>
    obtain ⟨_, s₁, ht, h⟩ := Outcome.andThen_eq_ok.1 h
    have := unread_of_takeWord ht
    cases h
    simp [Mode.weight] at *
    omega

/-- Steps until there are no more: the state after the last one, and the failure that stopped
the run, if one did. -/
def runFrom (m : Mode) (s : Lexer) : Lexer × Option Fault :=
  match _h : step m s with
  | .ok (some m') s' => runFrom m' s'
  | .ok none s' => (s', none)
  | .crash fault s' => (s', some fault)
termination_by 2 * s.unread + m.weight
decreasing_by exact step_decreases _h

end Lexer
end Stencil
