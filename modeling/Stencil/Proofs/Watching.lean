import Stencil.Proofs.Scan
import Stencil.Proofs.Simulation

/-!
# Watching a step

A step says how the lexer is behind it, and nothing of how it was in between. `Lexer.watch` is a
step that also keeps the lexer as it was after each thing done, so that there are moments to speak
of. That it is the step, and that nothing is left out, is `Lexer.follows_watch`: each moment is one
of a few things later than the one before (`Lexer.Tick`), and the last of them is how the step
leaves the lexer.
-/

namespace Stencil
namespace Lexer

open Text

variable {α β : Type} {s s' t : Lexer}

/-! ## Watching -/

/-- A piece of scanning, with the lexer as it was after each thing done. -/
structure Watched (α : Type) where
  outcome : Outcome α
  moments : List Lexer

namespace Watched

/-- Nothing more is done. -/
def done (a : α) (s : Lexer) : Watched α :=
  ⟨.ok a s, []⟩

/-- One thing is done. -/
def once (x : Outcome α) : Watched α :=
  ⟨x, [x.lexer]⟩

/-- Scans on after success. -/
def andThen (x : Watched α) (f : α → Lexer → Watched β) : Watched β :=
  match x.outcome with
  | .ok a s => ⟨(f a s).outcome, x.moments ++ (f a s).moments⟩
  | .crash fault s => ⟨.crash fault s, x.moments⟩

end Watched

open Watched

-- Each piece of scanning once more, and `once` for each thing that it does.

def watchNext (s : Lexer) : Watched (Option Char) :=
  (once s.read).andThen fun
  | some c, s => once (.ok (some c) { s with pending := c :: s.pending })
  | none, s => done none s

def watchPeek (s : Lexer) : Watched (Option Char) :=
  (once s.read).andThen fun
  | some c, s => once (.ok (some c) { s with returned := c :: s.returned })
  | none, s => done none s

/-- Reads on while characters go on, and gives back the one behind them. -/
def watchWhile (goesOn : Char → Bool) (held : Bool) (s : Lexer) : Watched Unit :=
  match _h : s.read with
  | .ok (some c) s' =>
    (once (.ok () s')).andThen fun _ _ =>
      if goesOn c then
        if held then
          (once (.ok () { s' with pending := c :: s'.pending })).andThen fun _ _ =>
            watchWhile goesOn held { s' with pending := c :: s'.pending }
        else watchWhile goesOn held s'
      else once (.ok () { s' with returned := c :: s'.returned })
  | .ok none s' => once (.ok () s')
  | .crash fault s' => once (.crash fault s')
termination_by s.unread
decreasing_by
  · have := unread_of_read_some _h
    simp only [unread] at this ⊢
    omega
  · have := unread_of_read_some _h
    omega

def watchTakeWord : Lexer → Watched Unit :=
  watchWhile continuesWord true

def watchSkipLine : Lexer → Watched Unit :=
  watchWhile (fun c => !endsLine c) false

def watchEmit (token : String → Token) (s : Lexer) : Watched Unit :=
  (once (.ok () { s with pending := [] })).andThen fun _ _ => once (.ok () (s.emit token))

def watchFlush (s : Lexer) : Watched Unit :=
  if s.pending.isEmpty then done () s else watchEmit (fun value => ⟨.text, value⟩) s

def watchTextStep (s : Lexer) : Watched (Option Mode) :=
  (watchNext s).andThen fun c? s =>
    if c? = some '{' then
      (watchPeek s).andThen fun c? s =>
        if c? = some '{' then
          (watchNext s).andThen fun _ s =>
            (once (.ok () (s.discard 2))).andThen fun _ s =>
              (watchFlush s).andThen fun _ s => once (.ok (some .tag) (s.send .left))
        else done (some .text) s
    else if c? = some '}' then
      (watchPeek s).andThen fun c? s =>
        if c? = some '}' then once (.ok none (s.send strayRight)) else done (some .text) s
    else if c? = none then (watchFlush s).andThen fun _ s => done none s
    else done (some .text) s

def watchTagStep (s : Lexer) : Watched (Option Mode) :=
  (watchNext s).andThen fun c? s =>
    if c? = some '}' then
      (watchPeek s).andThen fun c? s =>
        if c? = some '}' then
          (watchNext s).andThen fun _ s =>
            (watchEmit (fun value => ⟨.rightMeta, value⟩) s).andThen fun _ s => done (some .text) s
        else once (.ok (some .tag) (s.discard 1))
    else if c? = some '{' then
      (watchPeek s).andThen fun c? s =>
        if c? = some '{' then
          (once (.ok () (s.send strayLeft))).andThen fun _ s =>
            (watchSkipLine s).andThen fun _ s =>
              (watchNext s).andThen fun _ s =>
                once (.ok (some .text) (s.discard s.pending.length))
        else once (.ok (some .tag) (s.discard 1))
    else if c? = none then done none s
    else if c?.any isLetter then done (some .word) s
    else once (.ok (some .tag) (s.discard 1))

def watchWordStep (s : Lexer) : Watched (Option Mode) :=
  (watchTakeWord s).andThen fun _ s =>
    (watchEmit .ofWord s).andThen fun _ s => done (some .tag) s

/-- One step, watched. -/
def watch : Mode → Lexer → Watched (Option Mode)
  | .text => watchTextStep
  | .tag => watchTagStep
  | .word => watchWordStep

/-! ## Nothing is left out -/

/-- The things that a lexer does. -/
inductive Tick : Lexer → Lexer → Prop
  | read {s : Lexer} : Tick s s.read.lexer
  | hold {s : Lexer} (c : Char) : Tick s { s with pending := c :: s.pending }
  | giveBack {s : Lexer} (c : Char) : Tick s { s with returned := c :: s.returned }
  | discard {s : Lexer} (n : Nat) : Tick s (s.discard n)
  | send {s : Lexer} (t : Token) : Tick s (s.send t)

/-- One thing after another, with the lexer that each of them leaves. -/
inductive Ticks : Lexer → List Lexer → Lexer → Prop
  | nil {s : Lexer} : Ticks s [] s
  | cons {s s' t : Lexer} {ss : List Lexer} :
    Tick s s' → Ticks s' ss t → Ticks s (s' :: ss) t

theorem Ticks.append {ss ts : List Lexer} {u : Lexer} (first : Ticks s ss t)
    (rest : Ticks t ts u) : Ticks s (ss ++ ts) u := by
  induction first with
  | nil => exact rest
  | cons tick _ ih => exact .cons tick (ih rest)

/-- What is watched is the piece of scanning, and each moment is one thing later than the last. -/
structure Watched.Follows (w : Watched α) (s : Lexer) (x : Outcome α) : Prop where
  outcome : w.outcome = x
  ticks : Ticks s w.moments x.lexer

theorem follows_done (a : α) (s : Lexer) : (done a s).Follows s (.ok a s) :=
  ⟨rfl, .nil⟩

theorem follows_once {a : α} (tick : Tick s s') : (once (.ok a s')).Follows s (.ok a s') :=
  ⟨rfl, .cons tick .nil⟩

theorem follows_read (s : Lexer) : (once s.read).Follows s s.read :=
  ⟨rfl, .cons .read .nil⟩

theorem Watched.Follows.andThen {w : Watched α} {x : Outcome α} {f : α → Lexer → Watched β}
    {g : α → Lexer → Outcome β} (first : w.Follows s x)
    (rest : ∀ a s', x = .ok a s' → (f a s').Follows s' (g a s')) :
    (w.andThen f).Follows s (x.andThen g) := by
  obtain ⟨rfl, ticks⟩ := first
  rcases w with ⟨⟨a, s'⟩ | ⟨fault, s'⟩, moments⟩
  · have more := rest a s' rfl
    exact ⟨more.outcome, ticks.append more.ticks⟩
  · exact ⟨rfl, ticks⟩

theorem Watched.Follows.behind {a : α} {f : α → Lexer → Watched β} {x : Outcome β}
    (tick : Tick s s') (rest : (f a s').Follows s' x) :
    ((once (.ok a s')).andThen f).Follows s x :=
  ⟨rest.outcome, .cons tick rest.ticks⟩

theorem Watched.Follows.congr {w : Watched α} {x y : Outcome α} (follows : w.Follows s x)
    (same : y = x) : w.Follows s y :=
  same ▸ follows

theorem follows_next (s : Lexer) : (watchNext s).Follows s s.next := by
  rw [next_eq]
  refine (follows_read s).andThen fun c? s _ => ?_
  cases c? with
  | none => exact follows_done none s
  | some c => exact follows_once (.hold c)

theorem follows_peek (s : Lexer) : (watchPeek s).Follows s s.peek := by
  rw [peek_eq]
  refine (follows_read s).andThen fun c? s _ => ?_
  cases c? with
  | none => exact follows_done none s
  | some c => exact follows_once (.giveBack c)

section Loops

variable {goesOn : Char → Bool} {held : Bool}

theorem watchWhile_eq (s : Lexer) : watchWhile goesOn held s = (once s.read).andThen fun
    | some c, s =>
      if goesOn c then
        if held then
          (once (.ok () { s with pending := c :: s.pending })).andThen fun _ s =>
            watchWhile goesOn held s
        else watchWhile goesOn held s
      else once (.ok () { s with returned := c :: s.returned })
    | none, s => done () s := by
  rw [watchWhile]
  rcases s.read with ⟨_ | c, s⟩ | _ <;> rfl

/-- A loop on the characters ahead is followed by the watched one. -/
theorem follows_while {op : Lexer → Outcome Unit}
    (eq : ∀ s, op s = s.read.andThen fun
      | some c, s =>
        if goesOn c then op (if held then { s with pending := c :: s.pending } else s)
        else .ok () { s with returned := c :: s.returned }
      | none, s => .ok () s) (s : Lexer) :
    (watchWhile goesOn held s).Follows s (op s) := by
  induction left : s.unread using Nat.strongRecOn generalizing s with
  | ind n ih =>
    rw [watchWhile_eq, eq]
    refine (follows_read s).andThen fun c? s' read => ?_
    cases c? with
    | none => exact follows_done () s'
    | some c =>
      have shorter := unread_of_read_some read
      by_cases more : goesOn c
      · simp only [if_pos more]
        cases held with
        | true => exact .behind (.hold c) (ih s'.unread (by omega) _ rfl)
        | false => exact ih s'.unread (by omega) s' rfl
      · simp only [if_neg more]
        exact follows_once (.giveBack c)

end Loops

theorem follows_takeWord (s : Lexer) : (watchTakeWord s).Follows s s.takeWord :=
  follows_while takeWord_eq s

theorem follows_skipLine (s : Lexer) : (watchSkipLine s).Follows s s.skipLine := by
  refine follows_while (fun s => (skipLine_eq s).trans (congrArg _ ?_)) s
  funext c? s
  cases c? with
  | none => rfl
  | some c => cases stops : endsLine c <;> simp [stops]

theorem follows_emit (token : String → Token) (s : Lexer) :
    (watchEmit token s).Follows s (.ok () (s.emit token)) := by
  have cleared : s.discard s.pending.length = { s with pending := [] } := by
    rw [Lexer.discard, List.drop_length]
  refine ⟨rfl, .cons ?_ (.cons (.send _) .nil)⟩
  rw [← cleared]
  exact .discard _

theorem follows_flush (s : Lexer) : (watchFlush s).Follows s (.ok () s.flush) := by
  unfold watchFlush flush
  split
  · exact follows_done () s
  · exact follows_emit _ s

/-- Watching a step in text leaves nothing out. -/
theorem follows_textStep (s : Lexer) : (watchTextStep s).Follows s (textStep s) := by
  refine (follows_next s).andThen fun c? s₁ _ => ?_
  by_cases left : c? = some '{'
  · subst left
    refine (follows_peek s₁).andThen fun c? s₂ _ => ?_
    by_cases pair : c? = some '{'
    · subst pair
      refine (follows_next s₂).andThen fun _ s₃ _ => ?_
      exact .behind (.discard 2) ((follows_flush (s₃.discard 2)).andThen fun _ s₄ _ =>
        follows_once (.send .left))
    · rw [if_neg pair]
      refine (follows_done _ s₂).congr ?_
      split <;> simp_all
  by_cases right : c? = some '}'
  · subst right
    refine (follows_peek s₁).andThen fun c? s₂ _ => ?_
    by_cases pair : c? = some '}'
    · subst pair
      exact follows_once (.send strayRight)
    · rw [if_neg pair]
      refine (follows_done _ s₂).congr ?_
      split <;> simp_all
  rw [if_neg left, if_neg right]
  cases c? with
  | none => exact (follows_flush s₁).andThen fun _ s₂ _ => follows_done none s₂
  | some c =>
    refine (follows_done _ s₁).congr ?_
    split <;> simp_all

/-- Watching a step in a tag leaves nothing out. -/
theorem follows_tagStep (s : Lexer) : (watchTagStep s).Follows s (tagStep s) := by
  refine (follows_next s).andThen fun c? s₁ _ => ?_
  by_cases right : c? = some '}'
  · subst right
    refine (follows_peek s₁).andThen fun c? s₂ _ => ?_
    by_cases pair : c? = some '}'
    · subst pair
      refine (follows_next s₂).andThen fun _ s₃ _ => ?_
      exact (follows_emit _ s₃).andThen fun _ s₄ _ => follows_done _ s₄
    · rw [if_neg pair]
      refine (follows_once (.discard 1)).congr ?_
      split <;> simp_all
  by_cases left : c? = some '{'
  · subst left
    refine (follows_peek s₁).andThen fun c? s₂ _ => ?_
    by_cases pair : c? = some '{'
    · subst pair
      rw [if_pos rfl]
      refine .behind (.send strayLeft) ?_
      refine (follows_skipLine (s₂.send strayLeft)).andThen fun _ s₃ _ => ?_
      exact (follows_next s₃).andThen fun _ s₄ _ => follows_once (.discard s₄.pending.length)
    · rw [if_neg pair]
      refine (follows_once (.discard 1)).congr ?_
      split <;> simp_all
  rw [if_neg right, if_neg left]
  cases c? with
  | none => exact follows_done none s₁
  | some c =>
    rw [if_neg nofun, Option.any_some]
    by_cases letter : isLetter c
    · rw [if_pos letter]
      refine (follows_done _ s₁).congr ?_
      split <;> simp_all
    · rw [if_neg letter]
      refine (follows_once (.discard 1)).congr ?_
      split <;> simp_all

theorem follows_wordStep (s : Lexer) : (watchWordStep s).Follows s (wordStep s) :=
  (follows_takeWord s).andThen fun _ s₁ _ =>
    (follows_emit .ofWord s₁).andThen fun _ s₂ _ => follows_done (some Mode.tag) s₂

theorem follows_watch (m : Mode) (s : Lexer) : (watch m s).Follows s (step m s) := by
  cases m with
  | text => exact follows_textStep s
  | tag => exact follows_tagStep s
  | word => exact follows_wordStep s

end Lexer
end Stencil
