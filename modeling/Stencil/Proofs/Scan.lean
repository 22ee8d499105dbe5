import Stencil.Token.Lexing

/-!
# Scanning a text

The lexer is a machine that reads ahead, gives back and sends. On a text that can be read to its
end, all it does is `Lexer.scan`: a function from the characters ahead to the tokens that are
still to come. `Lexer.run_ofText` proves the two equal; what is said about tokens of a text is
proved about the function.

Between two steps a lexer is in plain text, with the characters that are pending, or inside a
tag, where nothing is pending (`Lexer.Place`). `Lexer.At` says what is pending, what is ahead
and what has been sent, and hides how these are kept; each operation has one lemma on it.
-/

namespace Stencil
namespace Lexer

open Text

/-- Where a lexer is between two tokens. -/
inductive Place where
  /-- In plain text, with the characters taken so far, the latest first. -/
  | text (pending : List Char)
  | tag

/-- The mode of the next step. -/
def Place.mode : Place → Mode
  | text _ => .text
  | tag => .tag

/-- The characters that are pending. -/
def Place.pending : Place → List Char
  | text pending => pending
  | tag => []

/-- Inside a tag, and not in plain text. -/
def Place.inTag : Place → Bool
  | text _ => false
  | tag => true

/-- Two braces of one kind, of which `c` is the first. -/
def isPair (c : Char) (cs : List Char) : Bool :=
  (c == '{' || c == '}') && cs.head? == some c

/-- What is behind the first end of a line. -/
def nextLine (cs : List Char) : List Char :=
  (cs.dropWhile fun c => !endsLine c).tail

/-- The token for plain text, if there is any. -/
def flushed (pending : List Char) : List Token :=
  if pending.isEmpty then [] else [⟨.text, String.ofList pending.reverse⟩]

/-- A tag ends in plain text. -/
def strayRight : Token := ⟨.error, "unexpected right meta in lexPlaintext"⟩

/-- A tag starts inside a tag. -/
def strayLeft : Token := ⟨.error, "unexpected left meta in lexTagBody"⟩

/-- The tokens that the characters ahead come to. -/
def scan : Place → List Char → List Token
  | .text pending, [] => flushed pending
  | .text pending, c :: cs =>
    if isPair c cs then
      if c = '{' then flushed pending ++ .left :: scan .tag cs.tail else [strayRight]
    else scan (.text (c :: pending)) cs
  | .tag, [] => []
  | .tag, c :: cs =>
    if isPair c cs then
      if c = '{' then strayLeft :: scan (.text []) (nextLine cs.tail)
      else .right :: scan (.text []) cs.tail
    else if isLetter c then
      .ofWord (String.ofList (c :: cs.takeWhile continuesWord)) ::
        scan .tag (cs.dropWhile continuesWord)
    else scan .tag cs
termination_by _ cs => cs.length
decreasing_by
  · simp only [List.length_tail, List.length_cons]; omega
  · simp only [List.length_cons]; omega
  · have := (List.dropWhile_suffix (fun c => !endsLine c) (l := cs.tail)).length_le
    simp only [nextLine, List.length_tail, List.length_cons] at *
    omega
  · simp only [List.length_tail, List.length_cons]; omega
  · have := (List.dropWhile_suffix continuesWord (l := cs)).length_le
    simp only [List.length_cons]
    omega
  · simp only [List.length_cons]; omega

variable {c : Char} {pending cs : List Char}

theorem isPair_iff : isPair c cs = true ↔ (c = '{' ∨ c = '}') ∧ ∃ rest, cs = c :: rest := by
  rw [isPair, Bool.and_eq_true, Bool.or_eq_true, beq_iff_eq, beq_iff_eq, beq_iff_eq,
    List.head?_eq_some_iff]

theorem not_brace_of_isLetter (letter : isLetter c) : ¬(c = '{' ∨ c = '}') := by
  rintro (rfl | rfl)
  · revert letter; decide
  · revert letter; decide

theorem not_isPair_of_class {p : Char → Bool} (braces : ¬p '{' ∧ ¬p '}') (inside : p c) :
    ¬isPair c cs := by
  intro pair
  obtain ⟨rfl | rfl, -⟩ := isPair_iff.mp pair
  · exact braces.1 inside
  · exact braces.2 inside

theorem not_isPair_of_isLetter (letter : isLetter c) : ¬isPair c cs :=
  not_isPair_of_class (by decide) letter

theorem scan_left :
    scan (.text pending) ('{' :: '{' :: cs) = flushed pending ++ .left :: scan .tag cs := by
  rw [scan, if_pos (by simp [isPair]), if_pos rfl, List.tail_cons]

theorem scan_right : scan .tag ('}' :: '}' :: cs) = .right :: scan (.text []) cs := by
  rw [scan, if_pos (by simp [isPair]), if_neg (by decide), List.tail_cons]

theorem scan_strayLeft :
    scan .tag ('{' :: '{' :: cs) = strayLeft :: scan (.text []) (nextLine cs) := by
  rw [scan, if_pos (by simp [isPair]), if_pos rfl, List.tail_cons]

theorem scan_strayRight : scan (.text pending) ('}' :: '}' :: cs) = [strayRight] := by
  rw [scan, if_pos (by simp [isPair]), if_neg (by decide)]

theorem scan_single (single : ¬isPair c cs) :
    scan (.text pending) (c :: cs) = scan (.text (c :: pending)) cs := by
  rw [scan, if_neg single]

theorem scan_letter (letter : isLetter c) :
    scan .tag (c :: cs) = .ofWord (String.ofList (c :: cs.takeWhile continuesWord)) ::
      scan .tag (cs.dropWhile continuesWord) := by
  rw [scan, if_neg (not_isPair_of_isLetter letter), if_pos letter]

theorem scan_skip (single : ¬isPair c cs) (other : ¬isLetter c) :
    scan .tag (c :: cs) = scan .tag cs := by
  rw [scan, if_neg single, if_neg other]

/-! ## A lexer at a place -/

/-- The lexer reads a text without failures: these characters are pending, those are ahead, and
the tokens have been sent. -/
structure At (s : Lexer) (pending ahead : List Char) (sent : List Token) : Prop where
  sound : s.source.failure = none
  whole : s.broken = false
  held : s.pending = pending
  coming : s.returned ++ s.source.rest = ahead
  done : s.actions.reverse.filterMap (·.token?) = sent

variable {s : Lexer} {ahead : List Char} {sent : List Token}

theorem At.start (text : String) : At { source := .ofText text } [] text.toList [] :=
  ⟨rfl, rfl, rfl, rfl, rfl⟩

/-- A read takes the first of the characters ahead. -/
theorem At.read (place : At s pending ahead sent) :
    ∃ s', s.read = .ok ahead.head? s' ∧ At s' pending ahead.tail sent := by
  obtain ⟨sound, whole, held, coming, done⟩ := place
  unfold Lexer.read
  split
  · next c cs returned =>
    rw [returned] at coming
    subst coming
    exact ⟨_, rfl, sound, whole, held, rfl, done⟩
  · next returned =>
    rw [returned, List.nil_append] at coming
    subst coming
    have answer : s.source.read = (.ok s.source.rest.head?, ⟨s.source.rest.tail, none⟩) := by
      simp only [Source.read, sound]
    simp only [whole, Bool.false_eq_true, if_false, answer]
    refine ⟨_, rfl, rfl, rfl, held, ?_, ?_⟩
    · rw [returned, List.nil_append]
    · simpa [Action.token?] using done

/-- Reading a character moves it from what is ahead to what is pending. -/
theorem At.next (place : At s pending ahead sent) :
    ∃ s', s.next = .ok ahead.head? s' ∧
      At s' (ahead.head?.toList ++ pending) ahead.tail sent := by
  obtain ⟨s', read, sound, whole, held, coming, done⟩ := place.read
  unfold Lexer.next
  rw [read]
  cases ahead with
  | nil => exact ⟨s', rfl, sound, whole, held, coming, done⟩
  | cons c cs =>
    refine ⟨_, rfl, sound, whole, ?_, coming, done⟩
    rw [held]
    rfl

/-- Looking at the next character moves nothing. -/
theorem At.peek (place : At s pending ahead sent) :
    ∃ s', s.peek = .ok ahead.head? s' ∧ At s' pending ahead sent := by
  obtain ⟨s', read, sound, whole, held, coming, done⟩ := place.read
  unfold Lexer.peek
  rw [read]
  cases ahead with
  | nil => exact ⟨s', rfl, sound, whole, held, coming, done⟩
  | cons c cs =>
    refine ⟨_, rfl, sound, whole, held, ?_, done⟩
    rw [List.cons_append, coming]
    rfl

/-- Taking a word takes the longest run of characters that continue one. -/
theorem At.takeWord (place : At s pending ahead sent) :
    ∃ s', s.takeWord = .ok () s' ∧
      At s' ((ahead.takeWhile continuesWord).reverse ++ pending)
        (ahead.dropWhile continuesWord) sent := by
  induction ahead generalizing s pending with
  | nil =>
    obtain ⟨s', read, after⟩ := place.read
    refine ⟨s', ?_, after⟩
    rw [Lexer.takeWord.eq_def]
    split
    all_goals simp_all
  | cons c cs ih =>
    obtain ⟨s', read, after⟩ := place.read
    obtain ⟨sound, whole, held, coming, done⟩ := after
    rw [Lexer.takeWord.eq_def]
    by_cases more : continuesWord c
    · obtain ⟨s'', took, after⟩ := ih (s := { s' with pending := c :: s'.pending })
        ⟨sound, whole, rfl, coming, done⟩
      refine ⟨s'', ?_, ?_⟩
      · split
        all_goals simp_all
      · simpa [more, held] using after
    · refine ⟨{ s' with returned := c :: s'.returned }, ?_, sound, whole, ?_, ?_, done⟩
      · split
        all_goals simp_all
      · simpa [more] using held
      · simpa [more] using coming

/-- Skipping a line stops before its end. -/
theorem At.skipLine (place : At s pending ahead sent) :
    ∃ s', s.skipLine = .ok () s' ∧
      At s' pending (ahead.dropWhile fun c => !endsLine c) sent := by
  induction ahead generalizing s with
  | nil =>
    obtain ⟨s', read, after⟩ := place.read
    refine ⟨s', ?_, after⟩
    rw [Lexer.skipLine.eq_def]
    split
    all_goals simp_all
  | cons c cs ih =>
    obtain ⟨s', read, after⟩ := place.read
    rw [Lexer.skipLine.eq_def]
    by_cases stop : endsLine c
    · obtain ⟨sound, whole, held, coming, done⟩ := after
      refine ⟨{ s' with returned := c :: s'.returned }, ?_, sound, whole, held, ?_, done⟩
      · split
        all_goals simp_all
      · simpa [stop] using coming
    · obtain ⟨s'', skipped, after⟩ := ih after
      refine ⟨s'', ?_, ?_⟩
      · split
        all_goals simp_all
      · simpa [stop] using after

theorem At.send (place : At s pending ahead sent) (t : Token) :
    At (s.send t) pending ahead (sent ++ [t]) := by
  obtain ⟨sound, whole, held, coming, rfl⟩ := place
  refine ⟨sound, whole, held, coming, ?_⟩
  simp [Lexer.send, Action.token?]

theorem At.discard (place : At s pending ahead sent) (n : Nat) :
    At (s.discard n) (pending.drop n) ahead sent := by
  obtain ⟨sound, whole, rfl, coming, done⟩ := place
  exact ⟨sound, whole, rfl, coming, done⟩

theorem At.emit (place : At s pending ahead sent) (token : String → Token) :
    At (s.emit token) [] ahead (sent ++ [token (String.ofList pending.reverse)]) := by
  obtain ⟨sound, whole, rfl, coming, done⟩ := place
  have cleared : At { s with pending := [] } [] ahead sent := ⟨sound, whole, rfl, coming, done⟩
  exact cleared.send _

theorem At.flush (place : At s pending ahead sent) :
    At s.flush [] ahead (sent ++ flushed pending) := by
  unfold Lexer.flush flushed
  rw [place.held]
  cases pending with
  | nil => simpa using place
  | cons c cs => exact place.emit _

/-! ## One step -/

/-- The number of characters dropped by a step that finds no part of a token. -/
def Mode.drops : Mode → Nat
  | .tag => 1
  | _ => 0

section Steps

variable {s s₁ s₂ s₃ : Lexer} {c? : Option Char}

/-- Behind a brace a step looks at the next character, and only another brace of its kind makes
a difference. A lone brace stays pending in text, and is dropped in a tag. -/
theorem step_of_brace {m : Mode} (start : m ≠ .word) (next : s.next = .ok (some c) s₁)
    (brace : c = '{' ∨ c = '}') :
    ∃ f, step m s = s₁.peek.andThen f ∧
      ∀ c? s', c? ≠ some c → f c? s' = .ok (some m) (s'.discard m.drops) := by
  cases m with
  | word => exact absurd rfl start
  | _ =>
    unfold step textStep tagStep
    simp only [next, Outcome.andThen]
    rcases brace with rfl | rfl
    all_goals
      refine ⟨_, rfl, fun c? s' other => ?_⟩
      split
      · exact absurd rfl other
      · rfl

theorem textStep_of_left (next : s.next = .ok (some '{') s₁) (peek : s₁.peek = .ok (some '{') s₂)
    (next' : s₂.next = .ok c? s₃) :
    textStep s = .ok (some .tag) ((s₃.discard 2).flush.send .left) := by
  unfold textStep
  simp only [next, peek, next', Outcome.andThen]

theorem textStep_of_right (next : s.next = .ok (some '}') s₁) (peek : s₁.peek = .ok (some '}') s₂) :
    textStep s = .ok none (s₂.send strayRight) := by
  unfold textStep
  simp only [next, peek, Outcome.andThen, sendError, strayRight]

theorem textStep_of_plain (next : s.next = .ok (some c) s₁) (plain : ¬(c = '{' ∨ c = '}')) :
    textStep s = .ok (some .text) s₁ := by
  unfold textStep
  rw [next]
  simp only [Outcome.andThen]
  split <;> simp_all

theorem tagStep_of_right (next : s.next = .ok (some '}') s₁) (peek : s₁.peek = .ok (some '}') s₂)
    (next' : s₂.next = .ok c? s₃) :
    tagStep s = .ok (some .text) (s₃.emit fun value => ⟨.rightMeta, value⟩) := by
  unfold tagStep
  simp only [next, peek, next', Outcome.andThen]

theorem tagStep_of_left (next : s.next = .ok (some '{') s₁) (peek : s₁.peek = .ok (some '{') s₂) :
    tagStep s = (s₂.send strayLeft).skipLine.andThen fun _ s =>
      s.next.andThen fun _ s => .ok (some .text) (s.discard s.pending.length) := by
  unfold tagStep
  simp only [next, peek, Outcome.andThen, sendError, strayLeft]

theorem tagStep_of_plain (next : s.next = .ok (some c) s₁) (plain : ¬(c = '{' ∨ c = '}')) :
    tagStep s = if isLetter c then .ok (some .word) s₁ else .ok (some .tag) (s₁.discard 1) := by
  unfold tagStep
  rw [next]
  simp only [Outcome.andThen]
  split <;> simp_all

end Steps

/-- A brace that is the first of no pair has another character behind it, or none. -/
theorem head?_ne_of_not_isPair (brace : c = '{' ∨ c = '}') (single : ¬isPair c cs) :
    cs.head? ≠ some c := by
  intro same
  exact single (isPair_iff.mpr ⟨brace, List.head?_eq_some_iff.mp same⟩)

theorem At.textStep_end (here : At s pending [] sent) :
    ∃ s', step .text s = .ok none s' ∧ At s' [] [] (sent ++ flushed pending) := by
  obtain ⟨s₁, next, here⟩ := here.next
  refine ⟨s₁.flush, ?_, here.flush⟩
  rw [step, textStep, next]
  rfl

theorem At.textStep_left (here : At s pending ('{' :: '{' :: cs) sent) :
    ∃ s', step .text s = .ok (some .tag) s' ∧
      At s' [] cs (sent ++ flushed pending ++ [.left]) := by
  obtain ⟨s₁, next, here⟩ := here.next
  obtain ⟨s₂, peek, here⟩ := here.peek
  obtain ⟨s₃, next', here⟩ := here.next
  exact ⟨_, textStep_of_left next peek next', (here.discard 2).flush.send _⟩

theorem At.textStep_right (here : At s pending ('}' :: '}' :: cs) sent) :
    ∃ s', step .text s = .ok none s' ∧
      At s' ('}' :: pending) ('}' :: cs) (sent ++ [strayRight]) := by
  obtain ⟨s₁, next, here⟩ := here.next
  obtain ⟨s₂, peek, here⟩ := here.peek
  exact ⟨_, textStep_of_right next peek, here.send _⟩

/-- A character of text becomes pending. -/
theorem At.textStep_plain (here : At s pending (c :: cs) sent) (single : ¬isPair c cs) :
    ∃ s', step .text s = .ok (some .text) s' ∧ At s' (c :: pending) cs sent := by
  obtain ⟨s₁, next, here⟩ := here.next
  by_cases brace : c = '{' ∨ c = '}'
  · obtain ⟨s₂, peek, here⟩ := here.peek
    obtain ⟨f, looks, lone⟩ := step_of_brace (m := .text) nofun next brace
    refine ⟨s₂, ?_, here⟩
    rw [looks, peek]
    exact lone _ s₂ (head?_ne_of_not_isPair brace single)
  · exact ⟨s₁, textStep_of_plain next brace, here⟩

theorem At.tagStep_end (here : At s [] [] sent) :
    ∃ s', step .tag s = .ok none s' ∧ At s' [] [] sent := by
  obtain ⟨s₁, next, here⟩ := here.next
  refine ⟨s₁, ?_, here⟩
  rw [step, tagStep, next]
  rfl

theorem At.tagStep_right (here : At s [] ('}' :: '}' :: cs) sent) :
    ∃ s', step .tag s = .ok (some .text) s' ∧ At s' [] cs (sent ++ [.right]) := by
  obtain ⟨s₁, next, here⟩ := here.next
  obtain ⟨s₂, peek, here⟩ := here.peek
  obtain ⟨s₃, next', here⟩ := here.next
  exact ⟨_, tagStep_of_right next peek next', here.emit _⟩

/-- An opening delimiter inside of a tag is an error, and the rest of its line is skipped. -/
theorem At.tagStep_left (here : At s [] ('{' :: '{' :: cs) sent) :
    ∃ s', step .tag s = .ok (some .text) s' ∧ At s' [] (nextLine cs) (sent ++ [strayLeft]) := by
  obtain ⟨s₁, next, here⟩ := here.next
  obtain ⟨s₂, peek, here⟩ := here.peek
  obtain ⟨s₃, skip, here⟩ := (here.send strayLeft).skipLine
  obtain ⟨s₄, next', here⟩ := here.next
  have cleared := here.discard s₄.pending.length
  rw [here.held, List.drop_length] at cleared
  refine ⟨s₄.discard s₄.pending.length, ?_, ?_⟩
  · rw [step, tagStep_of_left next peek, skip]
    simp only [Outcome.andThen, next']
  · rw [here.held]
    simpa [nextLine, endsLine] using cleared

/-- A character that belongs in no tag is dropped. -/
theorem At.tagStep_other (here : At s [] (c :: cs) sent) (single : ¬isPair c cs)
    (other : ¬isLetter c) : ∃ s', step .tag s = .ok (some .tag) s' ∧ At s' [] cs sent := by
  obtain ⟨s₁, next, here⟩ := here.next
  by_cases brace : c = '{' ∨ c = '}'
  · obtain ⟨s₂, peek, here⟩ := here.peek
    obtain ⟨f, looks, lone⟩ := step_of_brace (m := .tag) nofun next brace
    refine ⟨s₂.discard 1, ?_, here.discard 1⟩
    rw [looks, peek]
    exact lone _ s₂ (head?_ne_of_not_isPair brace single)
  · refine ⟨s₁.discard 1, ?_, here.discard 1⟩
    exact (tagStep_of_plain next brace).trans (if_neg other)

/-- A letter starts a word, which takes two steps. -/
theorem At.tagStep_letter (here : At s [] (c :: cs) sent) (letter : isLetter c) :
    ∃ s', step .tag s = .ok (some .word) s' ∧ At s' [c] cs sent := by
  obtain ⟨s₁, next, here⟩ := here.next
  refine ⟨s₁, ?_, here⟩
  exact (tagStep_of_plain next (not_brace_of_isLetter letter)).trans (if_pos letter)

theorem At.wordStep (here : At s [c] cs sent) :
    ∃ s', step .word s = .ok (some .tag) s' ∧ At s' [] (cs.dropWhile continuesWord)
      (sent ++ [.ofWord (String.ofList (c :: cs.takeWhile continuesWord))]) := by
  obtain ⟨s₁, took, here⟩ := here.takeWord
  have sent' := here.emit .ofWord
  refine ⟨s₁.emit .ofWord, ?_, ?_⟩
  · rw [step, Lexer.wordStep, took]
    rfl
  · simpa using sent'

/-! ## A whole run -/

theorem runFrom_of_step {m m' : Mode} {s' : Lexer} (h : step m s = .ok (some m') s') :
    runFrom m s = runFrom m' s' := by
  rw [runFrom]
  split <;> simp_all

theorem runFrom_of_last {m : Mode} {s' : Lexer} (h : step m s = .ok none s') :
    runFrom m s = (s', none) := by
  rw [runFrom]
  split <;> simp_all

/-- From any place, a run sends what scanning gives, and does not crash. -/
theorem At.runFrom {place : Place} (here : At s place.pending ahead sent) :
    ∃ s', Lexer.runFrom place.mode s = (s', none) ∧
      s'.actions.reverse.filterMap (·.token?) = sent ++ scan place ahead := by
  fun_induction scan place ahead generalizing s sent with
  | case1 pending =>
    obtain ⟨s', step, here⟩ := here.textStep_end
    exact ⟨s', runFrom_of_last step, here.done⟩
  | case2 pending cs pair ih =>
    obtain ⟨-, rest, rfl⟩ := isPair_iff.mp pair
    obtain ⟨s₁, step, here⟩ := here.textStep_left
    obtain ⟨s', run, done⟩ := ih here
    refine ⟨s', (runFrom_of_step step).trans run, ?_⟩
    simpa [Place.pending] using done
  | case3 pending c cs pair other =>
    obtain ⟨brace, rest, rfl⟩ := isPair_iff.mp pair
    obtain rfl : c = '}' := brace.resolve_left other
    obtain ⟨s', step, here⟩ := here.textStep_right
    exact ⟨s', runFrom_of_last step, here.done⟩
  | case4 pending c cs single ih =>
    obtain ⟨s₁, step, here⟩ := here.textStep_plain single
    obtain ⟨s', run, done⟩ := ih here
    exact ⟨s', (runFrom_of_step step).trans run, done⟩
  | case5 =>
    obtain ⟨s', step, here⟩ := here.tagStep_end
    refine ⟨s', runFrom_of_last step, ?_⟩
    rw [here.done, List.append_nil]
  | case6 cs pair ih =>
    obtain ⟨-, rest, rfl⟩ := isPair_iff.mp pair
    obtain ⟨s₁, step, here⟩ := here.tagStep_left
    obtain ⟨s', run, done⟩ := ih here
    refine ⟨s', (runFrom_of_step step).trans run, ?_⟩
    simpa using done
  | case7 c cs pair other ih =>
    obtain ⟨brace, rest, rfl⟩ := isPair_iff.mp pair
    obtain rfl : c = '}' := brace.resolve_left other
    obtain ⟨s₁, step, here⟩ := here.tagStep_right
    obtain ⟨s', run, done⟩ := ih here
    refine ⟨s', (runFrom_of_step step).trans run, ?_⟩
    simpa using done
  | case8 c cs single letter ih =>
    obtain ⟨s₁, step, here⟩ := here.tagStep_letter letter
    obtain ⟨s₂, step', here⟩ := here.wordStep
    obtain ⟨s', run, done⟩ := ih here
    refine ⟨s', ((runFrom_of_step step).trans (runFrom_of_step step')).trans run, ?_⟩
    simpa using done
  | case9 c cs single other ih =>
    obtain ⟨s₁, step, here⟩ := here.tagStep_other single other
    obtain ⟨s', run, done⟩ := ih here
    exact ⟨s', (runFrom_of_step step).trans run, done⟩

/-- Lexing a text is scanning it, and never crashes. -/
theorem run_ofText (text : String) :
    (Lexer.run (.ofText text)).body = scan (.text []) text.toList ∧
      (Lexer.run (.ofText text)).crash = none := by
  have start : At { source := .ofText text } (Place.text []).pending text.toList [] := .start text
  obtain ⟨s', run, done⟩ := start.runFrom
  rw [Place.mode] at run
  constructor
  · simp only [Lexing.body, Lexer.run, run]
    exact done
  · simp only [Lexer.run, run]

end Lexer
end Stencil
