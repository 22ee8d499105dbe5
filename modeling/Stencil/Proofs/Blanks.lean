import Stencil.Proofs.Pieces
import Stencil.Proofs.Spelling
import Stencil.Proofs.Styles

/-!
# White space inside tags

Inside a tag, white space means nothing: wherever it is inserted, except into a word, the tokens
stay the same, and so does what the text compiles to (`tokenize_insert_blanks`).

What is inserted is a row of pieces that are dropped. So the argument is one on pieces: a position
inside a tag that is not within a word is a border between two pieces (`Lexer.Cuts.border`), pieces
that are dropped may stand on it, since no piece on either side reaches across them
(`Lexer.Cuts.insert`), and a text that is cut into such pieces is scanned to their tokens
(`Lexer.Cuts.scan`).
-/

namespace Stencil
namespace Lexer

open Text Piece

variable {inTag : Bool} {c : Char} {cs ds run : List Char} {ps before after : List Piece}

/-! ## Blank characters -/

/-- What is blank belongs to no token of a tag. -/
theorem stray_of_isBlank (blank : isBlank c) : ¬isPair c cs ∧ ¬isLetter c := by
  refine ⟨not_isPair_of_class (by decide) blank, fun letter => ?_⟩
  exact not_isWordChar_of_isBlank blank (isWordChar_of_isLetter letter)

theorem isWordChar_of_continuesWord (inside : continuesWord c) : isWordChar c := by
  rw [continuesWord, Bool.or_eq_true, Bool.or_eq_true] at inside
  rcases inside with (letter | digit) | underscore
  · exact isWordChar_of_isLetter letter
  · exact isWordChar_of_isDecimalDigit digit
  · simp [isWordChar, underscore]

/-- The first character is what it was, or blank. -/
theorem head?_insert (blank : ∀ d ∈ run, isBlank d)
    (first : (cs ++ run ++ ds).head? = some c) : (cs ++ ds).head? = some c ∨ isBlank c := by
  cases cs with
  | cons d cs => exact .inl first
  | nil =>
    cases run with
    | nil => exact .inl first
    | cons d run =>
      obtain rfl : d = c := Option.some.inj first
      exact .inr (blank d List.mem_cons_self)

/-- What is blank makes no pair with a character before it. -/
theorem not_isPair_insert (blank : ∀ d ∈ run, isBlank d) (single : ¬isPair c (cs ++ ds)) :
    ¬isPair c (cs ++ run ++ ds) := by
  intro pair
  obtain ⟨brace, first⟩ := isPair_iff.mp pair
  rcases head?_insert blank (List.head?_eq_some_iff.mpr first) with first | blank
  · exact single (isPair_iff.mpr ⟨brace, List.head?_eq_some_iff.mp first⟩)
  · exact (stray_of_isBlank blank).1 pair

/-! ## Pieces that are dropped -/

namespace Piece

theorem chars_map_dropped (cs : List Char) : chars (cs.map .dropped) = cs := by
  induction cs with
  | nil => rfl
  | cons c cs ih => rw [List.map_cons, chars_dropped, ih]

theorem tokens_map_dropped (cs : List Char) : tokens (cs.map .dropped) = [] := by
  induction cs with
  | nil => rfl
  | cons c cs ih => rw [List.map_cons, tokens_dropped, ih]

end Piece

theorem Cuts.blanks (blank : ∀ c ∈ run, isBlank c) (cuts : Cuts true ps) :
    Cuts true (run.map .dropped ++ ps) := by
  induction run with
  | nil => exact cuts
  | cons c run ih =>
    obtain ⟨here, blank⟩ := List.forall_mem_cons.mp blank
    obtain ⟨single, noLetter⟩ := stray_of_isBlank here
    exact .dropped noLetter single (ih blank)

/-- Blank characters may be inserted between the pieces of a tag. -/
theorem Cuts.insert (cuts : Cuts inTag (before ++ after))
    (opened : Token.inTag inTag (tokens before) = true) (blank : ∀ c ∈ run, isBlank c) :
    Cuts inTag (before ++ (run.map .dropped ++ after)) := by
  induction before generalizing inTag with
  | nil =>
    obtain rfl : inTag = true := opened
    exact cuts.blanks blank
  | cons p before ih =>
    have behind : chars (before ++ (run.map .dropped ++ after)) =
        chars before ++ run ++ chars after := by
      rw [chars_append, chars_append, chars_map_dropped, List.append_assoc]
    rw [List.cons_append] at cuts ⊢
    cases cuts with
    | text more => exact .text (ih more opened)
    | left more => exact .left (ih more opened)
    | @word t _ isTerm ends more =>
      rw [tokens_token, ← isTerm.ofWord_value, Token.inTag_ofWord] at opened
      refine .word isTerm (fun c first inside => ?_) (ih more opened)
      rw [behind] at first
      rcases head?_insert blank first with first | blank
      · rw [← chars_append] at first
        exact ends c first inside
      · exact not_isWordChar_of_isBlank blank (isWordChar_of_continuesWord inside)
    | dropped noLetter single more =>
      refine .dropped noLetter ?_ (ih more opened)
      rw [chars_append] at single
      rw [behind]
      exact not_isPair_insert blank single
    | right more => exact .right (ih more opened)

/-! ## Scanning what is cut -/

theorem takeWhile_eq_nil_of_ends (ends : ∀ d, cs.head? = some d → ¬continuesWord d) :
    cs.takeWhile continuesWord = [] := by
  cases cs with
  | nil => rfl
  | cons c cs => exact List.takeWhile_cons_of_neg (ends c rfl)

/-- Behind plain text is a tag, or nothing. -/
theorem Cuts.behind_text {value : String} (cuts : Cuts false ps)
    (sends : Sends false (⟨.text, value⟩ :: tokens ps)) :
    Node.IsText value ∧ (chars ps ≠ [] → value.toList.getLast? ≠ some '{') ∧
      Opens (chars ps) ∧ Sends false (tokens ps) := by
  cases cuts with
  | done =>
    cases sends with
    | lastText isText => exact ⟨isText, absurd rfl, .inl rfl, .done⟩
  | text => cases sends
  | left =>
    cases sends with
    | text isText seam more => exact ⟨isText, fun _ => seam, .inr ⟨_, rfl⟩, .left more⟩

/-- A text that is cut into pieces whose tokens can be sent is scanned to these. -/
theorem Cuts.scan (cuts : Cuts inTag ps) (sends : Sends inTag (tokens ps)) :
    scan (.start inTag) (chars ps) = tokens ps := by
  have leftMark : Token.left.value.toList = ['{', '{'] := by decide
  have rightMark : Token.right.value.toList = ['}', '}'] := by decide
  induction cuts with
  | @done inTag =>
    cases inTag with
    | false => simp [Place.start, Lexer.scan, flushed]
    | true => simp [Place.start, Lexer.scan]
  | @text value ps cuts ih =>
    obtain ⟨isText, seam, opens, more⟩ := cuts.behind_text sends
    have here : Lexer.scan (.text []) (chars ps) = tokens ps := ih more
    rw [chars_token, tokens_token, Place.start, Node.scan_isText isText seam opens, here]
  | @left ps _ ih =>
    have here : Lexer.scan .tag (chars ps) = tokens ps := ih sends.of_left
    rw [chars_token, leftMark, tokens_token, ← here, Place.start]
    exact scan_left
  | @word t ps isTerm ends _ ih =>
    have here : Lexer.scan .tag (chars ps) = tokens ps := ih (sends.of_term isTerm.inner).2
    rw [chars_token, tokens_token, ← here, Place.start,
      scan_word isTerm.isWord (takeWhile_eq_nil_of_ends ends), isTerm.ofWord_value]
  | @dropped c ps noLetter single _ ih =>
    have here : Lexer.scan .tag (chars ps) = tokens ps := ih sends
    rw [chars_dropped, tokens_dropped, ← here, Place.start, scan_skip single noLetter]
  | @right ps _ ih =>
    have here : Lexer.scan (.text []) (chars ps) = tokens ps := ih sends.of_right
    rw [chars_token, rightMark, tokens_token, ← here, Place.start]
    exact scan_right

/-! ## Positions -/

/-- The pieces that a text is cut into. -/
def PiecesOf (text : String) (ps : List Piece) : Prop :=
  Cuts false ps ∧ tokens ps = (Lexer.run (.ofText text)).body ∧ chars ps = text.toList

/-- The position behind `k` characters is inside a tag: it is behind an opening delimiter, and in
front of the closing one, if there is one. -/
def InsideTag (ps : List Piece) (k : Nat) : Prop :=
  ∃ before inner after, ps = before ++ .token .left :: (inner ++ after) ∧ .token .right ∉ inner ∧
    (chars before).length + 2 ≤ k ∧ k ≤ (chars before).length + 2 + (chars inner).length

/-- The position behind `k` characters is between two characters of a word. -/
def WithinWord (ps : List Piece) (k : Nat) : Prop :=
  ∃ before t after, ps = before ++ .token t :: after ∧ t.IsTerm ∧
    (chars before).length < k ∧ k < (chars before).length + t.value.toList.length

/-- The position behind `k` characters is between two pieces, and inside a tag. -/
def Border (inTag : Bool) (ps : List Piece) (k : Nat) : Prop :=
  ∃ front back, ps = front ++ back ∧ (chars front).length = k ∧
    Token.inTag inTag (tokens front) = true

variable {inner : List Piece} {k : Nat}

/-! Where a position is does not depend on the pieces around it. -/

theorem Border.behind (before : List Piece)
    (border : Border (Token.inTag inTag (tokens before)) ps k) :
    Border inTag (before ++ ps) ((chars before).length + k) := by
  obtain ⟨front, back, rfl, here, opened⟩ := border
  refine ⟨before ++ front, back, (List.append_assoc before front back).symm, ?_, ?_⟩
  · rw [chars_append, List.length_append, here]
  · rw [tokens_append, Token.inTag_append, opened]

theorem Border.append (border : Border inTag ps k) (after : List Piece) :
    Border inTag (ps ++ after) k := by
  obtain ⟨front, back, rfl, here, opened⟩ := border
  exact ⟨front, back ++ after, List.append_assoc front back after, here, opened⟩

theorem WithinWord.behind (before : List Piece) (within : WithinWord ps k) :
    WithinWord (before ++ ps) ((chars before).length + k) := by
  obtain ⟨front, t, back, rfl, isTerm, low, high⟩ := within
  refine ⟨before ++ front, t, back, (List.append_assoc before front _).symm, isTerm, ?_, ?_⟩
  · rw [chars_append, List.length_append]
    exact Nat.add_lt_add_left low _
  · rw [chars_append, List.length_append, Nat.add_assoc]
    exact Nat.add_lt_add_left high _

theorem WithinWord.append (within : WithinWord ps k) (after : List Piece) :
    WithinWord (ps ++ after) k := by
  obtain ⟨front, t, back, rfl, isTerm, low, high⟩ := within
  exact ⟨front, t, back ++ after, List.append_assoc front _ after, isTerm, low, high⟩

/-- A border between pieces is within no word. -/
theorem not_withinWord (front back : List Piece) :
    ¬WithinWord (front ++ back) (chars front).length := by
  rintro ⟨before, t, after, whole, -, low, high⟩
  rcases List.append_eq_append_iff.mp whole with ⟨more, rfl, -⟩ | ⟨more, rfl, rest⟩
  · rw [chars_append, List.length_append] at low
    omega
  · cases more with
    | nil =>
      rw [List.append_nil] at low
      exact Nat.lt_irrefl _ low
    | cons p more =>
      obtain ⟨rfl, -⟩ := List.cons.inj rest
      rw [chars_append, chars_token, List.length_append, List.length_append] at high
      omega

/-- What comes before a closing delimiter is made of words and single characters, so that a
position there is a border or within a word. -/
theorem Cuts.border_or_within (cuts : Cuts true (inner ++ after)) (noRight : .token .right ∉ inner)
    (inside : k ≤ (chars inner).length) : Border true inner k ∨ WithinWord inner k := by
  induction inner generalizing k with
  | nil => exact .inl ⟨[], [], rfl, (Nat.le_zero.mp inside).symm, rfl⟩
  | cons p inner ih =>
    by_cases start : k = 0
    · exact .inl ⟨[], p :: inner, rfl, start.symm, rfl⟩
    rw [List.mem_cons, not_or] at noRight
    obtain ⟨other, noRight⟩ := noRight
    rw [List.cons_append] at cuts
    cases cuts with
    | right => exact absurd rfl other
    | @dropped c _ _ _ more =>
      obtain ⟨k, rfl⟩ := Nat.exists_eq_add_of_le (Nat.pos_of_ne_zero start)
      rw [chars_dropped, List.length_cons] at inside
      rcases ih more noRight (k := k) (by omega) with border | within
      · exact .inl (border.behind [.dropped c])
      · exact .inr (within.behind [.dropped c])
    | @word t _ isTerm _ more =>
      by_cases early : k < t.value.toList.length
      · refine .inr ⟨[], t, inner, rfl, isTerm, Nat.pos_of_ne_zero start, ?_⟩
        rw [chars_nil, List.length_nil, Nat.zero_add]
        exact early
      obtain ⟨k, rfl⟩ := Nat.exists_eq_add_of_le (Nat.not_lt.mp early)
      rw [chars_token, List.length_append] at inside
      have length : (chars [.token t]).length = t.value.toList.length := by
        rw [chars_token, chars_nil, List.append_nil]
      rw [← length]
      rcases ih more noRight (k := k) (by omega) with border | within
      · refine .inl (Border.behind [.token t] ?_)
        rw [tokens_token, ← isTerm.ofWord_value, Token.inTag_ofWord]
        exact border
      · exact .inr (within.behind [.token t])

/-- A position inside a tag is a border between pieces, unless it is within a word. -/
theorem Cuts.border (cuts : Cuts false ps) (inside : InsideTag ps k) (apart : ¬WithinWord ps k) :
    Border false ps k := by
  obtain ⟨before, inner, after, rfl, noRight, low, high⟩ := inside
  have opened : Token.inTag false (tokens (before ++ [.token .left])) = true := by
    rw [tokens_append, tokens_token, Token.inTag_append, Token.inTag_left]
    rfl
  have length : (chars (before ++ [.token .left])).length = (chars before).length + 2 := by
    rw [chars_append, List.length_append]
    rfl
  have whole : before ++ .token .left :: (inner ++ after) =
      before ++ [.token .left] ++ (inner ++ after) := by
    rw [List.append_assoc, List.singleton_append]
  obtain ⟨k, rfl⟩ := Nat.exists_eq_add_of_le low
  rw [whole, ← length] at apart ⊢
  rcases cuts.drop.of_left.border_or_within noRight (k := k) (by omega) with border | within
  · refine Border.behind _ ?_
    rw [opened]
    exact border.append after
  · exact absurd ((within.append after).behind _) apart

/-- Texts with the same tokens compile to the same. -/
theorem compile_congr {text text' : String}
    (same : Lexer.scan (.text []) text.toList = Lexer.scan (.text []) text'.toList) :
    compile (.ofText text) = compile (.ofText text') := by
  obtain ⟨body, crash⟩ := run_ofText text
  obtain ⟨body', crash'⟩ := run_ofText text'
  have tokens : (Lexer.run (.ofText text)).tokens = (Lexer.run (.ofText text')).tokens := by
    rw [Lexing.tokens_eq, Lexing.tokens_eq, body, body', same]
  simp only [compile, Compilation.result, Compilation.ofSource, Compilation.ofLexing,
    Compilation.lexerFailure, crash, crash', tokens]

end Lexer

open Lexer Text

/-- White space between the parts of a tag means nothing. A text that is lexed without an error is
cut into pieces, and wherever it is in a tag but not within a word, white space may be inserted: the
tokens are the same, and so is the tree that the text compiles to, or the failure. -/
theorem tokenize_insert_blanks (text : String)
    (clean : ∀ t ∈ (Lexer.run (.ofText text)).body, t.kind ≠ .error) :
    (∃ ps, PiecesOf text ps) ∧
      ∀ (ps : List Piece) (front back blanks : String), PiecesOf text ps → front ++ back = text →
        InsideTag ps front.length → ¬WithinWord ps front.length →
        (∀ c ∈ blanks.toList, isBlank c) →
        tokenize (.ofText (front ++ blanks ++ back)) = tokenize (.ofText text) ∧
          compile (.ofText (front ++ blanks ++ back)) = compile (.ofText text) := by
  rw [(run_ofText text).1] at clean
  constructor
  · obtain ⟨ps, cuts, sent, whole⟩ := exists_cuts (.text []) clean
    exact ⟨ps, cuts, sent.trans (run_ofText text).1.symm, whole⟩
  · intro ps front back blanks pieces parts inside apart blank
    obtain ⟨cuts, sent, whole⟩ := pieces
    obtain ⟨before, after, rfl, here, opened⟩ := cuts.border inside apart
    rw [(run_ofText text).1] at sent
    rw [← parts, String.toList_append, Piece.chars_append] at whole
    obtain ⟨front', back'⟩ := List.append_inj whole (by rw [here, String.length_toList])
    have sends : Sends false (scan (.text []) text.toList) := sends_scan Place.apart_text_nil clean
    have sent' : Piece.tokens (before ++ (blanks.toList.map .dropped ++ after)) =
        scan (.text []) text.toList := by
      rw [← sent, Piece.tokens_append, Piece.tokens_append, Piece.tokens_append,
        Piece.tokens_map_dropped, List.nil_append]
    have whole' : Piece.chars (before ++ (blanks.toList.map .dropped ++ after)) =
        (front ++ blanks ++ back).toList := by
      rw [Piece.chars_append, Piece.chars_append, Piece.chars_map_dropped, front', back',
        String.toList_append, String.toList_append, List.append_assoc]
    have same : scan (.text []) (front ++ blanks ++ back).toList =
        scan (.text []) text.toList := by
      rw [← whole', ← sent']
      exact (cuts.insert opened blank).scan (sent'.symm ▸ sends)
    refine ⟨?_, compile_congr same⟩
    rw [tokenize_ofText, tokenize_ofText, same]

/-- Between the end of a word and a brace that is dropped, in a tag that is not closed. -/
theorem tokenize_insert_blanks_brace :
    ∃ ps, PiecesOf "x\x7b\x7bif a1\x7b" ps ∧ InsideTag ps "x\x7b\x7bif a1".length ∧
      ¬WithinWord ps "x\x7b\x7bif a1".length ∧
      tokenize (.ofText ("x\x7b\x7bif a1" ++ "\t\u2003\n" ++ "\x7b")) =
        tokenize (.ofText "x\x7b\x7bif a1\x7b") := by
  have name : Token.IsTerm (.ofWord "a1") :=
    Token.isTerm_ofWord (isWord_of_all 'a' ['1'] rfl (by decide) (by decide))
  have cuts : Cuts false [.token ⟨.text, "x"⟩, .token .left, .token .ifMark, .dropped ' ',
      .token (.ofWord "a1"), .dropped '{'] := by
    refine .text (.left (.word (.inr (.inl rfl)) ?_ (.dropped (by decide) (by decide)
      (.word name ?_ (.dropped (by decide) (by decide) .done)))))
    · rintro c ⟨⟩
      decide
    · rintro c ⟨⟩
      decide
  have pieces : PiecesOf "x\x7b\x7bif a1\x7b" _ := ⟨cuts, by decide +kernel, by decide⟩
  have inside : InsideTag _ "x\x7b\x7bif a1".length :=
    ⟨[.token ⟨.text, "x"⟩], [.token .ifMark, .dropped ' ', .token (.ofWord "a1")], [.dropped '{'],
      rfl, by decide, by decide, by decide⟩
  have apart := not_withinWord [.token ⟨.text, "x"⟩, .token .left, .token .ifMark, .dropped ' ',
    .token (.ofWord "a1")] [.dropped '{']
  have blank : "\t\u2003\n".toList.all isBlank := by decide +kernel
  obtain ⟨same, -⟩ := (tokenize_insert_blanks "x\x7b\x7bif a1\x7b" (by decide +kernel)).2 _
    "x\x7b\x7bif a1" "\x7b" "\t\u2003\n" pieces (by decide +kernel) inside apart
    (List.all_eq_true.mp blank)
  exact ⟨_, pieces, inside, apart, same⟩

end Stencil
