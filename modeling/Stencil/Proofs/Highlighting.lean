import Stencil.Proofs.Blanks

/-!
# Highlighting and lexing agree

Pieces of a highlighted text, read as the pieces that a lexer cuts (`Highlight.asCut`): what is
colored as text or punctuation is a token, so is what is colored as a keyword or a name, and what
is blank or an error is dropped. A text that is lexed without an error is cut in the same way by
both outside tags and at their delimiters. Inside tags they differ in what a word is: to the lexer
it starts with a letter, and a digit in it is a decimal digit. Where the words of the highlighter
are of that kind, both cut all of the text in the same way (`Highlight.pieces_agree`).

`Highlight.Agrees` says so of a place in the text, and has one lemma for each way to go on there.
The words of tags are no tokens of the frame, which is the same whatever they are cut into
(`Highlight.frame_scan_skip`).
-/

namespace Stencil

/-- The kinds of plain text and of the delimiters of tags. -/
def TokenKind.isFrame : TokenKind → Bool
  | text | leftMeta | rightMeta => true
  | _ => false

namespace Highlight

open Text Lexer Lexer.Piece

/-! ## Pieces as a lexer cuts them -/

/-- Text in front of pieces. Neighbouring texts are one. -/
def textOnto : List Char → List Lexer.Piece → List Lexer.Piece
  | [], qs => qs
  | cs, .token ⟨.text, value⟩ :: qs => .token ⟨.text, String.ofList cs ++ value⟩ :: qs
  | cs, qs => .token ⟨.text, String.ofList cs⟩ :: qs

/-- A piece in front of others, as a lexer cuts it. -/
def Piece.onto (p : Piece) (qs : List Lexer.Piece) : List Lexer.Piece :=
  match p.style with
  | .text => textOnto p.text qs
  | .punctuation =>
    .token ⟨if p.text = ['{', '{'] then .leftMeta else .rightMeta, String.ofList p.text⟩ :: qs
  | .keyword | .name => .token (.ofWord (String.ofList p.text)) :: qs
  | .blank | .error => p.text.map .dropped ++ qs

/-- Highlighted pieces as a lexer cuts them. -/
def asCut (ps : List Piece) : List Lexer.Piece :=
  ps.foldr Piece.onto []

variable {pending run cs : List Char} {qs : List Lexer.Piece}

theorem textOnto_append (cs ds : List Char) (qs : List Lexer.Piece) :
    textOnto cs (textOnto ds qs) = textOnto (cs ++ ds) qs := by
  cases cs with
  | nil => rfl
  | cons c cs =>
    cases ds with
    | nil => rw [List.append_nil, textOnto]
    | cons d ds =>
      rw [List.cons_append, textOnto.eq_def (d :: ds), textOnto.eq_def (c :: (cs ++ d :: ds))]
      split
      · contradiction
      · simp [textOnto, String.append_assoc]
      · simp [textOnto, String.append_assoc]

theorem chars_textOnto (cs : List Char) (qs : List Lexer.Piece) :
    chars (textOnto cs qs) = cs ++ chars qs := by
  unfold textOnto
  split <;> simp

theorem cuts_textOnto (cs : List Char) (cuts : Cuts false qs) : Cuts false (textOnto cs qs) := by
  unfold textOnto
  split
  · exact cuts
  · cases cuts with
    | text more => exact .text more
  · exact .text cuts

theorem tokens_textOnto_nil (pending : List Char) :
    tokens (textOnto pending.reverse []) = flushed pending := by
  unfold textOnto flushed
  split <;> simp_all

theorem tokens_textOnto_left (pending : List Char) (qs : List Lexer.Piece) :
    tokens (textOnto pending.reverse (.token .left :: qs)) =
      flushed pending ++ .left :: tokens qs := by
  unfold textOnto flushed
  split <;> simp_all [Token.left]

theorem onto_word (index : Nat) (before : Option Char) (run : List Char)
    (qs : List Lexer.Piece) :
    Piece.onto ⟨index, wordStyle before run, run⟩ qs =
      .token (.ofWord (String.ofList run)) :: qs := by
  rw [wordStyle]
  split <;> rfl

/-! ## Characters of tags -/

theorem not_isPair_of_isWordChar {c : Char} (inside : isWordChar c) : ¬isPair c cs :=
  not_isPair_of_class (by decide) inside

/-- What is in no word of the highlighter is in none of the lexer. -/
theorem not_continuesWord_of_ends {c : Char} (ends : cs.takeWhile isWordChar = [])
    (first : cs.head? = some c) : ¬continuesWord c := by
  intro more
  obtain ⟨cs, rfl⟩ := List.head?_eq_some_iff.mp first
  rw [List.takeWhile_cons_of_pos (isWordChar_of_continuesWord more)] at ends
  cases ends

/-- Where all words are words to the lexer, a word starts with a letter. -/
theorem not_isWordChar_of_plain {c : Char} (noLetter : ¬isLetter c)
    (plain : ∀ word ∈ wordsInTags true (c :: cs), IsWord word) : ¬isWordChar c := by
  intro inside
  rw [wordsInTags_head inside] at plain
  obtain ⟨d, ds, chars, letter, -⟩ := plain _ List.mem_cons_self
  rw [String.toList_ofList] at chars
  cases chars
  exact noLetter letter

/-- No error starts a word of the lexer. -/
theorem not_isLetter_of_error {c : Char} (noWord : isWordChar c → isDecimalDigit c) :
    ¬isLetter c := by
  intro letter
  exact not_isDecimalDigit_of_isLetter letter (noWord (isWordChar_of_isLetter letter))

/-! ## The frame of a text -/

/-- Tokens that are no words of tags: plain text and delimiters, and errors if there are any. -/
def frame (ts : List Token) : List Token :=
  ts.filter fun t => !t.kind.isWord

theorem isWord_kind_ofWord (word : String) : (Token.ofWord word).kind.isWord = true := by
  rcases Token.ofWord_cases word with ⟨-, same⟩ | ⟨-, same⟩ | ⟨-, same⟩ | ⟨-, same⟩ <;>
    rw [same] <;> rfl

theorem frame_word (word : String) (ts : List Token) : frame (.ofWord word :: ts) = frame ts :=
  List.filter_cons_of_neg (by rw [isWord_kind_ofWord]; decide)

theorem frame_append (ts us : List Token) : frame (ts ++ us) = frame ts ++ frame us :=
  List.filter_append ts us

theorem frame_cons {t : Token} (other : t.kind.isWord = false) (ts : List Token) :
    frame (t :: ts) = t :: frame ts :=
  List.filter_cons_of_pos (by rw [other]; rfl)

/-- An error is part of the frame. -/
theorem clean_of_frame {ts us : List Token} (same : frame ts = frame us)
    (clean : ∀ t ∈ ts, t.kind ≠ .error) : ∀ t ∈ us, t.kind ≠ .error := by
  intro t member error
  have inFrame : t ∈ frame us := List.mem_filter.mpr ⟨member, by rw [error]; rfl⟩
  rw [← same] at inFrame
  exact clean t (List.mem_filter.mp inFrame).1 error

theorem frame_scan_cons {c : Char} (single : ¬isPair c cs)
    (behind : frame (scan .tag (cs.dropWhile continuesWord)) = frame (scan .tag cs)) :
    frame (scan .tag (c :: cs)) = frame (scan .tag cs) := by
  by_cases letter : isLetter c
  · rw [scan_letter letter, frame_word, behind]
  · rw [scan_skip single letter]

theorem frame_scan_dropWhile (cs : List Char) :
    frame (scan .tag (cs.dropWhile continuesWord)) = frame (scan .tag cs) := by
  induction cs with
  | nil => rfl
  | cons c cs ih =>
    by_cases more : continuesWord c
    · rw [List.dropWhile_cons_of_pos more, ih,
        frame_scan_cons (not_isPair_of_continuesWord more) ih]
    · rw [List.dropWhile_cons_of_neg more]

/-- Inside a tag a character makes no difference to the frame, unless it is the first of two
braces. -/
theorem frame_scan_skip {c : Char} (single : ¬isPair c cs) :
    frame (scan .tag (c :: cs)) = frame (scan .tag cs) :=
  frame_scan_cons single (frame_scan_dropWhile cs)

theorem frame_scan_word (inside : ∀ c ∈ run, isWordChar c) :
    frame (scan .tag (run ++ cs)) = frame (scan .tag cs) := by
  induction run with
  | nil => rfl
  | cons c run ih =>
    obtain ⟨here, inside⟩ := List.forall_mem_cons.mp inside
    rw [List.cons_append, frame_scan_skip (not_isPair_of_isWordChar here), ih inside]

/-! ## What is scanned without an error -/

theorem scan_blank (blank : ∀ c ∈ run, isBlank c) :
    scan .tag (run ++ cs) = scan .tag cs := by
  induction run with
  | nil => rfl
  | cons c run ih =>
    obtain ⟨here, blank⟩ := List.forall_mem_cons.mp blank
    obtain ⟨alone, noLetter⟩ := stray_of_isBlank here
    rw [List.cons_append, scan_skip alone noLetter, ih blank]

/-- In text without an error a closing brace is not followed by another. -/
theorem not_isPair_of_clean_text {c : Char} (other : c ≠ '{')
    (clean : ∀ t ∈ scan (.text pending) (c :: cs), t.kind ≠ .error) : ¬isPair c cs := by
  intro pair
  rw [scan, if_pos pair, if_neg other] at clean
  exact clean strayRight List.mem_cons_self rfl

/-- In a tag without an error an opening brace is not followed by another. -/
theorem not_isPair_of_clean_tag {c : Char} (single : ¬['}', '}'] <+: c :: cs)
    (clean : ∀ t ∈ scan .tag (c :: cs), t.kind ≠ .error) : ¬isPair c cs := by
  intro pair
  obtain ⟨rfl | rfl, rest, rfl⟩ := isPair_iff.mp pair
  · rw [scan, if_pos pair, if_pos rfl] at clean
    exact clean strayLeft List.mem_cons_self rfl
  · exact single ⟨rest, rfl⟩

/-- Text without an error and without an opening brace becomes pending. -/
theorem scan_run (plain : ∀ c ∈ run, c ≠ '{')
    (clean : ∀ t ∈ scan (.text pending) (run ++ cs), t.kind ≠ .error) :
    scan (.text pending) (run ++ cs) = scan (.text (run.reverse ++ pending)) cs := by
  induction run generalizing pending with
  | nil => rfl
  | cons c run ih =>
    obtain ⟨here, plain⟩ := List.forall_mem_cons.mp plain
    rw [List.cons_append] at clean ⊢
    have single := not_isPair_of_clean_text here clean
    rw [scan_single single] at clean ⊢
    rw [ih plain clean, List.reverse_cons, List.append_assoc, List.singleton_append]

/-! ## Agreement at a place -/

/-- The pieces `qs` are those that a lexer cuts from a place on, as far as its frame goes; and all
of them are if the words ahead are words to it. -/
structure Agrees (place : Place) (cs : List Char) (qs : List Lexer.Piece) : Prop where
  whole : chars qs = place.pending.reverse ++ cs
  frame : frame (tokens qs) = frame (scan place cs)
  words : (∀ word ∈ wordsInTags place.inTag cs, IsWord word) →
    tokens qs = scan place cs ∧ Cuts place.inTag qs

theorem Agrees.done (place : Place) : Agrees place [] (textOnto place.pending.reverse []) := by
  have whole : chars (textOnto place.pending.reverse []) = place.pending.reverse ++ [] :=
    chars_textOnto _ _
  have sent : tokens (textOnto place.pending.reverse []) = scan place [] := by
    rw [tokens_textOnto_nil]
    cases place <;> rw [scan] <;> rfl
  refine ⟨whole, by rw [sent], fun _ => ⟨sent, ?_⟩⟩
  cases place with
  | text pending => exact cuts_textOnto _ .done
  | tag => exact .done

/-- The pieces agree over an opening delimiter, if they do behind it. -/
theorem Agrees.left (more : Agrees .tag cs qs) (pending : List Char) :
    Agrees (.text pending) ('{' :: '{' :: cs)
      (textOnto pending.reverse (.token .left :: qs)) where
  whole := by
    rw [chars_textOnto, chars_token, more.whole]
    rfl
  frame := by
    rw [tokens_textOnto_left, scan_left, frame_append, frame_append, frame_cons rfl,
      frame_cons rfl, more.frame]
  words plain := by
    rw [Place.inTag, wordsInTags_left] at plain
    obtain ⟨sent, cuts⟩ := more.words plain
    exact ⟨by rw [tokens_textOnto_left, scan_left, sent], cuts_textOnto _ (.left cuts)⟩

/-- The pieces agree over a closing delimiter, if they do behind it. -/
theorem Agrees.right (more : Agrees (.text []) cs qs) :
    Agrees .tag ('}' :: '}' :: cs) (.token .right :: qs) where
  whole := by
    rw [chars_token, more.whole]
    rfl
  frame := by rw [tokens_token, scan_right, frame_cons rfl, frame_cons rfl, more.frame]
  words plain := by
    rw [Place.inTag, wordsInTags_right] at plain
    obtain ⟨sent, cuts⟩ := more.words plain
    exact ⟨by rw [tokens_token, scan_right, sent], .right cuts⟩

/-- Text becomes pending, and is sent with what was pending before it. -/
theorem Agrees.text (run : List Char)
    (scanned : scan (.text pending) (run ++ cs) = scan (.text (run.reverse ++ pending)) cs)
    (same : wordsInTags false (run ++ cs) = wordsInTags false cs)
    (more : Agrees (.text (run.reverse ++ pending)) cs
      (textOnto (run.reverse ++ pending).reverse qs)) :
    Agrees (.text pending) (run ++ cs) (textOnto pending.reverse (textOnto run qs)) := by
  have joined : textOnto pending.reverse (textOnto run qs) =
      textOnto (run.reverse ++ pending).reverse qs := by
    rw [textOnto_append, List.reverse_append, List.reverse_reverse]
  rw [joined]
  refine ⟨?_, by rw [scanned, more.frame], fun plain => ?_⟩
  · rw [more.whole]
    simp [Place.pending]
  · rw [Place.inTag, same] at plain
    rw [scanned]
    exact more.words plain

/-- What is no word is dropped. -/
theorem Agrees.drop {c : Char} (single : ¬isPair c cs) (noLetter : ¬isLetter c)
    (more : Agrees .tag cs qs) : Agrees .tag (c :: cs) (.dropped c :: qs) where
  whole := by
    rw [chars_dropped, more.whole]
    rfl
  frame := by rw [tokens_dropped, scan_skip single noLetter, more.frame]
  words plain := by
    rw [Place.inTag] at plain
    have other := not_isWordChar_of_plain noLetter plain
    rw [wordsInTags_skip (fun pair => ?_) other] at plain
    · obtain ⟨sent, cuts⟩ := more.words plain
      refine ⟨by rw [tokens_dropped, scan_skip single noLetter, sent], .dropped noLetter ?_ cuts⟩
      rw [more.whole]
      exact single
    · obtain ⟨rfl, rest⟩ := exists_of_pair pair
      exact single (isPair_iff.mpr ⟨.inr rfl, rest⟩)

theorem Agrees.blank (blank : ∀ c ∈ run, isBlank c) (more : Agrees .tag cs qs) :
    Agrees .tag (run ++ cs) (run.map .dropped ++ qs) := by
  induction run with
  | nil => exact more
  | cons c run ih =>
    obtain ⟨here, blank⟩ := List.forall_mem_cons.mp blank
    obtain ⟨alone, noLetter⟩ := stray_of_isBlank here
    exact .drop alone noLetter (ih blank)

/-- A word is one token if it is a word to the lexer, and none of the frame in any case. -/
theorem Agrees.word (filled : run ≠ []) (inside : ∀ c ∈ run, isWordChar c)
    (ends : cs.takeWhile isWordChar = []) (more : Agrees .tag cs qs) :
    Agrees .tag (run ++ cs) (.token (.ofWord (String.ofList run)) :: qs) where
  whole := by
    rw [chars_token, Token.value_ofWord, String.toList_ofList, more.whole]
    rfl
  frame := by rw [tokens_token, frame_word, frame_scan_word inside, more.frame]
  words plain := by
    rw [Place.inTag, wordsInTags_word filled inside ends] at plain
    obtain ⟨isWord, plain⟩ := List.forall_mem_cons.mp plain
    obtain ⟨sent, cuts⟩ := more.words plain
    have stops : ∀ c, cs.head? = some c → ¬continuesWord c := fun c first =>
      not_continuesWord_of_ends ends first
    have scanned := scan_word isWord (takeWhile_eq_nil_of_ends stops)
    rw [String.toList_ofList] at scanned
    refine ⟨by rw [tokens_token, sent, scanned], .word (Token.isTerm_ofWord isWord) ?_ cuts⟩
    rw [more.whole]
    exact stops

/-- Inside a tag, and not outside. -/
def Region.inTag : Region → Bool
  | outside => false
  | tag => true

theorem exists_text {place : Place} (here : place.inTag = Region.outside.inTag) :
    ∃ pending, place = .text pending := by
  cases place with
  | text pending => exact ⟨pending, rfl⟩
  | tag => cases here

theorem eq_tag {place : Place} (here : place.inTag = Region.tag.inTag) : place = .tag := by
  cases place with
  | text pending => cases here
  | tag => rfl

/-- The pieces of a text without an error are those of the lexer. -/
theorem Covers.agrees {region : Region} {before : Option Char} {ps : List Piece}
    (covers : Covers region before cs ps) (place : Place) (here : place.inTag = region.inTag)
    (clean : ∀ t ∈ scan place cs, t.kind ≠ .error) :
    Agrees place cs (textOnto place.pending.reverse (asCut ps)) := by
  induction covers generalizing place with
  | done => exact .done place
  | opening _ ih =>
    obtain ⟨pending, rfl⟩ := exists_text here
    rw [scan_left] at clean
    exact .left (ih .tag rfl fun t member => clean t (by simp [member])) pending
  | text _ plain _ ih =>
    obtain ⟨pending, rfl⟩ := exists_text here
    have scanned := scan_run plain clean
    rw [scanned] at clean
    exact .text _ scanned (wordsInTags_text plain) (ih _ rfl clean)
  | @brace _ _ cs _ single _ ih =>
    obtain ⟨pending, rfl⟩ := exists_text here
    have alone : ¬isPair '{' cs := by
      intro pair
      obtain ⟨-, rest, rfl⟩ := isPair_iff.mp pair
      exact single ⟨rest, rfl⟩
    have scanned : scan (.text pending) ('{' :: cs) = scan (.text ('{' :: pending)) cs :=
      scan_single alone
    rw [scanned] at clean
    exact .text ['{'] scanned (wordsInTags_outside single) (ih (.text ('{' :: pending)) rfl clean)
  | closing _ ih =>
    obtain rfl := eq_tag here
    rw [scan_right] at clean
    exact .right (ih (.text []) rfl fun t member => clean t (List.mem_cons_of_mem _ member))
  | blank _ blank _ ih =>
    obtain rfl := eq_tag here
    rw [scan_blank blank] at clean
    exact .blank blank (ih .tag rfl clean)
  | word filled inside ends _ ih =>
    obtain rfl := eq_tag here
    -- The lexer may see no word here, or several, but it sees the same errors behind it.
    have behind := ih .tag rfl (clean_of_frame (frame_scan_word inside) clean)
    rw [asCut, List.foldr_cons, onto_word]
    exact .word filled inside ends behind
  | error single noBlank noWord _ ih =>
    obtain rfl := eq_tag here
    have alone := not_isPair_of_clean_tag single clean
    have noLetter := not_isLetter_of_error noWord
    rw [scan_skip alone noLetter] at clean
    exact .drop alone noLetter (ih .tag rfl clean)

/-! ## Words and errors -/

/-- Colored as a word. -/
def Style.isWord : Style → Bool
  | keyword | name => true
  | _ => false

theorem isWord_wordStyle (before : Option Char) (run : List Char) :
    (wordStyle before run).isWord = true := by
  rw [wordStyle]
  split <;> rfl

theorem words_textOnto (cs : List Char) (qs : List Lexer.Piece) :
    (tokens (textOnto cs qs)).filter (·.kind.isWord) = (tokens qs).filter (·.kind.isWord) := by
  unfold textOnto
  split <;> simp [TokenKind.isWord]

theorem tokens_blank (cs : List Char) (qs : List Lexer.Piece) :
    tokens (cs.map .dropped ++ qs) = tokens qs := by
  induction cs with
  | nil => rfl
  | cons c cs ih => exact ih

/-- The words that a lexer cuts are the pieces colored as words. -/
theorem words_asCut (ps : List Piece) :
    (tokens (asCut ps)).filter (·.kind.isWord) =
      (ps.filter (·.style.isWord)).map fun p => .ofWord (String.ofList p.text) := by
  induction ps with
  | nil => rfl
  | cons p ps ih =>
    rcases p with ⟨index, style, run⟩
    have onto : asCut (⟨index, style, run⟩ :: ps) = Piece.onto ⟨index, style, run⟩ (asCut ps) := rfl
    rw [onto, Piece.onto]
    cases style with
    | text => rw [words_textOnto, ih, List.filter_cons_of_neg Bool.false_ne_true]
    | punctuation =>
      rw [List.filter_cons_of_neg Bool.false_ne_true, ← ih]
      refine List.filter_cons_of_neg ?_
      split <;> exact Bool.false_ne_true
    | blank | error => rw [tokens_blank, ih, List.filter_cons_of_neg Bool.false_ne_true]
    | keyword | name =>
      rw [List.filter_cons_of_pos rfl, List.map_cons, ← ih]
      exact List.filter_cons_of_pos (isWord_kind_ofWord _)

theorem forall_words_cons {p : Piece} {ps : List Piece} {holds : Piece → Prop}
    (other : p.style.isWord = false) (more : ∀ q ∈ ps, q.style.isWord → holds q) :
    ∀ q ∈ p :: ps, q.style.isWord → holds q := by
  intro q member word
  rcases List.mem_cons.mp member with rfl | member
  · rw [other] at word
    cases word
  · exact more q member word

/-- A piece that is colored as a word is a keyword exactly if it is one of the keywords: no word
comes directly behind another. -/
theorem Covers.style_eq {region : Region} {before : Option Char} {ps : List Piece}
    (covers : Covers region before cs ps)
    (apart : region.inTag → before.any isWordChar → cs.takeWhile isWordChar = [])
    (plain : ∀ word ∈ wordsInTags region.inTag cs, IsWord word) :
    ∀ p ∈ ps, p.style.isWord → p.style = wordStyle none p.text := by
  have marks : ¬isWordChar '{' ∧ ¬isWordChar '}' := by decide
  have outside : ¬Region.outside.inTag := Bool.false_ne_true
  induction covers with
  | done => exact List.forall_mem_nil _
  | opening _ ih =>
    rw [Region.inTag, wordsInTags_left] at plain
    exact forall_words_cons rfl (ih (fun _ inside => absurd inside marks.1) plain)
  | text _ noBrace _ ih =>
    rw [Region.inTag, wordsInTags_text noBrace] at plain
    exact forall_words_cons rfl (ih (fun tag => absurd tag outside) plain)
  | brace single _ ih =>
    rw [Region.inTag, wordsInTags_outside single] at plain
    exact forall_words_cons rfl (ih (fun tag => absurd tag outside) plain)
  | closing _ ih =>
    rw [Region.inTag, wordsInTags_right] at plain
    exact forall_words_cons rfl (ih (fun tag => absurd tag outside) plain)
  | @blank _ _ run _ _ _ blank _ ih =>
    rw [Region.inTag, wordsInTags_blank blank] at plain
    refine forall_words_cons rfl (ih (fun _ inside => ?_) plain)
    obtain ⟨c, last, word⟩ := (Option.any_eq_true _ _).mp inside
    exact absurd word (not_isWordChar_of_isBlank (blank c (List.mem_of_getLast? last)))
  | @word before _ run _ _ filled inside ends _ ih =>
    rw [Region.inTag, wordsInTags_word filled inside ends] at plain
    obtain ⟨-, plain⟩ := List.forall_mem_cons.mp plain
    refine List.forall_mem_cons.mpr ⟨fun _ => ?_, ih (fun _ _ => ends) plain⟩
    have alone : before.any isWordChar = false := by
      refine Bool.eq_false_iff.mpr fun joined => ?_
      obtain ⟨c, run, rfl⟩ := List.exists_cons_of_ne_nil filled
      have none := apart rfl joined
      rw [List.cons_append, List.takeWhile_cons_of_pos (inside c List.mem_cons_self)] at none
      cases none
    rw [wordStyle, wordStyle, alone]
    rfl
  | @error _ _ c cs _ single _ noWord _ ih =>
    have other := not_isWordChar_of_plain (not_isLetter_of_error noWord) plain
    rw [Region.inTag, wordsInTags_skip single other] at plain
    exact forall_words_cons rfl (ih (fun _ inside => absurd inside other) plain)

/-- The style of a word of the lexer. To the lexer the keyword of loops is a name. -/
def styleOf (t : Token) : Style :=
  if t.kind = .ident ∧ t.value ≠ "for" then .name else .keyword

/-- The style of a word token is the one that the rules give the word. -/
theorem styleOf_ofWord (run : List Char) :
    styleOf (.ofWord (String.ofList run)) = wordStyle none run := by
  rw [wordStyle]
  generalize String.ofList run = word
  rcases Token.ofWord_cases word with ⟨rfl, same⟩ | ⟨rfl, same⟩ | ⟨rfl, same⟩ |
    ⟨⟨notIf, notElse, notEnd⟩, same⟩
  · rw [same]; decide
  · rw [same]; decide
  · rw [same]; decide
  · rw [same, styleOf]
    by_cases loop : word = "for"
    · rw [loop]; decide
    · simp [keywords, loop, notIf, notElse, notEnd]

/-- The characters that are dropped. -/
def strays (qs : List Lexer.Piece) : List Char :=
  qs.filterMap fun
    | .dropped c => some c
    | .token _ => none

theorem strays_textOnto (cs : List Char) (qs : List Lexer.Piece) :
    strays (textOnto cs qs) = strays qs := by
  unfold textOnto
  split <;> rfl

theorem strays_blank (cs : List Char) (qs : List Lexer.Piece) :
    strays (cs.map .dropped ++ qs) = cs ++ strays qs := by
  induction cs with
  | nil => rfl
  | cons c cs ih => exact congrArg (c :: ·) ih

/-- Errors are the characters that are dropped and are not blank, one by one. -/
theorem Covers.errors_eq {region : Region} {before : Option Char} {ps : List Piece}
    (covers : Covers region before cs ps) :
    (ps.filter (·.style = .error)).map (·.text) =
      ((strays (asCut ps)).filter fun c => !isBlank c).map fun c => [c] := by
  induction covers with
  | done => rfl
  | opening _ ih => exact ih
  | @text _ index run _ ps _ _ _ ih =>
    have onto : asCut (⟨index, .text, run⟩ :: ps) = textOnto run (asCut ps) := rfl
    rw [onto, strays_textOnto]
    exact ih
  | @brace _ index _ ps _ _ ih =>
    have onto : asCut (⟨index, .text, ['{']⟩ :: ps) = textOnto ['{'] (asCut ps) := rfl
    rw [onto, strays_textOnto]
    exact ih
  | closing _ ih => exact ih
  | @blank _ index run _ ps _ blank _ ih =>
    have onto : asCut (⟨index, .blank, run⟩ :: ps) = run.map .dropped ++ asCut ps := rfl
    have none : run.filter (fun c => !isBlank c) = [] := by
      rw [List.filter_eq_nil_iff]
      intro c member
      simp [blank c member]
    rw [onto, strays_blank, List.filter_append, none]
    exact ih
  | @word before index run _ ps _ _ _ _ ih =>
    have onto : asCut (⟨index, wordStyle before run, run⟩ :: ps) =
        .token (.ofWord (String.ofList run)) :: asCut ps := onto_word index before run _
    have other : wordStyle before run ≠ .error := by
      intro same
      have word := isWord_wordStyle before run
      rw [same] at word
      cases word
    rw [onto, List.filter_cons_of_neg (by simpa using other)]
    exact ih
  | @error _ index c _ ps _ noBlank _ _ ih =>
    have onto : strays (asCut (⟨index, .error, [c]⟩ :: ps)) = c :: strays (asCut ps) := rfl
    rw [onto, List.filter_cons_of_pos rfl, List.filter_cons_of_pos (by simpa using noBlank),
      List.map_cons, List.map_cons, ih]

/-! ## Whole texts -/

/-- Plain text and delimiters are no words. -/
theorem filter_isFrame (ts : List Token) :
    ts.filter (·.kind.isFrame) = (frame ts).filter (·.kind.isFrame) := by
  have outside : ∀ kind : TokenKind, kind.isFrame → kind.isWord = false := by
    intro kind
    cases kind <;> decide
  rw [frame, List.filter_filter]
  refine List.filter_congr fun t _ => ?_
  cases framed : t.kind.isFrame with
  | false => rfl
  | true => rw [outside t.kind framed]; rfl

/-- The highlighter and the lexer split a text the same way. If it is lexed without an error, then
what is highlighted as text and punctuation, neighbouring texts made one, is the plain text and the
delimiters of the lexer. If moreover all words inside tags start with a letter and are made of
letters, decimal digits and underscores, then the words and their styles are those of the lexer,
too: a keyword for its keywords and for the name `for`, and a name for every other; all pieces of
the text are those that the lexer cuts; and what it drops is blank, or else an error, one character
each. -/
theorem pieces_agree (text : String) :
    tokenize (.ofText text) = .ok ((Lexer.run (.ofText text)).body ++ [.endOfInput]) ∧
      ((∀ t ∈ (Lexer.run (.ofText text)).body, t.kind ≠ .error) →
        (tokens (asCut (pieces text.toList))).filter (·.kind.isFrame) =
            (Lexer.run (.ofText text)).body.filter (·.kind.isFrame) ∧
          ((∀ word ∈ wordsInTags false text.toList, IsWord word) →
            (((pieces text.toList).filter (·.style.isWord)).map fun p =>
                (p.style, String.ofList p.text)) =
              (((Lexer.run (.ofText text)).body.filter (·.kind.isWord)).map fun t =>
                (styleOf t, t.value)) ∧
            (tokens (asCut (pieces text.toList)) = (Lexer.run (.ofText text)).body ∧
              chars (asCut (pieces text.toList)) = text.toList ∧
              Cuts false (asCut (pieces text.toList))) ∧
            ((pieces text.toList).filter (·.style = .error)).map (·.text) =
              ((strays (asCut (pieces text.toList))).filter fun c => !isBlank c).map
                fun c => [c])) := by
  rw [tokenize_ofText, (run_ofText text).1]
  refine ⟨rfl, fun clean => ?_⟩
  have covers : Covers .outside none text.toList (pieces text.toList) := covers_piecesFrom _ _ _ _
  have agrees : Agrees (.text []) text.toList (asCut (pieces text.toList)) :=
    covers.agrees (.text []) rfl clean
  refine ⟨?_, fun plain => ?_⟩
  · rw [filter_isFrame, agrees.frame, ← filter_isFrame]
  · obtain ⟨sent, cuts⟩ := agrees.words plain
    refine ⟨?_, ⟨sent, agrees.whole, cuts⟩, covers.errors_eq⟩
    rw [← sent, words_asCut, List.map_map]
    refine List.map_congr_left fun p member => ?_
    obtain ⟨member, word⟩ := List.mem_filter.mp member
    have apart : ¬Region.outside.inTag := Bool.false_ne_true
    rw [covers.style_eq (fun tag => absurd tag apart) plain p member word, ← styleOf_ofWord]
    rfl

/-- A brace in front of a tag and one behind it, a word that is no ASCII, a character that is
dropped in front of a word, and the keyword of loops. -/
theorem pieces_agree_braces :
    ((pieces "a\x7b \x7b\x7bif é_9 .x\x7d\x7d\x7d\x7b\x7bfor\x7d\x7d".toList).filter
        (·.style.isWord)).map (fun p => (p.style, String.ofList p.text)) =
      [(.keyword, "if"), (.name, "é_9"), (.name, "x"), (.keyword, "for")] ∧
    tokens (asCut (pieces
        "a\x7b \x7b\x7bif é_9 .x\x7d\x7d\x7d\x7b\x7bfor\x7d\x7d".toList)) =
      [⟨.text, "a\x7b "⟩, .left, .ifMark, ⟨.ident, "é_9"⟩, ⟨.ident, "x"⟩, .right,
        ⟨.text, "\x7d"⟩, .left, ⟨.ident, "for"⟩, .right] := by
  obtain ⟨-, agrees⟩ := pieces_agree "a\x7b \x7b\x7bif é_9 .x\x7d\x7d\x7d\x7b\x7bfor\x7d\x7d"
  have body : (Lexer.run (.ofText
        "a\x7b \x7b\x7bif é_9 .x\x7d\x7d\x7d\x7b\x7bfor\x7d\x7d")).body =
      [⟨.text, "a\x7b "⟩, .left, .ifMark, ⟨.ident, "é_9"⟩, ⟨.ident, "x"⟩, .right,
        ⟨.text, "\x7d"⟩, .left, ⟨.ident, "for"⟩, .right] := by
    decide +kernel
  have words : wordsInTags false
        "a\x7b \x7b\x7bif é_9 .x\x7d\x7d\x7d\x7b\x7bfor\x7d\x7d".toList =
      ["if", "é_9", "x", "for"] := by
    decide +kernel
  rw [body, words] at agrees
  have isWord : ∀ word ∈ ["if", "é_9", "x", "for"], IsWord word := by
    simp only [List.forall_mem_cons]
    exact ⟨isWord_of_all 'i' ['f'] rfl (by decide) (by decide),
      isWord_of_all 'é' ['_', '9'] (by decide) (by decide +kernel) (by decide),
      isWord_of_all 'x' [] rfl (by decide) rfl,
      isWord_of_all 'f' ['o', 'r'] rfl (by decide) (by decide), nofun⟩
  obtain ⟨styled, ⟨sent, -⟩, -⟩ := (agrees (by decide)).2 isWord
  exact ⟨styled, sent⟩

end Highlight
end Stencil
