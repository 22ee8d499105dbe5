import Stencil.Proofs.Concat
import Stencil.Proofs.RoundTrip

/-!
# What a text is cut into

A text that is lexed without an error is cut into pieces: the values of its tokens, one by one
and in order, and single characters that are dropped between them (`Lexer.Cuts`). Outside tags
nothing is dropped, so that the texts sent are the text without its tags; inside them only what
can be no part of a word and of no delimiter is (`tokenize_pieces`).

Every claim on the place of a piece follows from one fact: pieces can be cut off at the front,
and what is left is cut as before, from the place where the first ones end (`Lexer.Cuts.drop`).
-/

namespace Stencil

open Text

@[simp] theorem Token.value_ofWord (word : String) : (ofWord word).value = word := rfl

/-- The plain text among tokens. -/
def Token.plainText (ts : List Token) : List Char :=
  (ts.filter fun t => t.kind = .text).flatMap fun t => t.value.toList

/-- The text outside tags, which last from a pair of opening braces to the next pair of closing
ones. -/
def Text.outsideTags : (inTag : Bool) → List Char → List Char
  | _, [] => []
  | false, '{' :: '{' :: cs => outsideTags true cs
  | true, '}' :: '}' :: cs => outsideTags false cs
  | false, c :: cs => c :: outsideTags false cs
  | true, _ :: cs => outsideTags true cs

namespace Lexer

/-- A part of a text: what a token stands for, or a character that is dropped. -/
inductive Piece where
  | token (t : Token)
  | dropped (c : Char)
  deriving Repr, DecidableEq

namespace Piece

/-- The token of a piece that stands for one. -/
def token? : Piece → Option Token
  | token t => some t
  | dropped _ => none

/-- The characters of a piece. -/
def text : Piece → List Char
  | token t => t.value.toList
  | dropped c => [c]

/-- The tokens among pieces. -/
def tokens (ps : List Piece) : List Token :=
  ps.filterMap token?

/-- The text that pieces make up. -/
def chars (ps : List Piece) : List Char :=
  ps.flatMap text

@[simp] theorem tokens_nil : tokens [] = [] := rfl

@[simp] theorem tokens_token (t : Token) (ps : List Piece) :
    tokens (.token t :: ps) = t :: tokens ps := rfl

@[simp] theorem tokens_dropped (c : Char) (ps : List Piece) :
    tokens (.dropped c :: ps) = tokens ps := rfl

@[simp] theorem chars_nil : chars [] = [] := rfl

@[simp] theorem chars_token (t : Token) (ps : List Piece) :
    chars (.token t :: ps) = t.value.toList ++ chars ps := rfl

@[simp] theorem chars_dropped (c : Char) (ps : List Piece) :
    chars (.dropped c :: ps) = c :: chars ps := rfl

theorem chars_append (ps qs : List Piece) : chars (ps ++ qs) = chars ps ++ chars qs :=
  List.flatMap_append

theorem tokens_append (ps qs : List Piece) : tokens (ps ++ qs) = tokens ps ++ tokens qs :=
  List.filterMap_append

end Piece

open Piece

/-- How pieces follow each other, from inside a tag or from outside. A word ends where it cannot
be continued; what is dropped starts no word and is the first of no two braces. -/
inductive Cuts : (inTag : Bool) → List Piece → Prop
  | done {inTag : Bool} : Cuts inTag []
  | text {value : String} {ps : List Piece} :
    Cuts false ps → Cuts false (.token ⟨.text, value⟩ :: ps)
  | left {ps : List Piece} : Cuts true ps → Cuts false (.token .left :: ps)
  | word {t : Token} {ps : List Piece} :
    t.IsTerm → (∀ c, (chars ps).head? = some c → ¬continuesWord c) → Cuts true ps →
    Cuts true (.token t :: ps)
  | dropped {c : Char} {ps : List Piece} :
    ¬isLetter c → ¬isPair c (chars ps) → Cuts true ps → Cuts true (.dropped c :: ps)
  | right {ps : List Piece} : Cuts false ps → Cuts true (.token .right :: ps)

variable {inTag : Bool} {c : Char} {cs : List Char} {ps before after : List Piece} {t : Token}

/-- Behind the first pieces, the others are cut from where those end. -/
theorem Cuts.drop (cuts : Cuts inTag (before ++ after)) :
    Cuts (Token.inTag inTag (tokens before)) after := by
  induction before generalizing inTag with
  | nil => exact cuts
  | cons p before ih =>
    cases cuts with
    | text more => exact ih more
    | left more => exact ih more
    | @word t _ term _ more =>
      rw [tokens_token, ← term.ofWord_value, Token.inTag_ofWord]
      exact ih more
    | dropped _ _ more => exact ih more
    | right more => exact ih more

/-- A tag is open behind its delimiter. -/
theorem Cuts.of_left (cuts : Cuts inTag (.token .left :: ps)) : Cuts true ps := by
  cases cuts with
  | left more => exact more
  | word isTerm => rcases isTerm with ⟨never, -⟩ | never | never | never <;> cases never

/-- A dropped character is directly behind another one, behind an opening delimiter, or behind a
word that it does not continue. -/
theorem Cuts.behind (cuts : Cuts inTag (.token t :: .dropped c :: after)) :
    t = .left ∨ t.IsTerm ∧ ¬continuesWord c := by
  cases cuts with
  | text more => cases more
  | left _ => exact .inl rfl
  | word term ends _ => exact .inr ⟨term, ends c rfl⟩
  | right more => cases more

/-- Pending text is one piece, if there is any. -/
theorem exists_cuts_flushed (pending : List Char) (more : Cuts false ps) :
    ∃ qs, Cuts false qs ∧ tokens qs = flushed pending ++ tokens ps ∧
      chars qs = pending.reverse ++ chars ps := by
  cases pending with
  | nil => exact ⟨ps, more, rfl, rfl⟩
  | cons c cs =>
    refine ⟨.token ⟨.text, String.ofList (c :: cs).reverse⟩ :: ps, .text more, rfl, ?_⟩
    rw [chars_token, String.toList_ofList]

/-- The pieces of what is scanned from a place, with the text that is pending there. -/
theorem exists_cuts (place : Place) (clean : ∀ t ∈ scan place cs, t.kind ≠ .error) :
    ∃ ps, Cuts place.inTag ps ∧ tokens ps = scan place cs ∧
      chars ps = place.pending.reverse ++ cs := by
  have leftMark : Token.left.value.toList = ['{', '{'] := by decide
  have rightMark : Token.right.value.toList = ['}', '}'] := by decide
  fun_induction scan place cs with
  | case1 pending =>
    obtain ⟨ps, cuts, sent, text⟩ := exists_cuts_flushed pending .done
    exact ⟨ps, cuts, by simpa using sent, text⟩
  | case2 pending cs pair ih =>
    obtain ⟨-, rest, rfl⟩ := isPair_iff.mp pair
    obtain ⟨ps, cuts, sent, text⟩ := ih fun t member =>
      clean t (List.mem_append_right _ (List.mem_cons_of_mem _ member))
    obtain ⟨qs, cuts', sent', text'⟩ := exists_cuts_flushed pending (.left cuts)
    refine ⟨qs, cuts', by rw [sent', tokens_token, sent], ?_⟩
    rw [text', chars_token, text, leftMark]
    rfl
  | case3 => exact absurd rfl (clean strayRight List.mem_cons_self)
  | case4 pending c cs single ih =>
    obtain ⟨ps, cuts, sent, text⟩ := ih clean
    refine ⟨ps, cuts, sent, ?_⟩
    rw [text]
    simp [Place.pending]
  | case5 => exact ⟨[], .done, rfl, rfl⟩
  | case6 => exact absurd rfl (clean strayLeft List.mem_cons_self)
  | case7 c cs pair other ih =>
    obtain ⟨brace, rest, rfl⟩ := isPair_iff.mp pair
    obtain rfl : c = '}' := brace.resolve_left other
    obtain ⟨ps, cuts, sent, text⟩ := ih fun t member => clean t (List.mem_cons_of_mem _ member)
    refine ⟨.token .right :: ps, .right cuts, by rw [tokens_token, sent], ?_⟩
    rw [chars_token, text, rightMark]
    rfl
  | case8 c cs single letter ih =>
    obtain ⟨ps, cuts, sent, text⟩ := ih fun t member => clean t (List.mem_cons_of_mem _ member)
    have rest : chars ps = cs.dropWhile continuesWord := text
    have ends : ∀ d, (chars ps).head? = some d → ¬continuesWord d := by
      intro d first
      rw [rest] at first
      have stops := List.head?_dropWhile_not continuesWord cs
      rw [first] at stops
      simpa using stops
    refine ⟨.token (.ofWord (String.ofList (c :: cs.takeWhile continuesWord))) :: ps,
      .word (Token.isTerm_ofWord (isWord_takeWhile letter)) ends cuts, by rw [tokens_token, sent],
      ?_⟩
    rw [chars_token, Token.value_ofWord, String.toList_ofList, rest, List.cons_append,
      List.takeWhile_append_dropWhile]
    rfl
  | case9 c cs single other ih =>
    obtain ⟨ps, cuts, sent, text⟩ := ih clean
    have rest : chars ps = cs := text
    refine ⟨.dropped c :: ps, .dropped other (rest ▸ single) cuts, sent, ?_⟩
    rw [chars_dropped, rest]
    rfl

/-! ## What is left without the tags -/

theorem outsideTags_single (single : ¬isPair c cs) :
    outsideTags false (c :: cs) = c :: outsideTags false cs := by
  rw [outsideTags.eq_def]
  split <;> simp_all [isPair]

theorem outsideTags_skip (single : ¬isPair c cs) :
    outsideTags true (c :: cs) = outsideTags true cs := by
  rw [outsideTags.eq_def]
  split <;> simp_all [isPair]

theorem not_isPair_of_continuesWord (inside : continuesWord c) : ¬isPair c cs :=
  not_isPair_of_class (by decide) inside

theorem outsideTags_word {word : List Char} (inside : ∀ c ∈ word, continuesWord c) :
    outsideTags true (word ++ cs) = outsideTags true cs := by
  induction word with
  | nil => rfl
  | cons c word ih =>
    obtain ⟨here, inside⟩ := List.forall_mem_cons.mp inside
    rw [List.cons_append, outsideTags_skip (not_isPair_of_continuesWord here), ih inside]

theorem plainText_flushed (pending : List Char) :
    Token.plainText (flushed pending) = pending.reverse := by
  cases pending with
  | nil => rfl
  | cons c cs => simp [flushed, Token.plainText]

theorem plainText_append (ts us : List Token) :
    Token.plainText (ts ++ us) = Token.plainText ts ++ Token.plainText us := by
  simp [Token.plainText]

theorem plainText_cons (other : t.kind ≠ .text) (ts : List Token) :
    Token.plainText (t :: ts) = Token.plainText ts := by
  simp [Token.plainText, other]

/-- The plain text that is scanned is the text outside tags. -/
theorem plainText_scan (place : Place) (clean : ∀ t ∈ scan place cs, t.kind ≠ .error) :
    Token.plainText (scan place cs) = place.pending.reverse ++ outsideTags place.inTag cs := by
  fun_induction scan place cs with
  | case1 pending => simp [plainText_flushed, outsideTags, Place.pending]
  | case2 pending cs pair ih =>
    obtain ⟨-, rest, rfl⟩ := isPair_iff.mp pair
    have more := ih fun t member =>
      clean t (List.mem_append_right _ (List.mem_cons_of_mem _ member))
    rw [plainText_append, plainText_flushed, plainText_cons (by decide), more]
    rfl
  | case3 => exact absurd rfl (clean strayRight List.mem_cons_self)
  | case4 pending c cs single ih =>
    have more := ih clean
    rw [Place.inTag] at more ⊢
    rw [outsideTags_single single, more]
    simp [Place.pending]
  | case5 => rfl
  | case6 => exact absurd rfl (clean strayLeft List.mem_cons_self)
  | case7 c cs pair other ih =>
    obtain ⟨brace, rest, rfl⟩ := isPair_iff.mp pair
    obtain rfl : c = '}' := brace.resolve_left other
    have more := ih fun t member => clean t (List.mem_cons_of_mem _ member)
    rw [plainText_cons (by decide), more]
    rfl
  | case8 c cs single letter ih =>
    have more := ih fun t member => clean t (List.mem_cons_of_mem _ member)
    have word : ∀ d ∈ cs.takeWhile continuesWord, continuesWord d := fun d member =>
      List.all_eq_true.mp List.all_takeWhile d member
    have skipped : outsideTags true (cs.takeWhile continuesWord ++ cs.dropWhile continuesWord) =
      outsideTags true (cs.dropWhile continuesWord) := outsideTags_word word
    rw [List.takeWhile_append_dropWhile] at skipped
    rw [plainText_cons (Token.kind_ofWord_ne_text _), more]
    rw [Place.inTag, outsideTags_skip single, skipped]
  | case9 c cs single other ih =>
    rw [ih clean, Place.inTag, outsideTags_skip single]

/-- A text without a pair of braces is sent as it is. -/
theorem scan_of_noPair (noPair : NoPair cs) : scan (.text []) cs = flushed cs.reverse := by
  have plain : scan (.text []) (cs ++ []) = scan (.text (cs.reverse ++ [])) [] :=
    scan_plain noPair (by simp [isPair])
  rw [List.append_nil, List.append_nil] at plain
  rw [plain, scan]

/-- What is true of a character that is dropped between pieces: it is inside a tag, it is no
letter, it continues no word that ends before it, and it is the first of no two braces. -/
structure Stray (before : List Piece) (c : Char) (after : List Piece) : Prop where
  inside : Token.inTag false (tokens before) = true
  noLetter : ¬isLetter c
  apart : isDecimalDigit c ∨ c = '_' → ∀ t, before.getLast? = some (.token t) → t = .left
  single : c = '{' ∨ c = '}' → (chars after).head? ≠ some c

/-- Each character that is dropped is stray. -/
theorem Cuts.stray (cuts : Cuts false (before ++ .dropped c :: after)) :
    Stray before c after := by
  have here := cuts.drop
  generalize inside : Token.inTag false (tokens before) = inTag at here
  cases here with
  | dropped noLetter noPair _ =>
    refine ⟨inside, noLetter, fun digit t last => ?_,
      fun brace => head?_ne_of_not_isPair brace noPair⟩
    obtain ⟨before, rfl⟩ := List.getLast?_eq_some_iff.mp last
    rw [List.append_assoc, List.singleton_append] at cuts
    rcases cuts.drop.behind with left | ⟨-, ends⟩
    · exact left
    · refine absurd ?_ ends
      rcases digit with digit | rfl
      · simp [continuesWord, digit]
      · simp [continuesWord]

/-- A token among pieces is plain text, a delimiter, or a word that could not be longer. -/
theorem Cuts.token (cuts : Cuts false (before ++ .token t :: after)) :
    t.kind = .text ∨ t = .left ∨ t = .right ∨
      t.IsTerm ∧ ∀ c, (chars after).head? = some c → ¬continuesWord c := by
  have here := cuts.drop
  generalize Token.inTag false (tokens before) = inTag at here
  cases here with
  | text _ => exact .inl rfl
  | left _ => exact .inr (.inl rfl)
  | word term ends _ => exact .inr (.inr (.inr ⟨term, ends⟩))
  | right _ => exact .inr (.inr (.inl rfl))

end Lexer

open Lexer Piece

/-- The lexer loses nothing outside tags, and drops only stray characters inside them. A text
that is lexed without an error is made of the values of its tokens, in order, and of characters
that are dropped between them, each of them stray; a word is as long as it can be; and the plain
text is the text outside tags. A text without a pair of braces is one token, or none if it is
empty. -/
theorem tokenize_pieces (text : String) :
    tokenize (.ofText text) = .ok ((Lexer.run (.ofText text)).body ++ [.endOfInput]) ∧
      ((∀ t ∈ (Lexer.run (.ofText text)).body, t.kind ≠ .error) →
        (∃ ps, tokens ps = (Lexer.run (.ofText text)).body ∧ chars ps = text.toList ∧
          (∀ before c after, ps = before ++ .dropped c :: after → Stray before c after) ∧
          ∀ before t after, ps = before ++ .token t :: after →
            t.kind = .text ∨ t = .left ∨ t = .right ∨
              t.IsTerm ∧ ∀ c, (chars after).head? = some c → ¬continuesWord c) ∧
        Token.plainText (Lexer.run (.ofText text)).body = outsideTags false text.toList) ∧
      (NoPair text.toList →
        (Lexer.run (.ofText text)).body = if text = "" then [] else [⟨.text, text⟩]) := by
  rw [tokenize_ofText, (run_ofText text).1]
  refine ⟨rfl, fun clean => ?_, fun noPair => ?_⟩
  · obtain ⟨ps, cuts, sent, whole⟩ := exists_cuts (.text []) clean
    refine ⟨⟨ps, sent, whole, ?_, ?_⟩, plainText_scan (.text []) clean⟩
    · rintro before c after rfl
      exact Cuts.stray cuts
    · rintro before t after rfl
      exact Cuts.token cuts
  · rw [scan_of_noPair noPair, flushed, List.isEmpty_reverse, List.reverse_reverse,
      String.ofList_toList]
    by_cases empty : text = ""
    · rw [if_pos empty, empty]
      rfl
    · rw [if_neg empty, if_neg]
      simpa using empty

/-- Braces that are text, dropped or part of a delimiter, side by side; and digits in a word and
behind one. -/
theorem tokenize_pieces_braces :
    ∃ ps, tokens ps = [⟨.text, "\x7d"⟩, .left, ⟨.ident, "a1"⟩, ⟨.ident, "b"⟩, .right,
        ⟨.text, "\x7dc"⟩] ∧
      chars ps = "\x7d\x7b\x7b\x7ba1 2\x7db\x7d\x7d\x7dc".toList ∧
      ∀ before c after, ps = before ++ .dropped c :: after → Stray before c after := by
  have body : (Lexer.run (.ofText "\x7d\x7b\x7b\x7ba1 2\x7db\x7d\x7d\x7dc")).body =
      [⟨.text, "\x7d"⟩, .left, ⟨.ident, "a1"⟩, ⟨.ident, "b"⟩, .right, ⟨.text, "\x7dc"⟩] := by
    decide +kernel
  have clean : ∀ t ∈ (Lexer.run (.ofText "\x7d\x7b\x7b\x7ba1 2\x7db\x7d\x7d\x7dc")).body,
      t.kind ≠ .error := by
    rw [body]
    decide
  obtain ⟨⟨ps, sent, whole, stray, -⟩, -⟩ := (tokenize_pieces _).2.1 clean
  exact ⟨ps, sent.trans body, whole, stray⟩

/-- The empty text has no pair of braces and is no token. -/
theorem tokenize_empty :
    NoPair "".toList ∧ tokenize (.ofText "") ≠ .ok [⟨.text, ""⟩, .endOfInput] := by
  constructor
  · exact noPair_nil
  · have none : scan (.text []) "".toList = [] := by decide +kernel
    rw [tokenize_ofText, none]
    rintro ⟨⟩

end Stencil
