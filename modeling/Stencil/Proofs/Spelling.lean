import Stencil.Proofs.RoundTrip

/-!
# Spelling tokens out

Tokens as the template that they are lexed from: their values in a row, with one blank between
words that would otherwise run together (`Token.spell`). Tokens that a lexer can send without an
error are the lexing of their spelling, and every template without an error is lexed like the
spelling of its own tokens (`tokenize_spell`).

A text is lexed to itself because a tag or the end of the template comes behind it, and a word
because what comes behind it does not continue it: a blank, or the end of its tag, or nothing.
-/

namespace Stencil

open Lexer Text

/-- The kinds of the words of a tag. -/
def TokenKind.isWord : TokenKind → Bool
  | ident | ifWord | elseWord | endWord => true
  | _ => false

namespace Token

/-- What stands between a token and those behind it. -/
def gap (t : Token) (ts : List Token) : String :=
  if t.kind.isWord && ts.head?.any (·.kind.isWord) then " " else ""

/-- The template that tokens are written as. -/
def spell : List Token → String
  | [] => ""
  | t :: ts => t.value ++ t.gap ts ++ spell ts

variable {t u : Token} {ts : List Token}

theorem gap_nil : t.gap [] = "" := by
  rw [gap, List.head?_nil, Option.any_none, Bool.and_false, if_neg nofun]

theorem gap_of_not_word (other : t.kind.isWord = false) : t.gap ts = "" := by
  rw [gap, other, Bool.false_and, if_neg nofun]

theorem gap_before_not_word (other : u.kind.isWord = false) : t.gap (u :: ts) = "" := by
  rw [gap, List.head?_cons, Option.any_some, other, Bool.and_false, if_neg nofun]

theorem gap_words (word : t.kind.isWord = true) (word' : u.kind.isWord = true) :
    t.gap (u :: ts) = " " := by
  rw [gap, List.head?_cons, Option.any_some, word, word', Bool.and_self, if_pos rfl]

theorem toList_spell_of_not_word (other : t.kind.isWord = false) :
    (spell (t :: ts)).toList = t.value.toList ++ (spell ts).toList := by
  rw [spell, gap_of_not_word other, String.append_empty, String.toList_append]

theorem toList_spell_left : (spell (.left :: ts)).toList = '{' :: '{' :: (spell ts).toList :=
  toList_spell_of_not_word rfl

theorem toList_spell_right : (spell (.right :: ts)).toList = '}' :: '}' :: (spell ts).toList :=
  toList_spell_of_not_word rfl

theorem IsTerm.isWord_kind (isTerm : t.IsTerm) : t.kind.isWord = true := by
  rcases isTerm with ⟨kind, -⟩ | rfl | rfl | rfl
  · rw [kind]
    rfl
  · rfl
  · rfl
  · rfl

end Token

namespace Lexer

open Token

/-- Where a list of tokens starts, inside a tag or not. -/
def Place.start : (inTag : Bool) → Place
  | false => text []
  | true => tag

variable {inTag : Bool} {t : Token} {ts : List Token}

/-- A word and what is behind it: a blank if that is a word as well, and what ends a tag or the
template if not. -/
theorem Sends.scan_term (isTerm : t.IsTerm) (sends : Sends true ts) :
    scan .tag (spell (t :: ts)).toList = t :: scan .tag (spell ts).toList := by
  have alone : ∀ rest : List Char, rest.takeWhile continuesWord = [] →
      scan .tag (t.value.toList ++ rest) = t :: scan .tag rest := by
    intro rest ends
    rw [scan_word isTerm.isWord ends, isTerm.ofWord_value]
  rw [spell, String.toList_append, String.toList_append, List.append_assoc]
  cases sends with
  | done =>
    rw [gap_nil]
    exact alone [] rfl
  | term isTerm' =>
    have blank : " ".toList = [' '] := by decide
    rw [gap_words isTerm.isWord_kind isTerm'.isWord_kind, blank, List.singleton_append,
      alone _ rfl, scan_skip (by simp [isPair]) (by decide)]
  | right =>
    rw [gap_before_not_word rfl, toList_spell_right]
    exact alone _ rfl

/-- Tokens that can be sent are scanned from their spelling. -/
theorem Sends.scan_spell (sends : Sends inTag ts) :
    scan (.start inTag) (spell ts).toList = ts := by
  induction sends with
  | @done inTag => cases inTag <;> simp [Place.start, spell, scan, Lexer.flushed]
  | @lastText value isText =>
    rw [toList_spell_of_not_word rfl, spell, String.toList_empty, Place.start,
      Node.scan_isText isText (absurd rfl) (.inl rfl)]
    simp [scan, Lexer.flushed]
  | @text value ts isText seam _ ih =>
    rw [toList_spell_of_not_word rfl, toList_spell_left, Place.start,
      Node.scan_isText isText (fun _ => seam) (.inr ⟨_, rfl⟩), scan_left]
    rw [Place.start] at ih
    rw [ih]
    rfl
  | left _ ih =>
    rw [toList_spell_left, Place.start, scan_left]
    rw [Place.start] at ih
    rw [ih]
    rfl
  | term isTerm sends ih =>
    exact (sends.scan_term isTerm).trans (congrArg _ ih)
  | right _ ih =>
    rw [toList_spell_right, Place.start, scan_right]
    exact congrArg _ ih

end Lexer

/-- Lexing inverts spelling. Tokens that can be sent without an error, which are texts and tags of
words, are what their spelling is lexed to; and a template that is lexed without an error is lexed
to such tokens, and like their spelling. -/
theorem tokenize_spell :
    (∀ ts : List Token, Sends false ts →
        tokenize (.ofText (Token.spell ts)) = .ok (ts ++ [.endOfInput])) ∧
      ∀ (text : String) (ts : List Token), tokenize (.ofText text) = .ok ts →
        (∀ t ∈ ts, t.kind ≠ .error) → ∃ body, ts = body ++ [.endOfInput] ∧ Sends false body ∧
          tokenize (.ofText (Token.spell body)) = tokenize (.ofText text) := by
  have spelled : ∀ ts : List Token, Sends false ts →
      tokenize (.ofText (Token.spell ts)) = .ok (ts ++ [.endOfInput]) := by
    intro ts sends
    have scanned := sends.scan_spell
    rw [Place.start] at scanned
    rw [tokenize_ofText, scanned]
  refine ⟨spelled, ?_⟩
  intro text ts lexed clean
  rw [tokenize_ofText] at lexed
  cases lexed
  have sends : Sends false (scan (.text []) text.toList) := by
    apply sends_scan Place.apart_text_nil
    intro t member
    exact clean t (List.mem_append_left _ member)
  refine ⟨_, rfl, sends, ?_⟩
  rw [spelled _ sends, tokenize_ofText]

/-- Single braces at the borders of texts, names that start like other words, letters and digits of
several scripts, and a tag that does not end. -/
theorem tokenize_spell_unclosed :
    ∃ (text : String) (ts : List Token), tokenize (.ofText text) = .ok (ts ++ [.endOfInput]) ∧
      Token.spell ts = "\x7d\x7b \x7b\x7bif end_ elsé\x7d\x7d\x7d\x7b\x7bend a٣" ∧
      tokenize (.ofText (Token.spell ts)) = .ok (ts ++ [.endOfInput]) := by
  let ts : List Token := [⟨.text, "\x7d\x7b "⟩, .left, .ifMark, ⟨.ident, "end_"⟩, ⟨.ident, "elsé"⟩,
    .right, ⟨.text, "\x7d"⟩, .left, .endMark, ⟨.ident, "a٣"⟩]
  have lexed : tokenize (.ofText
      "\x7d\x7b \x7b\x7b if-end_ (elsé)\x7d\x7d\x7d\x7b\x7b\nend a٣ ") =
        .ok (ts ++ [.endOfInput]) := by
    rw [tokenize_ofText]
    exact congrArg _ (by decide +kernel)
  obtain ⟨body, same, sends, -⟩ := tokenize_spell.2 _ _ lexed (by decide +kernel)
  obtain rfl : ts = body := List.append_cancel_right same
  exact ⟨_, ts, lexed, by decide +kernel, tokenize_spell.1 ts sends⟩

end Stencil
