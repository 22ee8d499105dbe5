import Stencil.Proofs.Concat

/-!
# Stray pairs of braces

A pair of braces where it may not stand is an error, and which braces they are decides what comes
then. An opening pair inside a tag costs the rest of its line: behind that, lexing starts afresh,
as on a text of its own. A closing pair outside of tags ends the run, whatever comes behind it, and
the text that was pending is not sent (`tokenize_stray_pair`).

Both are statements on what has been scanned before the pair, with all that may be left there: a
lone brace, which the pair follows, or a word, which it ends. So the tokens that come before the
error are those of the first text alone, and only the places where that ends are looked at.
-/

namespace Stencil

namespace Token

/-- A token that neither opens nor closes a tag, and is no error. -/
def Quiet (t : Token) : Prop :=
  t.kind ≠ .leftMeta ∧ t.kind ≠ .rightMeta ∧ t.kind ≠ .error

/-- Tokens that end inside a tag: behind the last opening delimiter there is neither a closing one
nor an error. -/
def EndInTag (ts : List Token) : Prop :=
  ∃ before t after, ts = before ++ t :: after ∧ t.kind = .leftMeta ∧ ∀ u ∈ after, Quiet u

/-- The tokens without the plain text that they end with, if they do. -/
def withoutLastText (ts : List Token) : List Token :=
  if ts.getLast?.any (·.kind = .text) then ts.dropLast else ts

/-- Whether a tag is open behind a token, if one is open before it or not. An error closes it. -/
def opens (inside : Bool) (t : Token) : Bool :=
  match t.kind with
  | .leftMeta => true
  | .rightMeta => false
  | .error => false
  | _ => inside

/-- Whether a tag is open behind tokens. -/
def tagOpen (start : Bool) (ts : List Token) : Bool :=
  ts.foldl opens start

variable {start : Bool} {t : Token} {ts us : List Token}

@[simp] theorem tagOpen_cons : tagOpen start (t :: ts) = tagOpen (opens start t) ts := rfl

theorem tagOpen_append : tagOpen start (ts ++ us) = tagOpen (tagOpen start ts) us :=
  List.foldl_append

@[simp] theorem opens_ofWord (word : String) : opens start (.ofWord word) = start := by
  rcases ofWord_cases word with ⟨-, same⟩ | ⟨-, same⟩ | ⟨-, same⟩ | ⟨-, same⟩ <;> rw [same] <;>
    rfl

theorem opens_of_quiet (quiet : t.Quiet) : opens start t = start := by
  obtain ⟨left, right, error⟩ := quiet
  unfold opens
  split
  · next kind => exact absurd kind left
  · next kind => exact absurd kind right
  · next kind => exact absurd kind error
  · rfl

theorem tagOpen_of_quiet (quiet : ∀ u ∈ ts, Quiet u) : tagOpen start ts = start := by
  induction ts with
  | nil => rfl
  | cons t ts ih =>
    obtain ⟨quiet, quiets⟩ := List.forall_mem_cons.mp quiet
    rw [tagOpen_cons, opens_of_quiet quiet, ih quiets]

/-- A tag that is open was opened by one of the tokens, or before them, and not closed since. -/
theorem endInTag_or_of_tagOpen (opened : tagOpen start ts = true) :
    EndInTag ts ∨ start = true ∧ ∀ u ∈ ts, Quiet u := by
  induction ts generalizing start with
  | nil => exact .inr ⟨opened, nofun⟩
  | cons t ts ih =>
    rcases ih opened with ⟨before, u, after, rfl, left, quiet⟩ | ⟨opened, quiet⟩
    · exact .inl ⟨t :: before, u, after, rfl, left, quiet⟩
    · by_cases left : t.kind = .leftMeta
      · exact .inl ⟨[], t, ts, rfl, left, quiet⟩
      · have here : t.Quiet := by
          refine ⟨left, ?_, ?_⟩
          · intro right
            simp [opens, right] at opened
          · intro error
            simp [opens, error] at opened
        rw [opens_of_quiet here] at opened
        exact .inr ⟨opened, List.forall_mem_cons.mpr ⟨here, quiet⟩⟩

/-- A tag is open behind tokens that end in one, and only behind these. -/
theorem tagOpen_iff : tagOpen false ts = true ↔ EndInTag ts := by
  constructor
  · intro opened
    rcases endInTag_or_of_tagOpen opened with inside | ⟨never, -⟩
    · exact inside
    · cases never
  · rintro ⟨before, t, after, rfl, left, quiet⟩
    have opened : opens (tagOpen false before) t = true := by simp [opens, left]
    rw [tagOpen_append, tagOpen_cons, opened, tagOpen_of_quiet quiet]

instance (ts : List Token) : Decidable (EndInTag ts) :=
  decidable_of_iff _ tagOpen_iff

theorem withoutLastText_append (more : us ≠ []) :
    withoutLastText (ts ++ us) = ts ++ withoutLastText us := by
  have last : (ts ++ us).getLast? = us.getLast? := by
    obtain ⟨t, same⟩ := Option.isSome_iff_exists.mp (List.getLast?_isSome.mpr more)
    rw [List.getLast?_append, same]
    rfl
  unfold withoutLastText
  rw [last, List.dropLast_append_of_ne_nil more]
  split <;> rfl

/-- What is no text is kept, also as the last token. -/
theorem withoutLastText_cons (other : t.kind ≠ .text) :
    withoutLastText (t :: ts) = t :: withoutLastText ts := by
  cases ts with
  | nil => simp [withoutLastText, other]
  | cons u us =>
    have kept : withoutLastText ([t] ++ u :: us) = [t] ++ withoutLastText (u :: us) :=
      withoutLastText_append (List.cons_ne_nil u us)
    exact kept

end Token

namespace Lexer

open Text Token

variable {c : Char} {pending cs rest : List Char} {place : Place}

@[simp] theorem tagOpen_flushed (start : Bool) : tagOpen start (flushed pending) = start := by
  cases pending with
  | nil => rfl
  | cons c cs => rfl

@[simp] theorem withoutLastText_flushed : withoutLastText (flushed pending) = [] := by
  cases pending with
  | nil => rfl
  | cons c cs => rfl

theorem not_isPair_of_ne {d : Char} (apart : c ≠ d) : ¬isPair c (d :: cs) := by
  intro pair
  obtain ⟨-, _, same⟩ := isPair_iff.mp pair
  exact apart (List.cons.inj same).1.symm

/-- Whether a character starts a pair is seen from the next one. -/
theorem scan_single_append {d : Char} (single : ¬isPair c (d :: cs)) :
    scan (.text pending) (c :: d :: cs ++ rest) = scan (.text (c :: pending)) (d :: cs ++ rest) :=
  scan_single single

theorem scan_skip_append {d : Char} (single : ¬isPair c (d :: cs)) (other : ¬isLetter c) :
    scan .tag (c :: d :: cs ++ rest) = scan .tag (d :: cs ++ rest) :=
  scan_skip single other

/-- A word ends where a brace comes, whatever is behind it. -/
theorem span_append_brace (brace : ¬continuesWord c) (rest cs : List Char) :
    (cs ++ c :: rest).takeWhile continuesWord = cs.takeWhile continuesWord ∧
      (cs ++ c :: rest).dropWhile continuesWord = cs.dropWhile continuesWord ++ c :: rest := by
  induction cs with
  | nil => exact ⟨List.takeWhile_cons_of_neg brace, List.dropWhile_cons_of_neg brace⟩
  | cons d ds ih =>
    obtain ⟨taken, left⟩ := ih
    by_cases inside : continuesWord d
    · simp [inside, taken, left]
    · simp [inside]

/-- The end of a line is found where it was, whatever comes behind it. -/
theorem nextLine_append (found : nextLine cs ≠ []) :
    nextLine (cs ++ rest) = nextLine cs ++ rest := by
  unfold nextLine at found ⊢
  have stops : (cs.dropWhile fun c => !endsLine c) ≠ [] := by
    intro none
    rw [none] at found
    exact found rfl
  rw [List.dropWhile_append, if_neg (by simpa using stops), List.tail_append_of_ne_nil stops]

theorem nextLine_brace (cs : List Char) : nextLine ('{' :: cs) = nextLine cs := by
  unfold nextLine
  rw [List.dropWhile_cons_of_pos (by decide)]

/-- A tag that is opened inside a tag costs the rest of its line. -/
theorem scan_append_left (opened : tagOpen place.inTag (scan place cs) = true) :
    scan place (cs ++ '{' :: '{' :: rest) =
      scan place cs ++ strayLeft :: scan (.text []) (nextLine rest) := by
  fun_induction scan place cs with
  | case1 pending =>
    rw [tagOpen_flushed] at opened
    cases opened
  | case2 pending cs pair ih =>
    obtain ⟨-, rest', rfl⟩ := isPair_iff.mp pair
    rw [tagOpen_append, tagOpen_flushed, tagOpen_cons] at opened
    have more := ih opened
    rw [List.tail_cons] at more ⊢
    rw [List.cons_append, List.cons_append, scan_left, more, List.append_assoc, List.cons_append]
  | case3 => cases opened
  | case4 pending c cs single ih =>
    cases cs with
    | nil =>
      rw [scan, tagOpen_flushed] at opened
      cases opened
    | cons d ds =>
      rw [scan_single_append single]
      exact ih opened
  | case5 => exact scan_strayLeft
  | case6 cs pair ih =>
    obtain ⟨-, rest', rfl⟩ := isPair_iff.mp pair
    rw [tagOpen_cons] at opened
    have more := ih opened
    rw [List.tail_cons] at opened more ⊢
    have found : nextLine rest' ≠ [] := by
      intro none
      rw [none, scan] at opened
      cases opened
    rw [List.cons_append, List.cons_append, scan_strayLeft, nextLine_append found, more,
      List.cons_append]
  | case7 c cs pair other ih =>
    obtain ⟨brace, rest', rfl⟩ := isPair_iff.mp pair
    obtain rfl : c = '}' := brace.resolve_left other
    rw [tagOpen_cons] at opened
    have more := ih opened
    rw [List.tail_cons] at more ⊢
    rw [List.cons_append, List.cons_append, scan_right, more, List.cons_append]
  | case8 c cs single letter ih =>
    rw [tagOpen_cons, opens_ofWord] at opened
    obtain ⟨taken, left⟩ := span_append_brace (c := '{') (by decide) ('{' :: rest) cs
    rw [List.cons_append, scan_letter letter, taken, left, ih opened, List.cons_append]
  | case9 c cs single other ih =>
    have more := ih opened
    cases cs with
    | cons d ds =>
      rw [scan_skip_append single other]
      exact more
    | nil =>
      rw [List.singleton_append]
      by_cases brace : c = '{'
      -- The brace that was left there is the first of the pair, and the error is the same.
      · subst brace
        rw [scan_strayLeft, nextLine_brace, scan]
        rfl
      · rw [scan_skip (not_isPair_of_ne brace) other]
        exact more

/-- A tag that is closed where none is open ends everything. -/
theorem scan_append_right (clean : ∀ t ∈ scan place cs, t.kind ≠ .error)
    (closed : tagOpen place.inTag (scan place cs) = false) :
    scan place (cs ++ '}' :: '}' :: rest) = withoutLastText (scan place cs) ++ [strayRight] := by
  fun_induction scan place cs with
  | case1 pending =>
    rw [withoutLastText_flushed]
    exact scan_strayRight
  | case2 pending cs pair ih =>
    obtain ⟨-, rest', rfl⟩ := isPair_iff.mp pair
    rw [tagOpen_append, tagOpen_flushed, tagOpen_cons] at closed
    have more := ih (fun t member =>
      clean t (List.mem_append_right _ (List.mem_cons_of_mem _ member))) closed
    rw [List.tail_cons] at more ⊢
    rw [List.cons_append, List.cons_append, scan_left, more,
      withoutLastText_append (List.cons_ne_nil _ _), withoutLastText_cons (by decide),
      List.append_assoc, List.cons_append]
  | case3 => exact absurd rfl (clean strayRight List.mem_cons_self)
  | case4 pending c cs single ih =>
    have more := ih clean closed
    cases cs with
    | cons d ds =>
      rw [scan_single_append single]
      exact more
    | nil =>
      rw [List.singleton_append]
      by_cases brace : c = '}'
      -- The brace that was left there is the first of the pair, and is as little sent as the text.
      · subst brace
        rw [scan_strayRight, scan, withoutLastText_flushed, List.nil_append]
      · rw [scan_single (not_isPair_of_ne brace)]
        exact more
  | case5 => cases closed
  | case6 => exact absurd rfl (clean strayLeft List.mem_cons_self)
  | case7 c cs pair other ih =>
    obtain ⟨brace, rest', rfl⟩ := isPair_iff.mp pair
    obtain rfl : c = '}' := brace.resolve_left other
    rw [tagOpen_cons] at closed
    have more := ih (fun t member => clean t (List.mem_cons_of_mem _ member)) closed
    rw [List.tail_cons] at more ⊢
    rw [List.cons_append, List.cons_append, scan_right, more, withoutLastText_cons (by decide),
      List.cons_append]
  | case8 c cs single letter ih =>
    rw [tagOpen_cons, opens_ofWord] at closed
    have more := ih (fun t member => clean t (List.mem_cons_of_mem _ member)) closed
    obtain ⟨taken, left⟩ := span_append_brace (c := '}') (by decide) ('}' :: rest) cs
    rw [List.cons_append, scan_letter letter, taken, left, more,
      withoutLastText_cons (kind_ofWord_ne_text _), List.cons_append]
  | case9 c cs single other ih =>
    cases cs with
    | nil =>
      rw [scan] at closed
      cases closed
    | cons d ds =>
      rw [scan_skip_append single other]
      exact ih clean closed

/-- What is in a line is skipped up to its end. -/
theorem nextLine_append_of_line (line : ∀ d ∈ cs, ¬endsLine d) (rest : List Char) :
    nextLine (cs ++ rest) = nextLine rest := by
  unfold nextLine
  rw [List.dropWhile_append_of_pos]
  intro d member
  simp [line d member]

theorem endsLine_iff : endsLine c = true ↔ c = '\n' ∨ c = '\r' := by
  rw [endsLine, Bool.or_eq_true, beq_iff_eq, beq_iff_eq]

theorem nextLine_of_end (stop : endsLine c) (rest : List Char) : nextLine (c :: rest) = rest := by
  unfold nextLine
  rw [List.dropWhile_cons_of_neg (by simp [stop]), List.tail_cons]

variable {text : String}

theorem scan_append_leftMark (inside : EndInTag (scan (.text []) text.toList)) (rest : String) :
    scan (.text []) (text ++ leftMark ++ rest).toList =
      scan (.text []) text.toList ++ strayLeft :: scan (.text []) (nextLine rest.toList) := by
  have left : leftMark.toList = ['{', '{'] := by decide
  have opened : tagOpen (Place.text []).inTag (scan (.text []) text.toList) = true :=
    tagOpen_iff.mpr inside
  rw [String.toList_append, String.toList_append, left, List.append_assoc,
    ← scan_append_left opened]
  rfl

/-- Behind a text without errors that ends outside of tags, a closing pair is stray, and the last
plain text is lost. -/
theorem scan_append_rightMark (clean : ∀ t ∈ scan (.text []) text.toList, t.kind ≠ .error)
    (outside : ¬EndInTag (scan (.text []) text.toList)) (rest : String) :
    scan (.text []) (text ++ rightMark ++ rest).toList =
      withoutLastText (scan (.text []) text.toList) ++ [strayRight] := by
  have right : rightMark.toList = ['}', '}'] := by decide
  have closed : tagOpen (Place.text []).inTag (scan (.text []) text.toList) = false :=
    Bool.not_eq_true _ ▸ mt tagOpen_iff.mp outside
  rw [String.toList_append, String.toList_append, right, List.append_assoc,
    ← scan_append_right clean closed]
  rfl

end Lexer

open Lexer Token

/-- A stray pair of braces is an error that lexing recovers from, or not. Where a text ends inside a
tag, an opening pair costs the rest of its line: what comes behind the line is lexed as a text of
its own, behind the tokens of the first text and the error. Where a text without errors ends outside
of tags, a closing pair ends the tokens, whatever comes behind it: they are those of the text, but
for plain text at its end, and the error. -/
theorem tokenize_stray_pair :
    (∀ text line : String, EndInTag (run (.ofText text)).body →
        '\n' ∉ line.toList → '\r' ∉ line.toList →
        (∀ (c : Char) (rest : String), c = '\n' ∨ c = '\r' →
          tokenize (.ofText (text ++ leftMark ++ line ++ String.singleton c ++ rest)) =
            (tokenize (.ofText rest)).map fun ts => (run (.ofText text)).body ++ strayLeft :: ts) ∧
        tokenize (.ofText (text ++ leftMark ++ line)) =
          .ok ((run (.ofText text)).body ++ [strayLeft, .endOfInput])) ∧
      ∀ text rest : String, (∀ t ∈ (run (.ofText text)).body, t.kind ≠ .error) →
        ¬EndInTag (run (.ofText text)).body →
        tokenize (.ofText (text ++ rightMark ++ rest)) =
          .ok (withoutLastText (run (.ofText text)).body ++ [strayRight, .endOfInput]) := by
  constructor
  · intro text line inside noFeed noReturn
    rw [(run_ofText text).1] at inside ⊢
    have noEnd : ∀ d ∈ line.toList, ¬endsLine d := by
      intro d member ends
      rcases endsLine_iff.mp ends with rfl | rfl
      · exact noFeed member
      · exact noReturn member
    constructor
    · intro c rest stop
      have behind : nextLine (line ++ (String.singleton c ++ rest)).toList = rest.toList := by
        rw [String.toList_append, nextLine_append_of_line noEnd, String.toList_append,
          String.toList_singleton]
        exact nextLine_of_end (endsLine_iff.mpr stop) rest.toList
      rw [tokenize_ofText, tokenize_ofText, String.append_assoc, String.append_assoc,
        scan_append_leftMark inside, behind, List.append_assoc]
      rfl
    · have behind : nextLine line.toList = [] := by
        rw [← List.append_nil line.toList]
        exact nextLine_append_of_line noEnd []
      rw [tokenize_ofText, scan_append_leftMark inside, behind, scan, List.append_assoc]
      rfl
  · intro text rest clean outside
    rw [(run_ofText text).1] at clean outside ⊢
    rw [tokenize_ofText, scan_append_rightMark clean outside, List.append_assoc]
    rfl

/-- A lone brace in front of each pair, an end of a line that is followed by another one, and pairs
behind the one that is closed too early. -/
theorem tokenize_stray_pair_braces :
    tokenize (.ofText ("a\x7b\x7bb\x7b" ++ leftMark ++ "c\x7d\x7d" ++ String.singleton '\r' ++
        "\n\x7b")) =
        .ok [⟨.text, "a"⟩, .left, ⟨.ident, "b"⟩, strayLeft, ⟨.text, "\n\x7b"⟩, .endOfInput] ∧
      tokenize (.ofText ("\x7b\x7ba\x7d\x7db\x7d" ++ rightMark ++ "\x7b\x7bc")) =
        .ok [.left, ⟨.ident, "a"⟩, .right, strayRight, .endOfInput] := by
  have body : (run (.ofText "a\x7b\x7bb\x7b")).body = [⟨.text, "a"⟩, .left, ⟨.ident, "b"⟩] := by
    decide +kernel
  have body' : (run (.ofText "\x7b\x7ba\x7d\x7db\x7d")).body =
      [.left, ⟨.ident, "a"⟩, .right, ⟨.text, "b\x7d"⟩] := by
    decide +kernel
  have rest : tokenize (.ofText "\n\x7b") = .ok [⟨.text, "\n\x7b"⟩, .endOfInput] := by
    rw [tokenize_ofText]
    exact congrArg _ (by decide +kernel)
  constructor
  · obtain ⟨recovers, -⟩ := tokenize_stray_pair.1 "a\x7b\x7bb\x7b" "c\x7d\x7d"
      (by rw [body]; decide) (by decide +kernel) (by decide +kernel)
    rw [recovers '\r' "\n\x7b" (.inr rfl), rest, body]
    rfl
  · have ended := tokenize_stray_pair.2 "\x7b\x7ba\x7d\x7db\x7d" "\x7b\x7bc"
      (by rw [body']; decide) (by rw [body']; decide)
    rw [ended, body']
    rfl

end Stencil
