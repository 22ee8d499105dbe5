import Stencil.Proofs.Acceptance

/-!
# Concatenated templates

Where the seam of two templates forms no pair of braces, compiling them one behind the other is
compiling them one by one: the nodes of the first come first, then those of the second, and
only two texts that meet at the seam become one (`compile_append`).

Such a junction of two lists is `join`, for tokens and for nodes. The scanner is back in plain
text at the seam, since the first template closes every tag it opens; only the text that is
then pending meets the second template, and it is sent in front of it (`Lexer.scan_pending`).
-/

namespace Stencil

/-- One list behind another, where the elements that meet may merge. -/
def join {α : Type} (merge : α → α → Option α) : List α → List α → List α
  | [], ys => ys
  | [x], [] => [x]
  | [x], y :: ys =>
    match merge x y with
    | some z => z :: ys
    | none => x :: y :: ys
  | x :: x' :: xs, ys => x :: join merge (x' :: xs) ys

section Join

variable {α : Type} {merge : α → α → Option α} {x : α} {xs ys zs : List α}

theorem join_cons_of_ne_nil (more : xs ≠ []) : join merge (x :: xs) ys = x :: join merge xs ys := by
  cases xs with
  | nil => exact absurd rfl more
  | cons => rfl

/-- An element that merges with nothing stays as it is. -/
theorem join_cons_of_merge (apart : ∀ y, merge x y = none) :
    join merge (x :: xs) ys = x :: join merge xs ys := by
  cases xs with
  | nil =>
    cases ys with
    | nil => rfl
    | cons y ys => simp only [join, apart]
  | cons => rfl

theorem join_append (more : ys ≠ []) : join merge (xs ++ ys) zs = xs ++ join merge ys zs := by
  induction xs with
  | nil => rfl
  | cons x xs ih =>
    have more' : xs ++ ys ≠ [] := fun none => more (List.append_eq_nil_iff.mp none).2
    rw [List.cons_append, join_cons_of_ne_nil more', ih, List.cons_append]

end Join

/-- Two tokens of plain text that meet are one. -/
def Token.merge : Token → Token → Option Token
  | ⟨.text, front⟩, ⟨.text, back⟩ => some ⟨.text, front ++ back⟩
  | _, _ => none

/-- Two texts that meet are one. -/
def Node.merge : Node → Node → Option Node
  | .text front, .text back => some (.text (front ++ back))
  | _, _ => none

theorem Token.merge_eq_none {t : Token} (other : t.kind ≠ .text) (u : Token) :
    t.merge u = none := by
  unfold merge
  split
  · exact absurd rfl other
  · rfl

/-! ## The scanner at the seam -/

namespace Lexer

open Text

variable {c : Char} {pending cs ds : List Char} {ts : List Token}

/-- Text that is pending before other text is one text with it. -/
theorem flushed_append (pending' pending : List Char)
    (tag : ts = [] ∨ ∃ ts', ts = .left :: ts') :
    flushed (pending' ++ pending) ++ ts =
      join Token.merge (flushed pending) (flushed pending' ++ ts) := by
  cases pending with
  | nil => simp [flushed, join]
  | cons c cs =>
    cases pending' with
    | nil => rcases tag with rfl | ⟨ts', rfl⟩ <;> rfl
    | cons d ds => simp [flushed, join, Token.merge, ← String.ofList_append]

/-- What is pending is sent in front of all that follows. -/
theorem scan_pending (pending' pending : List Char)
    (clean : ∀ t ∈ scan (.text pending') cs, t.kind ≠ .error) :
    scan (.text (pending' ++ pending)) cs =
      join Token.merge (flushed pending) (scan (.text pending') cs) := by
  induction cs generalizing pending' with
  | nil =>
    have whole := flushed_append pending' pending (.inl rfl)
    rw [List.append_nil, List.append_nil] at whole
    rw [scan, scan, whole]
  | cons c cs ih =>
    by_cases pair : isPair c cs
    · obtain ⟨rfl | rfl, rest, rfl⟩ := isPair_iff.mp pair
      · rw [scan_left, scan_left, flushed_append pending' pending (.inr ⟨_, rfl⟩)]
      · rw [scan, if_pos pair, if_neg (by decide)] at clean
        exact absurd rfl (clean strayRight List.mem_cons_self)
    · rw [scan_single pair] at clean ⊢
      rw [scan_single pair]
      exact ih (c :: pending') clean

/-- Nothing at the seam turns a brace into one of a pair: not a brace at the end of the first
characters, and not one at the end of the text that is sent last. -/
structure Seam (cs : List Char) (ts : List Token) (ds : List Char) : Prop where
  left : cs.getLast? = some '{' → ds.head? ≠ some '{'
  right : ∀ value, ts.getLast? = some ⟨.text, value⟩ → value.toList.getLast? = some '}' →
    ds.head? ≠ some '}'

theorem getLast?_of_suffix {α : Type} {xs ys : List α} {x : α} (suffix : xs <:+ ys)
    (last : xs.getLast? = some x) : ys.getLast? = some x := by
  obtain ⟨front, rfl⟩ := suffix
  rw [List.getLast?_append, last]
  rfl

theorem Seam.of_suffix {ts' : List Token} {cs' : List Char} (seam : Seam cs ts ds)
    (chars : cs' <:+ cs) (tokens : ts' <:+ ts) : Seam cs' ts' ds where
  left last := seam.left (getLast?_of_suffix chars last)
  right value last := seam.right value (getLast?_of_suffix tokens last)

/-- A character of the first text is no brace of a pair in both texts. -/
theorem Seam.single (seam : Seam (c :: cs) (scan (.text (c :: pending)) cs) ds)
    (single : ¬isPair c cs) : ¬isPair c (cs ++ ds) := by
  cases cs with
  | cons d cs => exact single
  | nil =>
    intro pair
    obtain ⟨rfl | rfl, rest, rfl⟩ := isPair_iff.mp pair
    · exact seam.left rfl rfl
    -- A closing brace at the end of the characters is the end of the text sent last.
    · rw [scan] at seam
      refine seam.right _ rfl ?_ rfl
      rw [String.toList_ofList, List.getLast?_reverse, List.head?_cons]

end Lexer

/-- Whether a tag is open behind the tokens, if one is open before them or not. -/
def Token.inTag (start : Bool) (ts : List Token) : Bool :=
  ts.foldl (fun inside t =>
    match t.kind with
    | .leftMeta => true
    | .rightMeta => false
    | _ => inside) start

namespace Token

variable {start : Bool} {ts ts' : List Token}

@[simp] theorem inTag_append : inTag start (ts ++ ts') = inTag (inTag start ts) ts' :=
  List.foldl_append

@[simp] theorem inTag_left : inTag start (.left :: ts) = inTag true ts :=
  rfl

@[simp] theorem inTag_right : inTag start (.right :: ts) = inTag false ts :=
  rfl

theorem inTag_ofWord (word : String) : inTag start (.ofWord word :: ts) = inTag start ts := by
  rcases ofWord_cases word with ⟨-, same⟩ | ⟨-, same⟩ | ⟨-, same⟩ | ⟨-, same⟩ <;> rw [same] <;>
    rfl

theorem kind_ofWord_ne_text (word : String) : (ofWord word).kind ≠ .text := by
  rcases ofWord_cases word with ⟨-, same⟩ | ⟨-, same⟩ | ⟨-, same⟩ | ⟨-, same⟩ <;> rw [same] <;>
    exact nofun

end Token

namespace Lexer

open Text

variable {c : Char} {pending cs ds : List Char}

/-- Inside a tag that is closed later, there is a character ahead. -/
theorem ne_nil_of_closed (closed : Token.inTag true (scan .tag cs) = false) : cs ≠ [] := by
  rintro rfl
  rw [scan] at closed
  cases closed

/-- A word that ends before the seam is the same word without what is behind the seam. -/
theorem span_append (ds : List Char) (ends : cs.dropWhile continuesWord ≠ []) :
    (cs ++ ds).takeWhile continuesWord = cs.takeWhile continuesWord ∧
      (cs ++ ds).dropWhile continuesWord = cs.dropWhile continuesWord ++ ds := by
  constructor
  · rw [List.takeWhile_append, if_neg]
    intro full
    have whole := List.takeWhile_append_dropWhile (p := continuesWord) (l := cs)
    have lengths := congrArg List.length whole
    rw [List.length_append, full] at lengths
    exact ends (List.eq_nil_of_length_eq_zero (by omega))
  · rw [List.dropWhile_append, if_neg]
    rw [List.isEmpty_iff]
    exact ends

/-- Scanning on behind the seam starts afresh. -/
theorem scan_append {place : Place} (clean : ∀ t ∈ scan place cs, t.kind ≠ .error)
    (closed : Token.inTag place.inTag (scan place cs) = false)
    (seam : Seam cs (scan place cs) ds)
    (clean' : ∀ t ∈ scan (.text []) ds, t.kind ≠ .error) :
    scan place (cs ++ ds) = join Token.merge (scan place cs) (scan (.text []) ds) := by
  fun_induction scan place cs with
  | case1 pending =>
    rw [List.nil_append]
    exact scan_pending [] pending clean'
  | case2 pending cs pair ih =>
    obtain ⟨-, rest, rfl⟩ := isPair_iff.mp pair
    rw [Token.inTag_append, Token.inTag_left] at closed
    have more := ih (fun t member =>
      clean t (List.mem_append_right _ (List.mem_cons_of_mem _ member))) closed
      (seam.of_suffix ⟨['{', '{'], rfl⟩ ⟨flushed pending ++ [.left], by simp⟩)
    rw [List.cons_append, List.cons_append, scan_left, join_append (List.cons_ne_nil _ _),
      join_cons_of_merge (Token.merge_eq_none (by decide))]
    exact congrArg (fun ts => flushed pending ++ .left :: ts) more
  | case3 => exact absurd rfl (clean strayRight List.mem_cons_self)
  | case4 pending c cs single ih =>
    rw [List.cons_append, scan_single (seam.single single)]
    exact ih clean closed (seam.of_suffix (List.suffix_cons _ _) List.suffix_rfl)
  | case5 => cases closed
  | case6 => exact absurd rfl (clean strayLeft List.mem_cons_self)
  | case7 c cs pair other ih =>
    obtain ⟨brace, rest, rfl⟩ := isPair_iff.mp pair
    obtain rfl : c = '}' := brace.resolve_left other
    rw [Token.inTag_right] at closed
    have more := ih (fun t member => clean t (List.mem_cons_of_mem _ member)) closed
      (seam.of_suffix ⟨['}', '}'], rfl⟩ (List.suffix_cons _ _))
    rw [List.cons_append, List.cons_append, scan_right,
      join_cons_of_merge (Token.merge_eq_none (by decide))]
    exact congrArg (.right :: ·) more
  | case8 c cs single letter ih =>
    -- The tag is closed later, so the word has ended before the seam.
    rw [Place.inTag, Token.inTag_ofWord] at closed
    have suffix := (List.dropWhile_suffix continuesWord).trans (List.suffix_cons c cs)
    have more := ih (fun t member => clean t (List.mem_cons_of_mem _ member)) closed
      (seam.of_suffix suffix (List.suffix_cons _ _))
    obtain ⟨taken, left⟩ := span_append ds (ne_nil_of_closed closed)
    rw [List.cons_append, scan_letter letter, taken, left, more,
      join_cons_of_merge (Token.merge_eq_none (Token.kind_ofWord_ne_text _))]
  | case9 c cs single other ih =>
    have more := ih clean closed (seam.of_suffix (List.suffix_cons _ _) List.suffix_rfl)
    have single' : ¬isPair c (cs ++ ds) := by
      cases cs with
      | nil => exact absurd rfl (ne_nil_of_closed closed)
      | cons d cs => exact single
    rw [List.cons_append, scan_skip single' other, more]

end Lexer

/-! ## Trees at the seam -/

namespace Node

variable {depth : Int} {ns ms : List Node} {ts us : List Token}

theorem merge_eq_none {n : Node} (other : ∀ value, n ≠ .text value) (m : Node) :
    n.merge m = none := by
  unfold merge
  split
  · exact absurd rfl (other _)
  · rfl

theorem inTag_blockHead (start : Bool) (condition : List Token) :
    Token.inTag start (blockHead condition) = false := by
  change Token.inTag start ((.left :: .ifMark :: condition) ++ [.right]) = false
  rw [Token.inTag_append]
  rfl

/-- A grammatical list closes every tag that it opens. -/
theorem Grammatical.inTag (grammatical : Grammatical depth ns) :
    Token.inTag false (yieldAll ns) = false := by
  have endTag : Token.inTag false Token.endTag = false := rfl
  have elseTag : Token.inTag false Token.elseTag = false := rfl
  induction grammatical with
  | nil => rfl
  | text _ ih => exact ih
  | ident _ ih => exact ih
  | oneBranch _ _ _ _ _ ih ih' =>
    rw [yieldAll, yield_oneBranch]
    simp only [Token.inTag_append, inTag_blockHead, ih, endTag, ih']
  | twoBranches _ _ _ _ _ _ ih ih' ih'' =>
    rw [yieldAll, yield_twoBranches]
    simp only [Token.inTag_append, inTag_blockHead, ih, elseTag, ih', endTag, ih'']

/-- Grammatical lists are joined to a grammatical list. -/
theorem Grammatical.join (first : Grammatical depth ns) (second : Grammatical depth ms) :
    Grammatical depth (join Node.merge ns ms) := by
  induction first with
  | nil => exact second
  | @text _ value ns first ih =>
    cases ns with
    | cons n ns => exact .text (ih second)
    | nil =>
      cases second with
      | nil => exact .text .nil
      | text second => exact .text second
      | ident second => exact .text (.ident second)
      | oneBranch shallow some inner branch second =>
        exact .text (.oneBranch shallow some inner branch second)
      | twoBranches shallow some inner branch branch' second =>
        exact .text (.twoBranches shallow some inner branch branch' second)
  | ident _ ih =>
    rw [join_cons_of_merge (merge_eq_none (by simp))]
    exact .ident (ih second)
  | oneBranch shallow some inner branch _ _ ih =>
    rw [join_cons_of_merge (merge_eq_none (by simp))]
    exact .oneBranch shallow some inner branch (ih second)
  | twoBranches shallow some inner branch branch' _ _ _ ih =>
    rw [join_cons_of_merge (merge_eq_none (by simp))]
    exact .twoBranches shallow some inner branch branch' (ih second)

/-- Nothing merges with the end of a tag. -/
theorem join_of_right (closed : us.getLast? = some .right) :
    Stencil.join Token.merge (us ++ ts) ts' = us ++ Stencil.join Token.merge ts ts' := by
  obtain ⟨front, rfl⟩ := List.getLast?_eq_some_iff.mp closed
  rw [List.append_assoc, List.singleton_append, join_append (List.cons_ne_nil _ _),
    join_cons_of_merge (Token.merge_eq_none (by decide)), List.append_assoc,
    List.singleton_append]

/-- A node that ends with a tag stays apart from what meets it. -/
theorem yieldAll_join_cons {n : Node} (other : ∀ value, n ≠ .text value)
    (closed : (yield n).getLast? = some .right)
    (more : yieldAll (Stencil.join Node.merge ns ms) =
      Stencil.join Token.merge (yieldAll ns) (yieldAll ms)) :
    yieldAll (Stencil.join Node.merge (n :: ns) ms) =
      Stencil.join Token.merge (yieldAll (n :: ns)) (yieldAll ms) := by
  rw [join_cons_of_merge (merge_eq_none other), yieldAll, yieldAll, join_of_right closed, more]

/-- The yield of joined lists is their yields, joined. -/
theorem Grammatical.yieldAll_join (first : Grammatical depth ns)
    (second : Grammatical depth ms) :
    yieldAll (Stencil.join Node.merge ns ms) =
      Stencil.join Token.merge (yieldAll ns) (yieldAll ms) := by
  induction first with
  | nil => rfl
  | @text _ value ns first ih =>
    cases ns with
    | cons n ns =>
      have more := first.yieldAll_ne_nil (List.cons_ne_nil _ _)
      have written : ∀ ks, yieldAll (.text value :: ks) = ⟨.text, value⟩ :: yieldAll ks :=
        fun _ => rfl
      rw [join_cons_of_ne_nil (List.cons_ne_nil _ _), written, written, join_cons_of_ne_nil more,
        ih second]
    | nil =>
      cases second with
      | _ => rfl
  | ident _ ih => exact yieldAll_join_cons (by simp) rfl (ih second)
  | oneBranch _ _ _ _ _ _ ih =>
    refine yieldAll_join_cons (by simp) ?_ (ih second)
    simp [yield_oneBranch, Token.endTag]
  | twoBranches _ _ _ _ _ _ _ _ ih =>
    refine yieldAll_join_cons (by simp) ?_ (ih second)
    simp [yield_twoBranches, Token.endTag]

end Node

/-- Compiling one template behind another gives the nodes of both. A brace that ends the first
must not pair with one that starts the second, an opening one wherever it is, a closing one as
part of the text that is the last token. Two texts that meet are then one, and nothing else in
either template depends on the other. -/
theorem compile_append {a b : String} {m n : Node}
    (first : compile (.ofText a) = .ok m) (second : compile (.ofText b) = .ok n)
    (left : ¬(a.toList.getLast? = some '{' ∧ b.toList.head? = some '{'))
    (right : ∀ value, (Lexer.run (.ofText a)).body.getLast? = some ⟨.text, value⟩ →
      ¬(value.toList.getLast? = some '}' ∧ b.toList.head? = some '}')) :
    compile (.ofText (a ++ b)) =
      .ok (.list true [] (join Node.merge m.children n.children)) := by
  obtain ⟨ns, rfl, written, grammatical⟩ := compile_eq_ok_iff.mp first
  obtain ⟨ms, rfl, written', grammatical'⟩ := compile_eq_ok_iff.mp second
  rw [(Lexer.run_ofText a).1] at right
  have seam : Lexer.Seam a.toList (Lexer.scan (.text []) a.toList) b.toList :=
    ⟨fun last first => left ⟨last, first⟩,
      fun value last closing first => right value last ⟨closing, first⟩⟩
  have scanned : Lexer.scan (.text []) (a.toList ++ b.toList) =
      join Token.merge (Lexer.scan (.text []) a.toList) (Lexer.scan (.text []) b.toList) := by
    apply Lexer.scan_append _ _ seam
    · rw [written']
      exact grammatical'.clean
    · rw [written]
      exact grammatical.clean
    · rw [written]
      exact grammatical.inTag
  rw [compile_eq_ok_iff]
  refine ⟨_, rfl, ?_, grammatical.join grammatical'⟩
  rw [String.toList_append, scanned, written, written']
  exact (grammatical.yieldAll_join grammatical').symm

/-- A closing brace may follow a tag, and then meets more text. -/
theorem compile_append_brace :
    compile (.ofText ("\x7b\x7bx\x7d\x7d" ++ "\x7dy")) =
      .ok (.list true [] [.ident "x", .text "\x7dy"]) := by
  have letter : Text.isLetter 'x' := by decide
  have other : Lexer.continuesWord '}' = false := by decide
  have tag : Lexer.scan (.text []) "\x7b\x7bx\x7d\x7d".toList =
      [.left, ⟨.ident, "x"⟩, .right] := by
    have chars : "\x7b\x7bx\x7d\x7d".toList = ['{', '{', 'x', '}', '}'] := by decide
    rw [chars, Lexer.scan_left, Lexer.scan_letter letter]
    simp only [List.takeWhile_cons, List.dropWhile_cons, other, Bool.false_eq_true, if_false]
    rw [Lexer.scan_right, Lexer.scan]
    rfl
  have text : Lexer.scan (.text []) "\x7dy".toList = [⟨.text, "\x7dy"⟩] := by
    have chars : "\x7dy".toList = ['}', 'y'] := by decide
    rw [chars, Lexer.scan_single (by decide), Lexer.scan_single (by decide), Lexer.scan]
    rfl
  have first := compile_eq_ok_iff.mpr ⟨[.ident "x"], rfl, tag, .ident .nil⟩
  have second := compile_eq_ok_iff.mpr ⟨[.text "\x7dy"], rfl, text, .text .nil⟩
  refine compile_append first second (by decide) ?_
  rw [(Lexer.run_ofText _).1, tag]
  rintro value ⟨⟩

end Stencil
