import Stencil.Proofs.Print

/-!
# Round trips between templates and trees

A well-formed tree is what its template compiles to, and every tree that a template compiles to
is well formed (`compile_print`). The second half starts from what a lexer can send without an
error: texts that hold no delimiter and run into none, and tags of whole words
(`Lexer.Sends`). A grammatical list that yields such tokens is well formed.
-/

namespace Stencil

open Lexer Text

namespace Lexer

/-- What is sent from a place without an error, inside a tag or not. -/
inductive Sends : (inTag : Bool) → List Token → Prop
  | done {inTag : Bool} : Sends inTag []
  | lastText {value : String} : Node.IsText value → Sends false [⟨.text, value⟩]
  | text {value : String} {ts : List Token} :
    Node.IsText value → value.toList.getLast? ≠ some '{' → Sends true ts →
    Sends false (⟨.text, value⟩ :: .left :: ts)
  | left {ts : List Token} : Sends true ts → Sends false (.left :: ts)
  | term {t : Token} {ts : List Token} : t.IsTerm → Sends true ts → Sends true (t :: ts)
  | right {ts : List Token} : Sends false ts → Sends true (.right :: ts)

variable {c : Char} {pending cs : List Char} {ts : List Token}

/-! ## What scanning sends -/

theorem noPair_nil : NoPair [] := by
  simp [NoPair]

theorem noPair_singleton : NoPair [c] :=
  noPair_cons_iff.mpr ⟨by simp [isPair], noPair_nil⟩

theorem isText_of_pending (noPair : NoPair pending) (filled : pending ≠ []) :
    Node.IsText (String.ofList pending.reverse) := by
  constructor
  · intro none
    apply filled
    rw [← String.toList_inj, String.toList_ofList] at none
    simpa using none
  · rw [String.toList_ofList, noPair_reverse_iff]
    exact noPair

theorem Sends.flushed (noPair : NoPair pending) : Sends false (Lexer.flushed pending) := by
  cases pending with
  | nil => exact .done
  | cons c cs => exact .lastText (isText_of_pending noPair nofun)

/-- The brace of a tag makes no pair with the text before it. -/
theorem isText_before_left (noPair : NoPair ('{' :: pending)) (filled : pending ≠ []) :
    Node.IsText (String.ofList pending.reverse) ∧
      (String.ofList pending.reverse).toList.getLast? ≠ some '{' := by
  obtain ⟨single, noPair⟩ := noPair_cons_iff.mp noPair
  refine ⟨isText_of_pending noPair filled, ?_⟩
  rw [String.toList_ofList, List.getLast?_reverse]
  intro last
  exact single (isPair_iff.mpr ⟨.inl rfl, List.head?_eq_some_iff.mp last⟩)

theorem Sends.flushed_left (noPair : NoPair ('{' :: pending)) (more : Sends true ts) :
    Sends false (Lexer.flushed pending ++ .left :: ts) := by
  cases pending with
  | nil => exact .left more
  | cons c cs =>
    obtain ⟨isText, seam⟩ := isText_before_left noPair nofun
    exact .text isText seam more

/-- The word at the front of a tag. -/
theorem isWord_takeWhile (letter : isLetter c) :
    IsWord (String.ofList (c :: cs.takeWhile continuesWord)) := by
  refine ⟨c, cs.takeWhile continuesWord, String.toList_ofList, letter, ?_⟩
  intro d member
  exact List.all_eq_true.mp List.all_takeWhile d member

/-- The text taken so far, and the next character, hold no pair. -/
def Place.Apart : Place → List Char → Prop
  | text pending, cs => NoPair (cs.head?.toList ++ pending)
  | tag, _ => True

/-- Text that is apart from what follows stays so when one more character is pending. -/
theorem Place.Apart.step (single : ¬isPair c cs) (apart : (Place.text pending).Apart (c :: cs)) :
    (Place.text (c :: pending)).Apart cs := by
  cases cs with
  | nil => exact apart
  | cons d cs =>
    refine noPair_cons_iff.mpr ⟨?_, apart⟩
    intro pair
    obtain ⟨brace, rest, same⟩ := isPair_iff.mp pair
    cases same
    exact single (isPair_iff.mpr ⟨brace, cs, rfl⟩)

theorem Place.apart_text_nil : (Place.text []).Apart cs := by
  cases cs with
  | nil => exact noPair_nil
  | cons => exact noPair_singleton

/-- Tokens that a text is scanned to without an error can be sent. -/
theorem sends_scan {place : Place} (apart : place.Apart cs)
    (clean : ∀ t ∈ scan place cs, t.kind ≠ .error) : Sends place.inTag (scan place cs) := by
  fun_induction scan place cs with
  | case1 pending => exact .flushed apart
  | case2 pending cs pair ih =>
    have more := ih trivial fun t member =>
      clean t (List.mem_append_right _ (List.mem_cons_of_mem _ member))
    exact .flushed_left apart more
  | case3 => exact absurd rfl (clean strayRight List.mem_cons_self)
  | case4 pending c cs single ih => exact ih (apart.step single) clean
  | case5 => exact .done
  | case6 => exact absurd rfl (clean strayLeft List.mem_cons_self)
  | case7 c cs pair other ih =>
    exact .right (ih Place.apart_text_nil fun t member => clean t (List.mem_cons_of_mem _ member))
  | case8 c cs single letter ih =>
    have more := ih trivial fun t member => clean t (List.mem_cons_of_mem _ member)
    exact .term (Token.isTerm_ofWord (isWord_takeWhile letter)) more
  | case9 c cs single other ih => exact ih trivial clean

/-! ## Reading back what was sent -/

theorem Sends.of_text {value : String} (sends : Sends false (⟨.text, value⟩ :: ts)) :
    Node.IsText value ∧ Sends false ts ∧
      (ts = [] ∨ value.toList.getLast? ≠ some '{' ∧ ts.head? = some .left) := by
  cases sends with
  | lastText isText => exact ⟨isText, .done, .inl rfl⟩
  | text isText seam more => exact ⟨isText, .left more, .inr ⟨seam, rfl⟩⟩

theorem Sends.of_left (sends : Sends false (.left :: ts)) : Sends true ts := by
  cases sends with
  | left more => exact more

theorem Sends.of_term {t : Token} (sends : Sends true (t :: ts)) (inner : t.Inner) :
    t.IsTerm ∧ Sends true ts := by
  cases sends with
  | term isTerm more => exact ⟨isTerm, more⟩
  | right => exact absurd rfl inner.1

theorem Sends.of_right (sends : Sends true (.right :: ts)) : Sends false ts := by
  cases sends with
  | term isTerm => exact absurd rfl isTerm.inner.1
  | right more => exact more

/-- Between the delimiters of a tag are terms, and behind it is text again. -/
theorem Sends.of_terms {terms : List Token} (sends : Sends true (terms ++ .right :: ts))
    (inner : ∀ t ∈ terms, t.Inner) : (∀ t ∈ terms, t.IsTerm) ∧ Sends false ts := by
  induction terms with
  | nil => exact ⟨nofun, sends.of_right⟩
  | cons t terms ih =>
    obtain ⟨isTerm, sends⟩ := sends.of_term (inner t List.mem_cons_self)
    obtain ⟨others, sends⟩ := ih sends fun u member => inner u (List.mem_cons_of_mem _ member)
    refine ⟨?_, sends⟩
    intro u member
    rcases List.mem_cons.mp member with rfl | member
    · exact isTerm
    · exact others u member

/-- A tag of inner tokens is a tag of terms. -/
theorem Sends.of_tag (terms : List Token)
    (sends : Sends false (.left :: (terms ++ .right :: ts))) (inner : ∀ t ∈ terms, t.Inner) :
    (∀ t ∈ terms, t.IsTerm) ∧ Sends false ts :=
  sends.of_left.of_terms inner

theorem Sends.of_blockHead {condition : List Token}
    (sends : Sends false (Node.blockHead condition ++ ts)) (inner : ∀ t ∈ condition, t.Inner) :
    (∀ t ∈ condition, t.IsTerm) ∧ Sends false ts := by
  have whole : Node.blockHead condition ++ ts =
      .left :: (.ifMark :: condition ++ .right :: ts) := by
    simp [Node.blockHead]
  rw [whole] at sends
  obtain ⟨isTerm, sends⟩ := sends.of_tag _ (List.forall_mem_cons.mpr ⟨by decide, inner⟩)
  exact ⟨fun t member => isTerm t (List.mem_cons_of_mem _ member), sends⟩

theorem isName_of_isTerm {name : String} (isTerm : Token.IsTerm ⟨.ident, name⟩) :
    IsName name := by
  rcases isTerm with ⟨-, isName⟩ | same | same | same
  · exact isName
  · cases same
  · cases same
  · cases same

end Lexer

namespace Node

variable {depth : Int} {followed : Bool} {ns : List Node} {rest : List Token}

/-! ## Trees of templates -/

/-- A grammatical list whose yield was sent is well formed. -/
theorem Grammatical.wellFormed (grammatical : Grammatical depth ns)
    (sends : Sends false (yieldAll ns ++ rest)) (more : followed → rest ≠ []) :
    WellFormedAll depth followed ns ∧ Sends false rest := by
  induction grammatical generalizing followed rest with
  | nil => exact ⟨.nil, sends⟩
  | @text depth value ns grammatical ih =>
    obtain ⟨isText, sends, next⟩ := sends.of_text
    obtain ⟨formed, sends⟩ := ih sends more
    refine ⟨.text isText ?_ ?_ formed, sends⟩
    -- Another text would have been sent as a part of this one.
    · intro other first
      obtain ⟨ms, rfl⟩ := List.head?_eq_some_iff.mp first
      rcases next with none | ⟨-, tag⟩
      · cases none
      · cases tag
    · intro goesOn
      rcases next with none | ⟨seam, -⟩
      · obtain ⟨none, none'⟩ := List.append_eq_nil_iff.mp none
        rcases goesOn with goesOn | some
        · exact absurd none' (more goesOn)
        · exact absurd none (grammatical.yieldAll_ne_nil some)
      · exact seam
  | @ident depth name ns grammatical ih =>
    obtain ⟨isTerm, sends⟩ := Sends.of_tag [⟨.ident, name⟩] sends (by simp [Token.Inner])
    obtain ⟨formed, sends⟩ := ih sends more
    exact ⟨.ident (isName_of_isTerm (isTerm _ List.mem_cons_self)) formed, sends⟩
  | oneBranch shallow some inner _ _ ih ih' =>
    rw [yieldAll, yield_oneBranch] at sends
    simp only [List.append_assoc] at sends
    obtain ⟨isTerm, sends⟩ := sends.of_blockHead inner
    obtain ⟨formed, sends⟩ := ih sends fun _ => List.cons_ne_nil _ _
    obtain ⟨-, sends⟩ := Sends.of_tag [.endMark] sends (by decide)
    obtain ⟨formed', sends⟩ := ih' sends more
    exact ⟨.oneBranch shallow some isTerm formed formed', sends⟩
  | twoBranches shallow some inner _ _ _ ih ih' ih'' =>
    rw [yieldAll, yield_twoBranches] at sends
    simp only [List.append_assoc] at sends
    obtain ⟨isTerm, sends⟩ := sends.of_blockHead inner
    obtain ⟨formed, sends⟩ := ih sends fun _ => List.cons_ne_nil _ _
    obtain ⟨-, sends⟩ := Sends.of_tag [.elseMark] sends (by decide)
    obtain ⟨formed', sends⟩ := ih' sends fun _ => List.cons_ne_nil _ _
    obtain ⟨-, sends⟩ := Sends.of_tag [.endMark] sends (by decide)
    obtain ⟨formed'', sends⟩ := ih'' sends more
    exact ⟨.twoBranches shallow some isTerm formed formed' formed'', sends⟩

end Node

/-- Compiling inverts printing. A well-formed tree is what the template it is printed as
compiles to; and a tree that any text compiles to is well formed, so that printing it gives a
template of the same tree. -/
theorem compile_print :
    (∀ n : Node, n.WellFormed → compile (.ofText n.print) = .ok n) ∧
      ∀ (text : String) (n : Node), compile (.ofText text) = .ok n →
        n.WellFormed ∧ compile (.ofText n.print) = .ok n := by
  constructor
  · intro n formed
    exact formed.compile_eq
  · intro text n compiled
    obtain ⟨ns, rfl, written, grammatical⟩ := compile_eq_ok_iff.mp compiled
    have sends : Sends false (scan (.text []) text.toList) := by
      apply sends_scan Place.apart_text_nil
      rw [written]
      exact grammatical.clean
    rw [written, ← List.append_nil (Node.yieldAll ns)] at sends
    have formed : Node.WellFormed (.list true [] ns) := by
      refine ⟨ns, rfl, (grammatical.wellFormed sends ?_).1⟩
      exact nofun
    exact ⟨formed, formed.compile_eq⟩

/-- Single braces at the borders of texts, a condition of marks, and two branches. -/
theorem compile_print_bordered :
    ∃ n : Node, n.print =
        "\x7d\x7b\x7bif a else end\x7d\x7d\x7b \x7b\x7belse\x7d\x7d" ++
          "\x7b\x7bif_\x7d\x7d\x7b\x7bend\x7d\x7d\x7d\x7b" ∧
      compile (.ofText n.print) = .ok n ∧ n.WellFormed := by
  have condition : ∀ t ∈ [⟨.ident, "a"⟩, Token.elseMark, .endMark], t.IsTerm := by
    have letter : IsWord "a" := isWord_of_all 'a' [] rfl (by decide) (by decide)
    intro t member
    simp only [List.mem_cons, List.not_mem_nil, or_false] at member
    rcases member with rfl | rfl | rfl
    · exact .inl ⟨rfl, letter, by decide⟩
    · exact .inr (.inr (.inl rfl))
    · exact .inr (.inr (.inr rfl))
  have word : IsWord "if_" :=
    isWord_of_all 'i' ['f', '_'] rfl (by decide) (by decide)
  have texts : Node.IsText "\x7d" ∧ Node.IsText "\x7b " ∧ Node.IsText "\x7d\x7b" := by
    simp [Node.IsText, noPair_cons_iff, noPair_nil, isPair]
  obtain ⟨start, branch, last⟩ := texts
  have formed : Node.WellFormed (.list true [] [.text "\x7d",
      .block [⟨.ident, "a"⟩, .elseMark, .endMark]
        (.list false ["before_end", "before_else"] [.text "\x7b "])
        (.list false ["before_end"] [.ident "if_"]),
      .text "\x7d\x7b"]) := by
    refine ⟨_, rfl, .text start (by simp) (by decide) ?_⟩
    refine .twoBranches (by decide) (List.cons_ne_nil _ _) condition ?_ ?_ ?_
    · exact .text branch (by simp) (by decide) .nil
    · exact .ident ⟨word, by decide⟩ .nil
    · exact .text last (by simp) (by decide) .nil
  have compiled := compile_print.1 _ formed
  exact ⟨_, by decide, compiled, (compile_print.2 _ _ compiled).1⟩

end Stencil
