import Stencil.Node.Display
import Stencil.Proofs.Quoting
import Stencil.Proofs.RoundTrip

/-!
# Displays of trees

Two templates have one display exactly if they compile to one tree (`display_eq_iff_of_compile`).
This is a property of the trees of templates: a condition is displayed without quotes, so that it
can be told from what stands behind it only because its words hold no brace.

`Node.Shows` is the grammar of displays, with one rule for each kind of item and what stands
behind the items kept along. A well-formed list is displayed by it (`Node.WellFormedAll.shows`),
and it can be read in one way only, up to the bracket behind the items (`Node.Shows.inj`).
-/

namespace Stencil

open Lexer Text

variable {as bs cs ds xs ys : List Char}

/-! ## Where a part ends -/

/-- Texts that differ at a place that both have differ whatever stands behind them. -/
theorem append_ne_of_zip (differ : (as.zip bs).any fun p => p.1 != p.2) : as ++ xs ≠ bs ++ ys := by
  induction as generalizing bs with
  | nil => cases differ
  | cons a as ih =>
    cases bs with
    | nil => cases differ
    | cons b bs =>
      intro same
      obtain ⟨rfl, more⟩ := List.cons.inj same
      rw [List.zip_cons_cons, List.any_cons, bne_self_eq_false, Bool.false_or] at differ
      exact ih differ more

/-- What holds no separator ends where the separator comes. -/
theorem append_inj_of_not_mem {mark : Char} (apart : mark ∉ cs) (apart' : mark ∉ ds)
    (next : xs.head? = some mark) (next' : ys.head? = some mark) (same : cs ++ xs = ds ++ ys) :
    cs = ds ∧ xs = ys := by
  obtain ⟨xs, rfl⟩ := List.head?_eq_some_iff.mp next
  obtain ⟨ys, rfl⟩ := List.head?_eq_some_iff.mp next'
  induction cs generalizing ds with
  | nil =>
    cases ds with
    | nil => exact ⟨rfl, same⟩
    | cons d ds =>
      obtain ⟨rfl, -⟩ := List.cons.inj same
      exact absurd List.mem_cons_self apart'
  | cons c cs ih =>
    cases ds with
    | nil =>
      obtain ⟨rfl, -⟩ := List.cons.inj same
      exact absurd List.mem_cons_self apart
    | cons d ds =>
      obtain ⟨rfl, more⟩ := List.cons.inj same
      obtain ⟨rfl, behind⟩ := ih (fun member => apart (List.mem_cons_of_mem _ member))
        (fun member => apart' (List.mem_cons_of_mem _ member)) more
      exact ⟨rfl, behind⟩

theorem comma_not_mem_repr (n : Nat) : ',' ∉ n.repr.toList := by
  intro member
  rw [Nat.toList_repr] at member
  have digit := Nat.isDigit_of_mem_toDigits (by decide) (by decide) member
  cases digit

/-- What starts a label starts the label with something behind it. -/
theorem head?_label {label : String} {c : Char} (first : label.toList.head? = some c) :
    (label.toList ++ xs).head? = some c := by
  rw [List.head?_append, first]
  rfl

/-! ## Conditions -/

theorem Lexer.IsWord.brace_not_mem {word : String} (isWord : IsWord word) : '}' ∉ word.toList := by
  obtain ⟨c, cs, chars, letter, inside⟩ := isWord
  rw [chars]
  intro member
  rcases List.mem_cons.mp member with rfl | member
  · exact not_brace_of_isLetter letter (.inr rfl)
  · have brace := inside '}' member
    revert brace
    decide

namespace Token

variable {t u : Token} {ts us : List Token}

theorem colon_not_mem_label (k : TokenKind) : ':' ∉ k.label.toList := by
  have labels : ∀ k ∈ TokenKind.all, ':' ∉ k.label.toList := by decide
  exact labels k k.mem_all

theorem toList_render (t : Token) :
    t.render.toList ++ xs =
      '{' :: (t.kind.label.toList ++ ':' :: ' ' :: (t.value.toList ++ '}' :: xs)) := by
  have literals : "\x7b".toList = ['{'] ∧ ": ".toList = [':', ' '] ∧ "\x7d".toList = ['}'] := by
    decide
  simp [render, literals]

/-- The value of a term ends at the brace, and it tells the kind. -/
theorem IsTerm.render_append_inj (isTerm : t.IsTerm) (isTerm' : u.IsTerm)
    (same : t.render.toList ++ xs = u.render.toList ++ ys) : t = u ∧ xs = ys := by
  rw [toList_render, toList_render] at same
  obtain ⟨-, same⟩ := append_inj_of_not_mem (colon_not_mem_label _) (colon_not_mem_label _) rfl rfl
    (List.cons.inj same).2
  obtain ⟨value, behind⟩ := append_inj_of_not_mem isTerm.isWord.brace_not_mem
    isTerm'.isWord.brace_not_mem rfl rfl (List.cons.inj (List.cons.inj same).2).2
  refine ⟨?_, (List.cons.inj behind).2⟩
  rw [← isTerm.ofWord_value, ← isTerm'.ofWord_value, String.toList_inj.mp value]

/-- Tokens behind the first one, with a blank before each. -/
def trail (ts : List Token) : List Char :=
  ts.flatMap fun t => ' ' :: t.render.toList

theorem toList_renderAll_cons (t : Token) (ts : List Token) :
    (renderAll " " (t :: ts)).toList = t.render.toList ++ trail ts := by
  induction ts generalizing t with
  | nil => rw [renderAll, List.map_singleton, String.intercalate_singleton, trail,
      List.flatMap_nil, List.append_nil]
  | cons u us ih =>
    have blank : " ".toList = [' '] := by decide
    have whole := ih u
    rw [renderAll, List.map_cons] at whole
    rw [renderAll, List.map_cons, List.map_cons, String.intercalate_cons_cons,
      String.toList_append, String.toList_append, whole, blank, trail, trail, List.flatMap_cons,
      List.append_assoc]
    rfl

/-- Tokens in a list of tokens are read back up to the bracket that closes it. -/
theorem trail_append_inj (isTerm : ∀ t ∈ ts, t.IsTerm) (isTerm' : ∀ t ∈ us, t.IsTerm)
    (next : xs.head? = some ']') (next' : ys.head? = some ']')
    (same : trail ts ++ xs = trail us ++ ys) : ts = us ∧ xs = ys := by
  induction ts generalizing us with
  | nil =>
    cases us with
    | nil => exact ⟨rfl, same⟩
    | cons u us =>
      obtain rfl : xs = _ := same
      cases next
  | cons t ts ih =>
    cases us with
    | nil =>
      obtain rfl : _ = ys := same
      cases next'
    | cons u us =>
      obtain ⟨first, others⟩ := List.forall_mem_cons.mp isTerm
      obtain ⟨first', others'⟩ := List.forall_mem_cons.mp isTerm'
      simp only [trail, List.flatMap_cons, List.cons_append, List.append_assoc] at same
      obtain ⟨rfl, more⟩ := first.render_append_inj first' (List.cons.inj same).2
      obtain ⟨rfl, behind⟩ := ih others others' more
      exact ⟨rfl, behind⟩

/-- A condition ends at the bracket behind it. -/
theorem renderAll_append_inj (some : ts ≠ []) (some' : us ≠ []) (isTerm : ∀ t ∈ ts, t.IsTerm)
    (isTerm' : ∀ t ∈ us, t.IsTerm) (next : xs.head? = .some ']') (next' : ys.head? = .some ']')
    (same : (renderAll " " ts).toList ++ xs = (renderAll " " us).toList ++ ys) :
    ts = us ∧ xs = ys := by
  obtain ⟨t, ts, rfl⟩ := List.exists_cons_of_ne_nil some
  obtain ⟨u, us, rfl⟩ := List.exists_cons_of_ne_nil some'
  obtain ⟨first, others⟩ := List.forall_mem_cons.mp isTerm
  obtain ⟨first', others'⟩ := List.forall_mem_cons.mp isTerm'
  rw [toList_renderAll_cons, toList_renderAll_cons, List.append_assoc, List.append_assoc] at same
  obtain ⟨rfl, more⟩ := first.render_append_inj first' same
  obtain ⟨rfl, behind⟩ := trail_append_inj others others' next next' more
  exact ⟨rfl, behind⟩

end Token

namespace Node

/-! ## The grammar of displays -/

/-- A block from its condition up to what is in its first branch. -/
def blockStart (condition : List Token) (size : Nat) : List Char :=
  (Token.renderAll " " condition).toList ++ ("] true:[list (false, ".toList ++
    (size.repr.toList ++ ", [before_end, before_else]): [".toList))

/-- `Shows ns cs rest`: the items are displayed as `cs`, up to `rest`. What stands behind a branch
is part of the premise on the branch. -/
inductive Shows : List Node → (cs rest : List Char) → Prop
  | nil {rest : List Char} : Shows [] rest rest
  | text {value : String} {ns : List Node} {cs rest : List Char} :
    Shows ns cs rest →
    Shows (.text value :: ns)
      ("[text: ".toList ++ (JsonString.encode value.toList ++ ("]".toList ++ cs))) rest
  | ident {name : String} {ns : List Node} {cs rest : List Char} :
    Shows ns cs rest →
    Shows (.ident name :: ns)
      ("[ident: ".toList ++ (JsonString.encode name.toList ++ ("]".toList ++ cs))) rest
  | oneBranch {condition : List Token} {ts ns : List Node} {cs ds rest : List Char} :
    condition ≠ [] → (∀ t ∈ condition, t.IsTerm) →
    Shows ts ds ("]] false:nil]".toList ++ cs) → Shows ns cs rest →
    Shows (.block condition (.list false Parser.firstEnd ts) .absent :: ns)
      ("[if cond:[".toList ++ (blockStart condition ts.length ++ ds)) rest
  | twoBranches {condition : List Token} {ts fs ns : List Node} {cs ds es rest : List Char} :
    condition ≠ [] → (∀ t ∈ condition, t.IsTerm) →
    Shows ts ds ("]] false:[list (false, ".toList ++ (fs.length.repr.toList ++
      (", [before_end]): [".toList ++ es))) →
    Shows fs es ("]]]".toList ++ cs) → Shows ns cs rest →
    Shows (.block condition (.list false Parser.firstEnd ts)
        (.list false Grammar.secondBranchEnd fs) :: ns)
      ("[if cond:[".toList ++ (blockStart condition ts.length ++ ds)) rest

variable {depth : Int} {followed : Bool} {ns ms : List Node} {rest rest' : List Char}

/-! ## What is displayed -/

variable {ts fs : List Node} {body body' : List String}

theorem displayAll_cons {n : Node} {item : String} (shown : display n = .ok item)
    (shown' : displayAll ns = .ok body) : displayAll (n :: ns) = .ok (item :: body) := by
  rw [displayAll, shown, shown']
  rfl

theorem display_branch {names : List String} (shown : displayAll ts = .ok body) :
    display (.list false names ts) =
      .ok ("[list (false, " ++ ts.length.repr ++ (", [" ++ ", ".intercalate names ++ "]): [") ++
        String.join body ++ "]]") := by
  rw [display, shown]
  apply congrArg Except.ok
  have start : "[list (" ++ "false" ++ ", " = "[list (false, " := by decide
  simp only [if_neg Bool.false_ne_true, start, String.append_assoc]
  rfl

theorem display_oneBranch (condition : List Token) (shown : displayAll ts = .ok body) :
    display (.block condition (.list false Parser.firstEnd ts) .absent) =
      .ok ("[if cond:[" ++ Token.renderAll " " condition ++ "] true:[list (false, " ++
        ts.length.repr ++ ", [before_end, before_else]): [" ++ String.join body ++
        "]] false:nil]") := by
  rw [display, display_branch shown, display]
  apply congrArg Except.ok
  have first : "] true:[list (false, " = "] true:" ++ "[list (false, " := by decide
  have names : ", [before_end, before_else]): [" =
      ", [" ++ ", ".intercalate Parser.firstEnd ++ "]): [" := by decide
  have last : "]] false:nil]" = "]]" ++ (" false:" ++ ("nil" ++ "]")) := by decide
  simp only [first, names, last, String.append_assoc]

theorem display_twoBranches (condition : List Token) (shown : displayAll ts = .ok body)
    (shown' : displayAll fs = .ok body') :
    display (.block condition (.list false Parser.firstEnd ts)
        (.list false Grammar.secondBranchEnd fs)) =
      .ok ("[if cond:[" ++ Token.renderAll " " condition ++ "] true:[list (false, " ++
        ts.length.repr ++ ", [before_end, before_else]): [" ++ String.join body ++
        "]] false:[list (false, " ++ fs.length.repr ++ ", [before_end]): [" ++
        String.join body' ++ "]]]") := by
  rw [display, display_branch shown, display_branch shown']
  apply congrArg Except.ok
  have first : "] true:[list (false, " = "] true:" ++ "[list (false, " := by decide
  have names : ", [before_end, before_else]): [" =
      ", [" ++ ", ".intercalate Parser.firstEnd ++ "]): [" := by decide
  have second : "]] false:[list (false, " = "]]" ++ (" false:" ++ "[list (false, ") := by decide
  have names' : ", [before_end]): [" =
      ", [" ++ ", ".intercalate Grammar.secondBranchEnd ++ "]): [" := by decide
  have last : "]]]" = "]]" ++ "]" := by decide
  simp only [first, names, second, names', last, String.append_assoc]

/-- A well-formed list is displayed by the grammar, whatever stands behind it. -/
theorem WellFormedAll.shows (formed : WellFormedAll depth followed ns) :
    ∃ body, displayAll ns = .ok body ∧
      ∀ rest, Shows ns ((String.join body).toList ++ rest) rest := by
  induction formed with
  | nil => exact ⟨[], rfl, fun rest => .nil⟩
  | @text depth followed value ns _ _ _ _ ih =>
    obtain ⟨body, shown, shows⟩ := ih
    refine ⟨_, displayAll_cons (by rw [display]) shown, fun rest => ?_⟩
    have item : Shows (.text value :: ns) _ rest := .text (shows rest)
    simp only [String.join_cons, JsonString.quote, String.toList_append, String.toList_ofList,
      List.append_assoc] at item ⊢
    exact item
  | @ident depth followed name ns _ _ ih =>
    obtain ⟨body, shown, shows⟩ := ih
    refine ⟨_, displayAll_cons (by rw [display]) shown, fun rest => ?_⟩
    have item : Shows (.ident name :: ns) _ rest := .ident (shows rest)
    simp only [String.join_cons, JsonString.quote, String.toList_append, String.toList_ofList,
      List.append_assoc] at item ⊢
    exact item
  | oneBranch _ some isTerm _ _ ih ih' =>
    obtain ⟨branch, shown, shows⟩ := ih
    obtain ⟨body, shown', shows'⟩ := ih'
    refine ⟨_, displayAll_cons (display_oneBranch _ shown) shown', fun rest => ?_⟩
    have item := Shows.oneBranch some isTerm (shows _) (shows' rest)
    simp only [String.join_cons, blockStart, String.toList_append, List.append_assoc] at item ⊢
    exact item
  | twoBranches _ some isTerm _ _ _ ih ih' ih'' =>
    obtain ⟨branch, shown, shows⟩ := ih
    obtain ⟨branch', shown', shows'⟩ := ih'
    obtain ⟨body, shown'', shows''⟩ := ih''
    refine ⟨_, displayAll_cons (display_twoBranches _ shown shown') shown'', fun rest => ?_⟩
    have item := Shows.twoBranches some isTerm (shows _) (shows' _) (shows'' rest)
    simp only [String.join_cons, blockStart, String.toList_append, List.append_assoc] at item ⊢
    exact item

/-! ## Reading a display -/

/-- A number ends where the terminators of its list are named. -/
theorem repr_append_inj {n m : Nat} {names : String} (comma : names.toList.head? = some ',')
    (same : n.repr.toList ++ (names.toList ++ xs) = m.repr.toList ++ (names.toList ++ ys)) :
    xs = ys := by
  obtain ⟨-, behind⟩ := append_inj_of_not_mem (comma_not_mem_repr n) (comma_not_mem_repr m)
    (head?_label comma) (head?_label comma) same
  exact List.append_cancel_left behind

/-- The start of a block tells its condition and what stands behind it. -/
theorem blockStart_append_inj {condition condition' : List Token} {n m : Nat}
    (some : condition ≠ []) (some' : condition' ≠ []) (isTerm : ∀ t ∈ condition, t.IsTerm)
    (isTerm' : ∀ t ∈ condition', t.IsTerm)
    (same : blockStart condition n ++ xs = blockStart condition' m ++ ys) :
    condition = condition' ∧ xs = ys := by
  have bracket : "] true:[list (false, ".toList.head? = .some ']' := by decide
  have comma : ", [before_end, before_else]): [".toList.head? = .some ',' := by decide
  simp only [blockStart, List.append_assoc] at same
  obtain ⟨condition, behind⟩ := Token.renderAll_append_inj some some' isTerm isTerm'
    (head?_label bracket) (head?_label bracket) same
  exact ⟨condition, repr_append_inj comma (List.append_cancel_left behind)⟩

/-- Items can be read in one way only, up to the bracket behind them. -/
theorem Shows.inj (shows : Shows ns cs rest) (shows' : Shows ms ds rest') (same : cs = ds)
    (closed : rest.head? = some ']') (closed' : rest'.head? = some ']') :
    ns = ms ∧ rest = rest' := by
  have oneEnds : "]] false:nil]".toList.head? = some ']' := by decide
  have firstEnds : "]] false:[list (false, ".toList.head? = some ']' := by decide
  have secondEnds : "]]]".toList.head? = some ']' := by decide
  have comma : ", [before_end]): [".toList.head? = some ',' := by decide
  -- The labels in front tell the rule of the second reading, and in a block, what stands behind
  -- the first branch tells whether there is another one.
  induction shows generalizing ms ds rest' with
  | nil =>
    cases shows' with
    | nil => exact ⟨rfl, same⟩
    | _ =>
      rw [same] at closed
      cases closed
  | text shows ih =>
    cases shows' with
    | nil =>
      rw [← same] at closed'
      cases closed'
    | text shows' =>
      obtain ⟨value, behind⟩ := JsonString.encode_append_inj (List.append_cancel_left same)
      obtain ⟨rfl, rest⟩ := ih shows' (List.append_cancel_left behind) closed closed'
      rw [String.toList_inj.mp value]
      exact ⟨rfl, rest⟩
    | _ => exact absurd same (append_ne_of_zip (by decide))
  | ident shows ih =>
    cases shows' with
    | nil =>
      rw [← same] at closed'
      cases closed'
    | ident shows' =>
      obtain ⟨name, behind⟩ := JsonString.encode_append_inj (List.append_cancel_left same)
      obtain ⟨rfl, rest⟩ := ih shows' (List.append_cancel_left behind) closed closed'
      rw [String.toList_inj.mp name]
      exact ⟨rfl, rest⟩
    | _ => exact absurd same (append_ne_of_zip (by decide))
  | oneBranch some isTerm _ _ ih ih' =>
    cases shows' with
    | nil =>
      rw [← same] at closed'
      cases closed'
    | text => exact absurd same (append_ne_of_zip (by decide))
    | ident => exact absurd same (append_ne_of_zip (by decide))
    | oneBranch some' isTerm' shows' more' =>
      obtain ⟨rfl, inside⟩ :=
        blockStart_append_inj some some' isTerm isTerm' (List.append_cancel_left same)
      obtain ⟨rfl, behind⟩ := ih shows' inside (head?_label oneEnds) (head?_label oneEnds)
      obtain ⟨rfl, rest⟩ := ih' more' (List.append_cancel_left behind) closed closed'
      exact ⟨rfl, rest⟩
    | twoBranches some' isTerm' shows' =>
      obtain ⟨-, inside⟩ :=
        blockStart_append_inj some some' isTerm isTerm' (List.append_cancel_left same)
      obtain ⟨-, behind⟩ := ih shows' inside (head?_label oneEnds) (head?_label firstEnds)
      exact absurd behind (append_ne_of_zip (by decide))
  | twoBranches some isTerm _ _ _ ih ih' ih'' =>
    cases shows' with
    | nil =>
      rw [← same] at closed'
      cases closed'
    | text => exact absurd same (append_ne_of_zip (by decide))
    | ident => exact absurd same (append_ne_of_zip (by decide))
    | oneBranch some' isTerm' shows' =>
      obtain ⟨-, inside⟩ :=
        blockStart_append_inj some some' isTerm isTerm' (List.append_cancel_left same)
      obtain ⟨-, behind⟩ := ih shows' inside (head?_label firstEnds) (head?_label oneEnds)
      exact absurd behind (append_ne_of_zip (by decide))
    | twoBranches some' isTerm' shows' shows'' more' =>
      obtain ⟨rfl, inside⟩ :=
        blockStart_append_inj some some' isTerm isTerm' (List.append_cancel_left same)
      obtain ⟨rfl, behind⟩ := ih shows' inside (head?_label firstEnds) (head?_label firstEnds)
      have inside' := repr_append_inj comma (List.append_cancel_left behind)
      obtain ⟨rfl, behind'⟩ := ih' shows'' inside' (head?_label secondEnds) (head?_label secondEnds)
      obtain ⟨rfl, rest⟩ := ih'' more' (List.append_cancel_left behind') closed closed'
      exact ⟨rfl, rest⟩

/-! ## Displays of templates -/

/-- The display of a whole template is that of its nodes between the brackets of a root. -/
theorem WellFormed.display {n : Node} (formed : n.WellFormed) :
    ∃ ns body, n = .list true [] ns ∧
      n.display = .ok ("[list (true, " ++ ns.length.repr ++ ", []): [" ++ body ++ "]]") ∧
      ∀ rest, Shows ns (body.toList ++ rest) rest := by
  obtain ⟨ns, rfl, formed⟩ := formed
  obtain ⟨body, shown, shows⟩ := formed.shows
  refine ⟨ns, _, rfl, ?_, shows⟩
  rw [Node.display, shown]
  apply congrArg Except.ok
  have start : "[list (" ++ "true" ++ ", " = "[list (true, " := by decide
  have names : ", []): [" = ", [" ++ ", ".intercalate [] ++ "]): [" := by decide
  simp only [if_true, start, names, String.append_assoc]
  rfl

/-- Well-formed trees with one display are one tree. -/
theorem WellFormed.display_inj {n m : Node} (formed : n.WellFormed) (formed' : m.WellFormed)
    (same : n.display = m.display) : n = m := by
  obtain ⟨ns, body, rfl, shown, shows⟩ := formed.display
  obtain ⟨ms, body', rfl, shown', shows'⟩ := formed'.display
  rw [shown, shown', Except.ok.injEq, ← String.toList_inj] at same
  simp only [String.toList_append, List.append_assoc] at same
  have comma : ", []): [".toList.head? = some ',' := by decide
  have closed : "]]".toList.head? = some ']' := by decide
  have inside := repr_append_inj comma (List.append_cancel_left same)
  obtain ⟨rfl, -⟩ := (shows _).inj (shows' _) inside closed closed
  rfl

end Node

/-- Every tree that a template compiles to is well formed. -/
theorem wellFormed_of_compile {text : String} {n : Node}
    (compiled : compile (.ofText text) = .ok n) : n.WellFormed := by
  obtain ⟨ns, rfl, written, grammatical⟩ := compile_eq_ok_iff.mp compiled
  have sends : Sends false (scan (.text []) text.toList) := by
    apply sends_scan Place.apart_text_nil
    rw [written]
    exact grammatical.clean
  rw [written, ← List.append_nil (Node.yieldAll ns)] at sends
  refine ⟨ns, rfl, (grammatical.wellFormed sends ?_).1⟩
  exact nofun

/-- The trees of templates have displays, and one display only if they are one tree. -/
theorem display_eq_iff_of_compile {a b : String} {l r : Node}
    (compiled : compile (.ofText a) = .ok l) (compiled' : compile (.ofText b) = .ok r) :
    ∃ s t, l.display = .ok s ∧ r.display = .ok t ∧ (s = t ↔ l = r) := by
  have formed := wellFormed_of_compile compiled
  have formed' := wellFormed_of_compile compiled'
  obtain ⟨ns, body, -, shown, -⟩ := formed.display
  obtain ⟨ms, body', -, shown', -⟩ := formed'.display
  refine ⟨_, _, shown, shown', fun same => ?_, ?_⟩
  · apply formed.display_inj formed'
    rw [shown, shown', same]
  · rintro rfl
    rw [shown, Except.ok.injEq] at shown'
    exact shown'

/-- A branch that is missing, and one that is empty. -/
theorem display_of_branches :
    ∃ l r : Node, compile (.ofText "\x7b\x7bif a\x7d\x7dx\x7b\x7bend\x7d\x7d") = .ok l ∧
      compile (.ofText "\x7b\x7bif a\x7d\x7dx\x7b\x7belse\x7d\x7d\x7b\x7bend\x7d\x7d") =
        .ok r ∧ l ≠ r ∧ ∃ s t, l.display = .ok s ∧ r.display = .ok t ∧ (s = t ↔ l = r) := by
  have isTerm : ∀ t ∈ [(⟨.ident, "a"⟩ : Token)], t.IsTerm := by
    have letter : IsWord "a" := isWord_of_all 'a' [] rfl (by decide) (by decide)
    exact List.forall_mem_singleton.mpr (.inl ⟨rfl, letter, by decide⟩)
  have branch : Node.WellFormedAll 1 true [.text "x"] :=
    .text ⟨by decide, noPair_singleton⟩ (by simp) (by decide) .nil
  have formed : Node.WellFormed (.list true [] [
      .block [⟨.ident, "a"⟩] (.list false Parser.firstEnd [.text "x"]) .absent]) :=
    ⟨_, rfl, .oneBranch (by decide) (List.cons_ne_nil _ _) isTerm branch .nil⟩
  have formed' : Node.WellFormed (.list true [] [
      .block [⟨.ident, "a"⟩] (.list false Parser.firstEnd [.text "x"])
        (.list false Grammar.secondBranchEnd [])]) :=
    ⟨_, rfl, .twoBranches (by decide) (List.cons_ne_nil _ _) isTerm branch .nil .nil⟩
  have compiled := formed.compile_eq
  have compiled' := formed'.compile_eq
  exact ⟨_, _, compiled, compiled', by decide, display_eq_iff_of_compile compiled compiled'⟩

end Stencil
