import Stencil.Proofs.Acceptance

/-!
# Trees as templates

`Node.print` writes a tree as a template, and `Node.WellFormed` says which trees can be written:
texts that no tag runs into, names and conditions made of whole words, and branches that end
where the grammar wants them to end. A well-formed tree is what its template compiles to
(`Node.WellFormed.compile_eq`).

The scanner is followed along the template. A tag is scanned to its words whatever comes behind
it (`Lexer.scan_printTag`). A text is scanned to itself only before a tag or the end of the
template, which is why `Node.WellFormedAll` carries what follows a list of nodes.
-/

namespace Stencil

open Text

/-! ## Texts and words -/

/-- No two braces of one kind are neighbours. -/
def Text.NoPair (cs : List Char) : Prop :=
  ¬['{', '{'] <:+: cs ∧ ¬['}', '}'] <:+: cs

/-- A word of a tag. -/
def Lexer.IsWord (word : String) : Prop :=
  ∃ c cs, word.toList = c :: cs ∧ isLetter c ∧ ∀ d ∈ cs, continuesWord d

/-- A word without a meaning of its own. -/
def Lexer.IsName (word : String) : Prop :=
  IsWord word ∧ word ≠ "if" ∧ word ≠ "else" ∧ word ≠ "end"

/-- A token that may stand in a condition. -/
def Token.IsTerm (t : Token) : Prop :=
  (t.kind = .ident ∧ Lexer.IsName t.value) ∨ t = ifMark ∨ t = elseMark ∨ t = endMark

theorem Text.noPair_cons_iff {c : Char} {cs : List Char} :
    NoPair (c :: cs) ↔ ¬Lexer.isPair c cs ∧ NoPair cs := by
  have prefix_iff : ∀ b : Char, [b, b] <+: c :: cs ↔ c = b ∧ ∃ rest, cs = b :: rest := by
    intro b
    rw [List.cons_prefix_cons, eq_comm]
    cases cs <;> simp [eq_comm]
  rw [NoPair, NoPair, List.infix_cons_iff, List.infix_cons_iff, prefix_iff, prefix_iff,
    Lexer.isPair_iff]
  grind

theorem Text.noPair_reverse_iff {cs : List Char} : NoPair cs.reverse ↔ NoPair cs := by
  have infix_iff : ∀ b : Char, [b, b] <:+: cs.reverse ↔ [b, b] <:+: cs := by
    intro b
    have swapped : [b, b].reverse <:+: cs.reverse ↔ [b, b] <:+: cs := List.reverse_infix
    exact swapped
  rw [NoPair, NoPair, infix_iff, infix_iff]

theorem Lexer.isWord_of_all {word : String} (c : Char) (cs : List Char)
    (chars : word.toList = c :: cs) (letter : isLetter c) (inside : cs.all continuesWord) :
    IsWord word :=
  ⟨c, cs, chars, letter, List.all_eq_true.mp inside⟩

theorem Token.isTerm_ofWord {word : String} (isWord : Lexer.IsWord word) :
    (ofWord word).IsTerm := by
  rcases ofWord_cases word with ⟨-, same⟩ | ⟨-, same⟩ | ⟨-, same⟩ | ⟨name, same⟩ <;> rw [same]
  · exact .inr (.inl rfl)
  · exact .inr (.inr (.inl rfl))
  · exact .inr (.inr (.inr rfl))
  · exact .inl ⟨rfl, isWord, name⟩

theorem Token.IsTerm.isWord {t : Token} (term : t.IsTerm) : Lexer.IsWord t.value := by
  rcases term with ⟨-, isWord, -⟩ | rfl | rfl | rfl
  · exact isWord
  · exact Lexer.isWord_of_all 'i' ['f'] rfl (by decide) (by decide)
  · exact Lexer.isWord_of_all 'e' ['l', 's', 'e'] rfl (by decide) (by decide)
  · exact Lexer.isWord_of_all 'e' ['n', 'd'] rfl (by decide) (by decide)

/-- A name is the token of its own text. -/
theorem Lexer.IsName.ofWord_eq {name : String} (isName : IsName name) :
    Token.ofWord name = ⟨.ident, name⟩ := by
  obtain ⟨-, notIf, notElse, notEnd⟩ := isName
  rcases Token.ofWord_cases name with ⟨same, -⟩ | ⟨same, -⟩ | ⟨same, -⟩ | ⟨-, same⟩
  · exact absurd same notIf
  · exact absurd same notElse
  · exact absurd same notEnd
  · exact same

theorem Token.IsTerm.ofWord_value {t : Token} (term : t.IsTerm) : ofWord t.value = t := by
  rcases term with ⟨kind, isName⟩ | rfl | rfl | rfl
  · rw [isName.ofWord_eq, ← kind]
  · rfl
  · rfl
  · rfl

theorem Token.IsTerm.inner {t : Token} (term : t.IsTerm) : t.Inner := by
  rcases term with ⟨kind, -⟩ | rfl | rfl | rfl
  · simp [Inner, kind]
  · decide
  · decide
  · decide

/-! ## Scanning tags and texts -/

namespace Lexer

variable {pending cs rest : List Char}

/-- A word ends where a character comes that does not continue it. -/
theorem scan_word {word : String} (isWord : IsWord word)
    (ends : rest.takeWhile continuesWord = []) :
    scan .tag (word.toList ++ rest) = .ofWord word :: scan .tag rest := by
  obtain ⟨c, cs, chars, letter, inside⟩ := isWord
  have taken : (cs ++ rest).takeWhile continuesWord = cs := by
    rw [List.takeWhile_append_of_pos inside, ends, List.append_nil]
  have left : (cs ++ rest).dropWhile continuesWord = rest := by
    have whole := List.takeWhile_append_dropWhile (p := continuesWord) (l := cs ++ rest)
    rw [taken] at whole
    exact List.append_cancel_left whole
  rw [chars, List.cons_append, scan_letter letter, taken, left, ← chars, String.ofList_toList]

/-- Words with blanks between them are scanned to their tokens. -/
theorem scan_words {words : List String} (isWord : ∀ word ∈ words, IsWord word) :
    scan .tag ((" ".intercalate words).toList ++ '}' :: '}' :: rest) =
      words.map .ofWord ++ .right :: scan (.text []) rest := by
  induction words with
  | nil => exact scan_right
  | cons word words ih =>
    have first := isWord word List.mem_cons_self
    have others := ih fun word member => isWord word (List.mem_cons_of_mem _ member)
    cases words with
    | nil =>
      rw [String.intercalate_singleton, scan_word first rfl, scan_right]
      rfl
    | cons word' words =>
      have blank : " ".toList = [' '] := by decide
      rw [String.intercalate_cons_cons, String.toList_append, String.toList_append, blank,
        List.append_assoc, List.append_assoc, List.singleton_append, scan_word first rfl,
        scan_skip (by simp [isPair]) (by decide), others]
      rfl

/-- A tag of these words, with one blank between them. -/
def printTag (words : List String) : String :=
  Token.leftMark ++ " ".intercalate words ++ Token.rightMark

theorem toList_printTag (words : List String) :
    (printTag words).toList ++ rest =
      '{' :: '{' :: ((" ".intercalate words).toList ++ '}' :: '}' :: rest) := by
  have left : Token.leftMark.toList = ['{', '{'] := by decide
  have right : Token.rightMark.toList = ['}', '}'] := by decide
  simp [printTag, left, right]

/-- A tag is scanned to its words, whatever comes behind it. -/
theorem scan_printTag {words : List String} (isWord : ∀ word ∈ words, IsWord word) :
    scan (.text []) ((printTag words).toList ++ rest) =
      .left :: (words.map .ofWord ++ .right :: scan (.text []) rest) := by
  rw [toList_printTag, scan_left, scan_words isWord]
  rfl

/-- The template ends, or a tag starts. -/
def Opens (cs : List Char) : Prop :=
  cs = [] ∨ ∃ rest, cs = '{' :: '{' :: rest

theorem scan_of_opens (opens : Opens rest) :
    scan (.text pending) rest = flushed pending ++ scan (.text []) rest := by
  rcases opens with rfl | ⟨rest, rfl⟩
  · rw [scan, scan, flushed, flushed, List.isEmpty_nil, if_pos rfl, List.append_nil]
  · rw [scan_left, scan_left]
    rfl

/-- Characters without a pair, that form none with what follows, are taken one by one. -/
theorem scan_plain (noPair : NoPair cs)
    (seam : ∀ c, cs.getLast? = some c → ¬isPair c rest) :
    scan (.text pending) (cs ++ rest) = scan (.text (cs.reverse ++ pending)) rest := by
  induction cs generalizing pending with
  | nil => rfl
  | cons c cs ih =>
    obtain ⟨single, noPair⟩ := noPair_cons_iff.mp noPair
    have single' : ¬isPair c (cs ++ rest) := by
      cases cs with
      | nil => exact seam c rfl
      | cons d cs => exact single
    have seam' : ∀ d, cs.getLast? = some d → ¬isPair d rest := by
      intro d last
      apply seam d
      rw [List.getLast?_cons, last]
      rfl
    rw [List.cons_append, scan_single single', ih noPair seam']
    simp

end Lexer

/-! ## Trees -/

namespace Node

open Lexer

/-- A text that stands for itself. -/
def IsText (value : String) : Prop :=
  value ≠ "" ∧ NoPair value.toList

mutual

/-- The template that a node is written as. -/
def print : Node → String
  | text value => value
  | ident name => printTag [name]
  | block condition whenTrue whenFalse =>
    printTag ("if" :: condition.map (·.value)) ++ print whenTrue ++
      (if whenFalse.isPresent then printTag ["else"] ++ print whenFalse else "") ++
      printTag ["end"]
  | list _ _ ns => printAll ns
  | _ => ""

/-- The template that a list of nodes is written as. -/
def printAll : List Node → String
  | [] => ""
  | n :: ns => print n ++ printAll ns

end

/-- Lists of nodes inside `depth` blocks that can be written down. A text is followed by no
other text, and does not end in an opening brace where a tag follows it: one of the list, or
one behind the list (`followed`). -/
inductive WellFormedAll : (depth : Int) → (followed : Bool) → List Node → Prop
  | nil {depth : Int} {followed : Bool} : WellFormedAll depth followed []
  | text {depth : Int} {followed : Bool} {value : String} {ns : List Node} :
    IsText value → (∀ other, ns.head? ≠ some (.text other)) →
    (followed ∨ ns ≠ [] → value.toList.getLast? ≠ some '{') →
    WellFormedAll depth followed ns → WellFormedAll depth followed (.text value :: ns)
  | ident {depth : Int} {followed : Bool} {name : String} {ns : List Node} :
    IsName name → WellFormedAll depth followed ns →
    WellFormedAll depth followed (.ident name :: ns)
  | oneBranch {depth : Int} {followed : Bool} {condition : List Token} {ts ns : List Node} :
    depth < maxNesting → condition ≠ [] → (∀ t ∈ condition, t.IsTerm) →
    WellFormedAll (depth + 1) true ts → WellFormedAll depth followed ns →
    WellFormedAll depth followed
      (.block condition (.list false ["before_end", "before_else"] ts) .absent :: ns)
  | twoBranches {depth : Int} {followed : Bool} {condition : List Token}
    {ts fs ns : List Node} :
    depth < maxNesting → condition ≠ [] → (∀ t ∈ condition, t.IsTerm) →
    WellFormedAll (depth + 1) true ts → WellFormedAll (depth + 1) true fs →
    WellFormedAll depth followed ns →
    WellFormedAll depth followed
      (.block condition (.list false ["before_end", "before_else"] ts)
        (.list false ["before_end"] fs) :: ns)

/-- Whole templates that can be written down. -/
def WellFormed (n : Node) : Prop :=
  ∃ ns, n = .list true [] ns ∧ WellFormedAll 0 false ns

variable {depth : Int} {followed : Bool} {ns : List Node} {rest : List Char}

/-- Nodes that can be printed are nodes that parsing can leave. -/
theorem WellFormedAll.grammatical (formed : WellFormedAll depth followed ns) :
    Grammatical depth ns := by
  induction formed with
  | nil => exact .nil
  | text _ _ _ _ ih => exact .text ih
  | ident _ _ ih => exact .ident ih
  | oneBranch shallow some terms _ _ ih ih' =>
    exact .oneBranch shallow some (fun t member => (terms t member).inner) ih ih'
  | twoBranches shallow some terms _ _ _ ih ih' ih'' =>
    exact .twoBranches shallow some (fun t member => (terms t member).inner) ih ih' ih''

/-- A tag of terms is scanned to these terms. -/
theorem scan_terms (terms : List Token) (isTerm : ∀ t ∈ terms, t.IsTerm) :
    scan (.text []) ((printTag (terms.map (·.value))).toList ++ rest) =
      .left :: (terms ++ .right :: scan (.text []) rest) := by
  have isWord : ∀ word ∈ terms.map (·.value), IsWord word := by
    intro word member
    obtain ⟨t, among, rfl⟩ := List.mem_map.mp member
    exact (isTerm t among).isWord
  have same : (terms.map (·.value)).map Token.ofWord = terms := by
    rw [List.map_map]
    conv => rhs; rw [← List.map_id terms]
    exact List.map_congr_left fun t member => (isTerm t member).ofWord_value
  rw [scan_printTag isWord, same]

theorem scan_printTag_ident {name : String} (isName : IsName name) :
    scan (.text []) ((printTag [name]).toList ++ rest) =
      yield (.ident name) ++ scan (.text []) rest := by
  apply scan_terms [⟨.ident, name⟩]
  intro t member
  rw [List.mem_singleton.mp member]
  exact .inl ⟨rfl, isName⟩

/-- The opening tag of a block is scanned as the head of the block. -/
theorem scan_printTag_block {condition : List Token} (isTerm : ∀ t ∈ condition, t.IsTerm) :
    scan (.text []) ((printTag ("if" :: condition.map (·.value))).toList ++ rest) =
      blockHead condition ++ scan (.text []) rest := by
  have whole : blockHead condition ++ scan (.text []) rest =
      .left :: (.ifMark :: condition ++ .right :: scan (.text []) rest) := by
    simp [blockHead]
  rw [whole]
  apply scan_terms (.ifMark :: condition)
  intro t member
  rcases List.mem_cons.mp member with rfl | member
  · exact .inr (.inl rfl)
  · exact isTerm t member

theorem scan_printTag_elseMark :
    scan (.text []) ((printTag ["else"]).toList ++ rest) =
      Token.elseTag ++ scan (.text []) rest := by
  apply scan_terms [.elseMark]
  intro t member
  rw [List.mem_singleton.mp member]
  exact .inr (.inr (.inl rfl))

theorem scan_printTag_endMark :
    scan (.text []) ((printTag ["end"]).toList ++ rest) =
      Token.endTag ++ scan (.text []) rest := by
  apply scan_terms [.endMark]
  intro t member
  rw [List.mem_singleton.mp member]
  exact .inr (.inr (.inr rfl))

/-- A tag opens what it starts. -/
theorem opens_printTag (words : List String) : Opens ((printTag words).toList ++ rest) :=
  .inr ⟨_, toList_printTag words⟩

/-- Nodes that do not start with a text print to what opens a tag, or to nothing. -/
theorem opens_printAll (noText : ∀ other, ns.head? ≠ some (.text other))
    (formed : WellFormedAll depth followed ns) (opens : Opens rest) :
    Opens ((printAll ns).toList ++ rest) := by
  cases formed with
  | nil => exact opens
  | text => exact absurd rfl (noText _)
  | ident =>
    simp only [printAll, print, String.toList_append, List.append_assoc]
    exact opens_printTag _
  | oneBranch =>
    simp only [printAll, print, String.toList_append, List.append_assoc]
    exact opens_printTag _
  | twoBranches =>
    simp only [printAll, print, String.toList_append, List.append_assoc]
    exact opens_printTag _

/-- A text is scanned to itself, up to the next tag. -/
theorem scan_isText {value : String} (isText : IsText value)
    (seam : rest ≠ [] → value.toList.getLast? ≠ some '{') (opens : Opens rest) :
    scan (.text []) (value.toList ++ rest) = ⟨.text, value⟩ :: scan (.text []) rest := by
  obtain ⟨filled, noPair⟩ := isText
  have alone : ∀ c, value.toList.getLast? = some c → ¬isPair c rest := by
    intro c last pair
    obtain ⟨-, rest', rfl⟩ := isPair_iff.mp pair
    rcases opens with none | ⟨rest, same⟩
    · cases none
    · cases same
      exact seam nofun last
  have filled' : value.toList.reverse.isEmpty = false := by
    simpa using filled
  rw [scan_plain noPair alone, List.append_nil, scan_of_opens opens, flushed, filled', if_neg nofun,
    List.reverse_reverse, String.ofList_toList]
  rfl

/-- What a list is written as is scanned to its yield. -/
theorem WellFormedAll.scan_print (formed : WellFormedAll depth followed ns)
    (opens : Opens rest) (more : rest ≠ [] → followed) :
    scan (.text []) ((printAll ns).toList ++ rest) = yieldAll ns ++ scan (.text []) rest := by
  induction formed generalizing rest with
  | nil => rfl
  | @text depth followed value ns isText noText seam formed ih =>
    -- No text follows, so the list goes on with a tag or ends where the tail starts.
    have opens' := opens_printAll noText formed opens
    have seam' : (printAll ns).toList ++ rest ≠ [] → value.toList.getLast? ≠ some '{' := by
      intro goesOn
      apply seam
      by_cases none : ns = []
      · left
        apply more
        rw [none] at goesOn
        exact goesOn
      · exact .inr none
    simp only [printAll, print, String.toList_append, List.append_assoc]
    rw [scan_isText isText seam' opens', ih opens more]
    rfl
  | ident isName _ ih =>
    simp only [printAll, print, String.toList_append, List.append_assoc]
    rw [scan_printTag_ident isName, ih opens more, yieldAll, List.append_assoc]
  | oneBranch _ _ isTerm _ _ ih ih' =>
    simp only [printAll, print, isPresent, String.toList_append, List.append_assoc, if_false,
      Bool.false_eq_true, String.toList_empty, List.nil_append]
    rw [scan_printTag_block isTerm, ih (opens_printTag _) fun _ => rfl, scan_printTag_endMark,
      ih' opens more, yieldAll]
    simp only [yield_oneBranch, List.append_assoc]
  | twoBranches _ _ isTerm _ _ _ ih ih' ih'' =>
    simp only [printAll, print, isPresent, String.toList_append, List.append_assoc, if_true]
    rw [scan_printTag_block isTerm, ih (opens_printTag _) fun _ => rfl, scan_printTag_elseMark,
      ih' (opens_printTag _) fun _ => rfl, scan_printTag_endMark, ih'' opens more, yieldAll]
    simp only [yield_twoBranches, List.append_assoc]

theorem WellFormed.compile_eq {n : Node} (formed : n.WellFormed) :
    compile (.ofText n.print) = .ok n := by
  obtain ⟨ns, rfl, formed⟩ := formed
  have scanned := formed.scan_print (.inl rfl) (absurd rfl)
  simp only [List.append_nil] at scanned
  rw [compile_eq_ok_iff]
  refine ⟨ns, rfl, ?_, formed.grammatical⟩
  rw [print, scanned]
  simp [scan, flushed]

end Node
end Stencil
