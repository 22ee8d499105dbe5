import Stencil.Highlight

/-!
# How a text is highlighted

The pieces of a highlighted text, by the place where each of them is. `Highlight.Covers` has one
rule for each kind of piece and says what is in such a piece and what it ends before; the pieces of
every text follow these rules (`Highlight.covers_piecesFrom`), and what is done where nothing
matches is never done.

Where two rules could match, the order in which they are tried only matters if some character is
in the classes of both. So the classes come first: what is blank can be no part of a word, and no
letter is a decimal digit. The words inside tags (`Text.wordsInTags`) are told from the text alone.
-/

namespace Stencil

namespace Text

/-! ## Classes of characters -/

/-- No two ranges of the lists meet. -/
def CharRange.apart (rs rs' : List CharRange) : Bool :=
  rs.all fun r => rs'.all fun r' => r.last.blt r'.first || r'.last.blt r.first

variable {c : Char}

theorem CharRange.not_covers_of_apart {rs rs' : List CharRange} (apart : apart rs rs')
    (inside : covers rs c) : ¬covers rs' c := by
  rw [covers_eq_true_iff] at inside ⊢
  obtain ⟨r, member, first, last⟩ := inside
  rintro ⟨r', member', first', last'⟩
  have here := List.all_eq_true.mp (List.all_eq_true.mp apart r member) r' member'
  rw [Bool.or_eq_true, Nat.blt_eq, Nat.blt_eq] at here
  omega

/-- What is true of the characters of ASCII, one by one. -/
theorem of_ascii {p : Char → Prop} (each : ∀ n < 0x80, p (Char.ofNat n)) (ascii : c.toNat < 0x80) :
    p c := by
  have here := each c.toNat ascii
  rwa [Char.ofNat_toNat] at here

theorem not_isDecimalDigit_of_isLetter (letter : isLetter c) : ¬isDecimalDigit c := by
  by_cases ascii : c.toNat < 0x80
  · revert letter
    exact of_ascii (p := fun c => isLetter c → ¬isDecimalDigit c) (by decide +kernel) ascii
  · have apart : CharRange.apart letterRanges decimalDigitRanges := by decide +kernel
    rw [isLetter, if_neg ascii] at letter
    rw [isDecimalDigit, if_neg ascii]
    exact CharRange.not_covers_of_apart apart letter

theorem not_isWordChar_of_isBlank (blank : isBlank c) : ¬isWordChar c := by
  by_cases ascii : c.toNat < 0x80
  · revert blank
    exact of_ascii (p := fun c => isBlank c → ¬isWordChar c) (by decide +kernel) ascii
  · have outside : ∀ rs ∈ [letterRanges, decimalDigitRanges, otherNumericRanges],
        CharRange.covers rs c = false := by
      intro rs member
      have apart : ∀ rs ∈ [letterRanges, decimalDigitRanges, otherNumericRanges],
          CharRange.apart blankRanges rs := by decide +kernel
      exact Bool.eq_false_iff.mpr (CharRange.not_covers_of_apart (apart rs member) blank)
    have underscore : c ≠ '_' := by
      rintro rfl
      exact ascii (by decide)
    simp [isWordChar, isLetter, isDecimalDigit, isOtherNumeric, ascii, underscore, outside]

/-! ## Words inside tags -/

/-- The words inside tags: the runs of characters of words, each as long as it can be. -/
def wordsInTags : (inTag : Bool) → List Char → List String
  | _, [] => []
  | false, '{' :: '{' :: cs => wordsInTags true cs
  | true, '}' :: '}' :: cs => wordsInTags false cs
  | false, _ :: cs => wordsInTags false cs
  | true, c :: cs =>
    if isWordChar c then
      String.ofList (c :: cs.takeWhile isWordChar) :: wordsInTags true (cs.dropWhile isWordChar)
    else wordsInTags true cs
termination_by _ cs => cs.length
decreasing_by
  · simp only [List.length_cons]; omega
  · simp only [List.length_cons]; omega
  · simp only [List.length_cons]; omega
  · have := (List.dropWhile_suffix isWordChar (l := cs)).length_le
    simp only [List.length_cons]
    omega
  · simp only [List.length_cons]; omega

variable {run cs : List Char}

theorem wordsInTags_left : wordsInTags false ('{' :: '{' :: cs) = wordsInTags true cs := by
  rw [wordsInTags]

theorem wordsInTags_right : wordsInTags true ('}' :: '}' :: cs) = wordsInTags false cs := by
  rw [wordsInTags]

theorem wordsInTags_outside (single : ¬['{', '{'] <+: c :: cs) :
    wordsInTags false (c :: cs) = wordsInTags false cs := by
  rw [wordsInTags.eq_def]
  split <;> simp_all

theorem wordsInTags_text (plain : ∀ c ∈ run, c ≠ '{') :
    wordsInTags false (run ++ cs) = wordsInTags false cs := by
  induction run with
  | nil => rfl
  | cons c run ih =>
    obtain ⟨here, plain⟩ := List.forall_mem_cons.mp plain
    rw [List.cons_append, wordsInTags_outside (by simp [here.symm]), ih plain]

theorem wordsInTags_skip (single : ¬['}', '}'] <+: c :: cs) (other : ¬isWordChar c) :
    wordsInTags true (c :: cs) = wordsInTags true cs := by
  rw [wordsInTags.eq_def]
  split <;> simp_all

/-- A word in a tag is taken whole. -/
theorem wordsInTags_head (inside : isWordChar c) :
    wordsInTags true (c :: cs) =
      String.ofList (c :: cs.takeWhile isWordChar) ::
        wordsInTags true (cs.dropWhile isWordChar) := by
  have noBrace : c ≠ '}' := by
    rintro rfl
    revert inside
    decide
  rw [wordsInTags.eq_def]
  split <;> simp_all

/-- A word ends where a character comes that is in no word. -/
theorem wordsInTags_word (some : run ≠ []) (inside : ∀ c ∈ run, isWordChar c)
    (ends : cs.takeWhile isWordChar = []) :
    wordsInTags true (run ++ cs) = String.ofList run :: wordsInTags true cs := by
  cases run with
  | nil => exact absurd rfl some
  | cons c run =>
    obtain ⟨here, inside⟩ := List.forall_mem_cons.mp inside
    have left : cs.dropWhile isWordChar = cs := by
      have whole := List.takeWhile_append_dropWhile (p := isWordChar) (l := cs)
      rwa [ends, List.nil_append] at whole
    rw [List.cons_append, wordsInTags_head here, List.takeWhile_append_of_pos inside, ends,
      List.append_nil, List.dropWhile_append_of_pos inside, left]

/-- Blanks in a tag hold no words. -/
theorem wordsInTags_blank (blank : ∀ c ∈ run, isBlank c) :
    wordsInTags true (run ++ cs) = wordsInTags true cs := by
  induction run with
  | nil => rfl
  | cons c run ih =>
    obtain ⟨here, blank⟩ := List.forall_mem_cons.mp blank
    have single : ¬['}', '}'] <+: c :: (run ++ cs) := by
      intro pair
      obtain ⟨rfl, -⟩ := List.cons_prefix_cons.mp pair
      revert here
      decide
    rw [List.cons_append, wordsInTags_skip single (not_isWordChar_of_isBlank here), ih blank]

end Text

namespace Highlight

open Text

/-! ## Lengths -/

section Lengths

variable {b c : Char} {cs : List Char} {p : Char → Bool}

theorem pairLength_pair : pairLength b (b :: b :: cs) = some 2 := by
  simp [pairLength]

theorem exists_of_pair (pair : [b, b] <+: c :: cs) : c = b ∧ ∃ rest, cs = b :: rest := by
  obtain ⟨rfl, rest, rfl⟩ := List.cons_prefix_cons.mp pair
  exact ⟨rfl, rest, rfl⟩

theorem pairLength_none (single : ¬[b, b] <+: cs) : pairLength b cs = none := by
  rw [← List.isPrefixOf_iff_prefix] at single
  exact if_neg single

theorem runLength_of_head (head : p c) :
    runLength p (c :: cs) = some ((cs.takeWhile p).length + 1) := by
  rw [runLength, List.takeWhile_cons_of_pos head, List.length_cons]

theorem runLength_none (other : ¬p c) : runLength p (c :: cs) = none := by
  rw [runLength, List.takeWhile_cons_of_neg other, List.length_nil]

/-- A keyword starts like a word of its own. -/
theorem head_of_keyword (known : keywords.contains (String.ofList (cs.takeWhile isWordChar))) :
    ∃ c cs', cs = c :: cs' ∧ isWordChar c ∧ ¬isDecimalDigit c := by
  have starts : ∀ word ∈ keywords, word.toList.head?.any fun c => !isDecimalDigit c := by decide
  have head := starts _ (List.contains_iff_mem.mp known)
  rw [String.toList_ofList] at head
  cases cs with
  | nil => cases head
  | cons d cs =>
    by_cases inside : isWordChar d
    · rw [List.takeWhile_cons_of_pos inside] at head
      exact ⟨d, cs, rfl, inside, by simpa using head⟩
    · rw [List.takeWhile_cons_of_neg inside] at head
      cases head

end Lengths

/-! ## The pieces of a place -/

/-- What a word is, by the character before it. -/
def wordStyle (before : Option Char) (word : List Char) : Style :=
  if !before.any isWordChar && keywords.contains (String.ofList word) then .keyword else .name

/-- The pieces of what is ahead, from inside a tag or from outside. A word is as long as it can
be; what is an error could be no piece of another style. -/
inductive Covers : Region → (before : Option Char) → List Char → List Piece → Prop
  | done {region : Region} {before : Option Char} : Covers region before [] []
  | opening {before : Option Char} {index : Nat} {cs : List Char} {ps : List Piece} :
    Covers .tag (some '{') cs ps →
    Covers .outside before ('{' :: '{' :: cs) (⟨index, .punctuation, ['{', '{']⟩ :: ps)
  | text {before : Option Char} {index : Nat} {run cs : List Char} {ps : List Piece} :
    run ≠ [] → (∀ c ∈ run, c ≠ '{') → Covers .outside run.getLast? cs ps →
    Covers .outside before (run ++ cs) (⟨index, .text, run⟩ :: ps)
  | brace {before : Option Char} {index : Nat} {cs : List Char} {ps : List Piece} :
    ¬['{', '{'] <+: '{' :: cs → Covers .outside (some '{') cs ps →
    Covers .outside before ('{' :: cs) (⟨index, .text, ['{']⟩ :: ps)
  | closing {before : Option Char} {index : Nat} {cs : List Char} {ps : List Piece} :
    Covers .outside (some '}') cs ps →
    Covers .tag before ('}' :: '}' :: cs) (⟨index, .punctuation, ['}', '}']⟩ :: ps)
  | blank {before : Option Char} {index : Nat} {run cs : List Char} {ps : List Piece} :
    run ≠ [] → (∀ c ∈ run, isBlank c) → Covers .tag run.getLast? cs ps →
    Covers .tag before (run ++ cs) (⟨index, .blank, run⟩ :: ps)
  | word {before : Option Char} {index : Nat} {run cs : List Char} {ps : List Piece} :
    run ≠ [] → (∀ c ∈ run, isWordChar c) → cs.takeWhile isWordChar = [] →
    Covers .tag run.getLast? cs ps →
    Covers .tag before (run ++ cs) (⟨index, wordStyle before run, run⟩ :: ps)
  | error {before : Option Char} {index : Nat} {c : Char} {cs : List Char} {ps : List Piece} :
    ¬['}', '}'] <+: c :: cs → ¬isBlank c → (isWordChar c → isDecimalDigit c) →
    Covers .tag (some c) cs ps →
    Covers .tag before (c :: cs) (⟨index, .error, [c]⟩ :: ps)

variable {region leadsTo : Region} {before : Option Char} {index : Nat} {style : Style} {c : Char}
  {cs : List Char}

/-- The first rule that matches gives the first piece. -/
theorem piecesFrom_of_match (run rest : List Char)
    (found : firstMatch region before (c :: cs) = some ⟨run.length + 1, style, leadsTo⟩)
    (split : cs = run ++ rest) :
    piecesFrom region before index (c :: cs) =
      ⟨index, style, c :: run⟩ ::
        piecesFrom leadsTo (c :: run).getLast? (index + (c :: run).length) rest := by
  subst split
  rw [piecesFrom]
  simp only [found, Option.getD_some, Nat.add_sub_cancel, List.take_left, List.drop_left]

theorem firstMatch_opening :
    firstMatch .outside before ('{' :: '{' :: cs) = some ⟨2, .punctuation, .tag⟩ := by
  simp [firstMatch, rules, pairLength_pair]

theorem firstMatch_brace (single : ¬['{', '{'] <+: '{' :: cs) :
    firstMatch .outside before ('{' :: cs) = some ⟨1, .text, .outside⟩ := by
  simp [firstMatch, rules, pairLength_none single, runLength_none, oneLength]

theorem firstMatch_text (plain : c ≠ '{') :
    firstMatch .outside before (c :: cs) =
      some ⟨(cs.takeWhile (· != '{')).length + 1, .text, .outside⟩ := by
  have single : ¬['{', '{'] <+: c :: cs := by simp [plain.symm]
  simp [firstMatch, rules, pairLength_none single, runLength_of_head, plain]

theorem firstMatch_closing :
    firstMatch .tag before ('}' :: '}' :: cs) = some ⟨2, .punctuation, .outside⟩ := by
  simp [firstMatch, rules, pairLength_pair]

theorem firstMatch_blank (single : ¬['}', '}'] <+: c :: cs) (blank : isBlank c) :
    firstMatch .tag before (c :: cs) = some ⟨(cs.takeWhile isBlank).length + 1, .blank, .tag⟩ := by
  simp [firstMatch, rules, pairLength_none single, runLength_of_head blank]

/-- In a tag, a word that starts with no digit is matched whole. -/
theorem firstMatch_word (single : ¬['}', '}'] <+: c :: cs) (noBlank : ¬isBlank c)
    (inside : isWordChar c) (noDigit : ¬isDecimalDigit c) :
    firstMatch .tag before (c :: cs) = some ⟨(cs.takeWhile isWordChar).length + 1,
      wordStyle before (c :: cs.takeWhile isWordChar), .tag⟩ := by
  have named : nameLength (c :: cs) = some ((cs.takeWhile isWordChar).length + 1) := by
    simp [nameLength, inside, noDigit, runLength_of_head]
  have known : keywordLength before (c :: cs) =
      if !before.any isWordChar &&
          keywords.contains (String.ofList (c :: cs.takeWhile isWordChar)) then
        some ((cs.takeWhile isWordChar).length + 1)
      else none := by
    simp [keywordLength, List.takeWhile_cons_of_pos inside]
  simp only [firstMatch, rules, List.findSome?_cons, pairLength_none single,
    runLength_none noBlank, Option.map_none, named, known, wordStyle]
  split <;> simp_all

/-- In a tag, a character that starts no match of a rule is an error alone. -/
theorem firstMatch_error (single : ¬['}', '}'] <+: c :: cs) (noBlank : ¬isBlank c)
    (noWord : isWordChar c → isDecimalDigit c) :
    firstMatch .tag before (c :: cs) = some ⟨1, .error, .tag⟩ := by
  have noFeed : c ≠ '\n' := by
    rintro rfl
    exact noBlank (by decide)
  have unknown : keywordLength before (c :: cs) = none := by
    refine if_neg fun known => ?_
    rw [Bool.and_eq_true] at known
    obtain ⟨_, _, same, inside, noDigit⟩ := head_of_keyword known.2
    cases same
    exact noDigit (noWord inside)
  have unnamed : nameLength (c :: cs) = none := by
    refine if_neg fun named => ?_
    simp only [List.head?_cons, Option.any_some, Bool.and_eq_true, Bool.not_eq_true'] at named
    rw [noWord named.1] at named
    cases named.2
  simp [firstMatch, rules, pairLength_none single, runLength_none noBlank, unknown, unnamed,
    anyLength, noFeed]

/-- The first characters with a property, and those behind them. -/
theorem exists_run (p : Char → Bool) (cs : List Char) :
    ∃ run rest, cs = run ++ rest ∧ run = cs.takeWhile p ∧ (∀ c ∈ run, p c) ∧
      rest.takeWhile p = [] ∧ rest.length ≤ cs.length := by
  refine ⟨cs.takeWhile p, cs.dropWhile p, List.takeWhile_append_dropWhile.symm, rfl,
    fun c member => List.all_eq_true.mp List.all_takeWhile c member, ?_,
    (List.dropWhile_suffix p).length_le⟩
  have stops := List.head?_dropWhile_not p cs
  cases behind : cs.dropWhile p with
  | nil => rfl
  | cons d rest =>
    rw [behind] at stops
    exact List.takeWhile_cons_of_neg (by simpa using stops)

/-- What is shorter is covered by its pieces. -/
def CoveredBelow (n : Nat) : Prop :=
  ∀ region before index cs, cs.length < n →
    Covers region before cs (piecesFrom region before index cs)

/-- The pieces of plain text and of all behind it cover the text, if those of shorter texts do. -/
theorem covers_outside (below : CoveredBelow (c :: cs).length) :
    Covers .outside before (c :: cs) (piecesFrom .outside before index (c :: cs)) := by
  by_cases plain : c ≠ '{'
  · obtain ⟨run, rest, rfl, taken, inside, -, shorter⟩ := exists_run (· != '{') cs
    have found : firstMatch .outside before (c :: (run ++ rest)) = _ := firstMatch_text plain
    rw [← taken] at found
    rw [piecesFrom_of_match run rest found rfl, ← List.cons_append]
    refine .text (by simp) ?_ (below _ _ _ _ (Nat.lt_succ_of_le shorter))
    exact List.forall_mem_cons.mpr ⟨plain, fun d member => bne_iff_ne.mp (inside d member)⟩
  obtain rfl := Decidable.not_not.mp plain
  by_cases pair : ['{', '{'] <+: '{' :: cs
  · obtain ⟨-, rest, rfl⟩ := exists_of_pair pair
    have found : firstMatch .outside before ('{' :: '{' :: rest) = _ := firstMatch_opening
    rw [piecesFrom_of_match ['{'] rest found rfl]
    exact .opening (below _ _ _ _ (by simp only [List.length_cons]; omega))
  · rw [piecesFrom_of_match [] cs (firstMatch_brace pair) rfl]
    exact .brace pair (below _ _ _ _ (Nat.lt_succ_self _))

/-- The pieces of a tag and of all behind it cover the text, if those of shorter texts do. -/
theorem covers_tag (below : CoveredBelow (c :: cs).length) :
    Covers .tag before (c :: cs) (piecesFrom .tag before index (c :: cs)) := by
  by_cases pair : ['}', '}'] <+: c :: cs
  · obtain ⟨rfl, rest, rfl⟩ := exists_of_pair pair
    have found : firstMatch .tag before ('}' :: '}' :: rest) = _ := firstMatch_closing
    rw [piecesFrom_of_match ['}'] rest found rfl]
    exact .closing (below _ _ _ _ (by simp only [List.length_cons]; omega))
  by_cases blank : isBlank c
  · obtain ⟨run, rest, rfl, taken, inside, -, shorter⟩ := exists_run isBlank cs
    have found : firstMatch .tag before (c :: (run ++ rest)) = _ := firstMatch_blank pair blank
    rw [← taken] at found
    rw [piecesFrom_of_match run rest found rfl, ← List.cons_append]
    refine .blank (by simp) ?_ (below _ _ _ _ (Nat.lt_succ_of_le shorter))
    exact List.forall_mem_cons.mpr ⟨blank, inside⟩
  by_cases word : isWordChar c → isDecimalDigit c
  · rw [piecesFrom_of_match [] cs (firstMatch_error pair blank word) rfl]
    exact .error pair blank word (below _ _ _ _ (Nat.lt_succ_self _))
  obtain ⟨here, noDigit⟩ := Classical.not_imp.mp word
  obtain ⟨run, rest, rfl, taken, inside, ends, shorter⟩ := exists_run isWordChar cs
  have found : firstMatch .tag before (c :: (run ++ rest)) = _ :=
    firstMatch_word pair blank here noDigit
  rw [← taken] at found
  rw [piecesFrom_of_match run rest found rfl, ← List.cons_append]
  refine .word (by simp) ?_ ends (below _ _ _ _ (Nat.lt_succ_of_le shorter))
  exact List.forall_mem_cons.mpr ⟨here, inside⟩

/-- The pieces of every text follow the rules. -/
theorem covers_piecesFrom (region : Region) (before : Option Char) (index : Nat)
    (cs : List Char) : Covers region before cs (piecesFrom region before index cs) := by
  induction length : cs.length using Nat.strongRecOn generalizing region before index cs with
  | _ n ih =>
    have below : CoveredBelow cs.length := fun region before index cs' shorter =>
      ih _ (length ▸ shorter) region before index cs' rfl
    cases cs with
    | nil =>
      rw [piecesFrom]
      exact .done
    | cons c cs =>
      cases region with
      | outside => exact covers_outside below
      | tag => exact covers_tag below

end Highlight
end Stencil
