import Stencil.Proofs.Styles

/-!
# Pieces and regions

A highlighted text is its pieces, one behind the other, and nothing is lost: at every place, inside
a tag or outside, some rule matches, so what is done where none does is never done
(`Highlight.exists_placed`). The punctuation among the pieces says where the tags are
(`Highlight.regionBehind`), and every piece is what the rules of its region make of the text from
there on (`Highlight.pieces_laid`).

A place is known by the pieces before it. So what the rules say of the first piece of a place is
said once (`Highlight.Placed`), and an induction on the pieces before it says the same of every
piece of a text.
-/

namespace Stencil
namespace Highlight

open Text

/-! ## Regions -/

/-- The region behind a piece. -/
def Region.behind (region : Region) (p : Piece) : Region :=
  if p.style = .punctuation then
    if p.text = ['{', '{'] then .tag else .outside
  else region

/-- The region behind the first pieces of a text: a tag, if the last punctuation among them opens
one. -/
def regionBehind (ps : List Piece) : Region :=
  ps.foldl Region.behind .outside

/-- Punctuation number `k` of a text. -/
def mark (k : Nat) : List Char :=
  if k % 2 = 0 then ['{', '{'] else ['}', '}']

/-- The region before punctuation number `k`. -/
def Region.numbered (k : Nat) : Region :=
  if k % 2 = 0 then .outside else .tag

/-- What a piece may be, by its region and what is ahead of it. -/
inductive Fits : Region → List Char → Piece → Prop
  | opening {ahead : List Char} {index : Nat} :
    Fits .outside ahead ⟨index, .punctuation, ['{', '{']⟩
  | text {ahead run : List Char} {index : Nat} : Fits .outside ahead ⟨index, .text, run⟩
  | closing {ahead : List Char} {index : Nat} : Fits .tag ahead ⟨index, .punctuation, ['}', '}']⟩
  | blank {ahead run : List Char} {index : Nat} : Fits .tag ahead ⟨index, .blank, run⟩
  | word {ahead run : List Char} {index : Nat} {style : Style} :
    style = .keyword ∨ style = .name → Fits .tag ahead ⟨index, style, run⟩
  | error {ahead : List Char} {index : Nat} {c : Char} :
    ¬isBlank c → ¬['}', '}'] <+: ahead → Fits .tag ahead ⟨index, .error, [c]⟩

/-- The first piece of what is ahead, which is the match of the first rule that matches, and what
is behind it. -/
structure Placed (region : Region) (before : Option Char) (index : Nat) (ahead : List Char)
    (p : Piece) (rest : List Char) : Prop where
  whole : ahead = p.text ++ rest
  filled : p.text ≠ []
  index : p.index = index
  matched : firstMatch region before ahead = some ⟨p.text.length, p.style, region.behind p⟩
  fits : Fits region ahead p

variable {region : Region} {before : Option Char} {index : Nat} {style : Style} {c : Char}
  {cs run rest : List Char} {p : Piece}

/-- A match makes a piece, and the pieces go on behind it. -/
theorem placed_of_match (run rest : List Char)
    (found : firstMatch region before (c :: (run ++ rest)) =
      some ⟨run.length + 1, style, region.behind ⟨index, style, c :: run⟩⟩)
    (fits : Fits region (c :: (run ++ rest)) ⟨index, style, c :: run⟩) :
    ∃ p behind, Placed region before index (c :: (run ++ rest)) p behind ∧
      piecesFrom region before index (c :: (run ++ rest)) =
        p :: piecesFrom (region.behind p) p.text.getLast? (index + p.text.length) behind :=
  ⟨⟨index, style, c :: run⟩, rest, ⟨rfl, List.cons_ne_nil c run, rfl, found, fits⟩,
    piecesFrom_of_match run rest found rfl⟩

/-- The first piece outside of the tags, and where the others start. -/
theorem placed_outside : ∃ p behind, Placed .outside before index (c :: cs) p behind ∧
    piecesFrom .outside before index (c :: cs) =
      p :: piecesFrom (Region.outside.behind p) p.text.getLast? (index + p.text.length) behind := by
  by_cases plain : c ≠ '{'
  · obtain ⟨run, rest, rfl, taken, -⟩ := exists_run (· != '{') cs
    have found : firstMatch .outside before (c :: (run ++ rest)) = _ := firstMatch_text plain
    rw [← taken] at found
    exact placed_of_match run rest found .text
  obtain rfl := Decidable.not_not.mp plain
  by_cases pair : ['{', '{'] <+: '{' :: cs
  · obtain ⟨-, rest, rfl⟩ := exists_of_pair pair
    exact placed_of_match ['{'] rest firstMatch_opening .opening
  · exact placed_of_match [] cs (firstMatch_brace pair) .text

theorem wordStyle_cases (before : Option Char) (run : List Char) :
    wordStyle before run = .keyword ∨ wordStyle before run = .name := by
  rw [wordStyle]
  split
  · exact .inl rfl
  · exact .inr rfl

/-- The first piece in a tag is placed, and the pieces go on behind it. -/
theorem placed_tag : ∃ p behind, Placed .tag before index (c :: cs) p behind ∧
    piecesFrom .tag before index (c :: cs) =
      p :: piecesFrom (Region.tag.behind p) p.text.getLast? (index + p.text.length) behind := by
  by_cases pair : ['}', '}'] <+: c :: cs
  · obtain ⟨rfl, rest, rfl⟩ := exists_of_pair pair
    exact placed_of_match ['}'] rest firstMatch_closing .closing
  by_cases blank : isBlank c
  · obtain ⟨run, rest, rfl, taken, -⟩ := exists_run isBlank cs
    have found : firstMatch .tag before (c :: (run ++ rest)) = _ := firstMatch_blank pair blank
    rw [← taken] at found
    exact placed_of_match run rest found .blank
  by_cases noWord : isWordChar c → isDecimalDigit c
  · exact placed_of_match [] cs (firstMatch_error pair blank noWord) (.error blank pair)
  obtain ⟨inside, noDigit⟩ := Classical.not_imp.mp noWord
  obtain ⟨run, rest, rfl, taken, -⟩ := exists_run isWordChar cs
  have found : firstMatch .tag before (c :: (run ++ rest)) = _ :=
    firstMatch_word pair blank inside noDigit
  rw [← taken] at found
  have styled := wordStyle_cases before (c :: run)
  refine placed_of_match run rest (found.trans ?_) (.word styled)
  rcases styled with same | same
  · rw [same]
    rfl
  · rw [same]
    rfl

/-- At every place some rule matches, and its match is a piece that fits. -/
theorem exists_placed (region : Region) (before : Option Char) (index : Nat) (c : Char)
    (cs : List Char) :
    ∃ p behind, Placed region before index (c :: cs) p behind ∧
      piecesFrom region before index (c :: cs) =
        p :: piecesFrom (region.behind p) p.text.getLast? (index + p.text.length) behind := by
  cases region with
  | outside => exact placed_outside
  | tag => exact placed_tag

theorem Placed.length_lt (placed : Placed region before index cs p rest) :
    rest.length < cs.length := by
  rw [placed.whole, List.length_append]
  exact Nat.lt_add_of_pos_left (List.length_pos_iff.mpr placed.filled)

/-! ## Every piece of a text -/

/-- The pieces make up the text. -/
theorem flatMap_piecesFrom (region : Region) (before : Option Char) (index : Nat)
    (cs : List Char) : (piecesFrom region before index cs).flatMap (·.text) = cs := by
  induction length : cs.length using Nat.strongRecOn generalizing region before index cs with
  | ind n ih =>
    cases cs with
    | nil => rw [piecesFrom, List.flatMap_nil]
    | cons c cs =>
      obtain ⟨p, behind, placed, pieces⟩ := exists_placed region before index c cs
      have shorter : behind.length < n := length ▸ placed.length_lt
      rw [pieces, List.flatMap_cons, ih _ shorter _ _ _ _ rfl, placed.whole]

/-- A piece stands at the place that is behind the pieces before it. -/
theorem placed_of_split {front back : List Piece}
    (split : piecesFrom region before index cs = front ++ p :: back) :
    ∃ rest, Placed (front.foldl Region.behind region)
      ((front.flatMap (·.text)).getLast?.or before) (index + (front.flatMap (·.text)).length)
      (cs.drop (front.flatMap (·.text)).length) p rest := by
  induction front generalizing region before index cs with
  | nil =>
    cases cs with
    | nil =>
      rw [piecesFrom] at split
      cases split
    | cons c cs =>
      obtain ⟨q, behind, placed, pieces⟩ := exists_placed region before index c cs
      rw [pieces] at split
      obtain ⟨rfl, -⟩ := List.cons.inj split
      exact ⟨behind, placed⟩
  | cons r front ih =>
    cases cs with
    | nil =>
      rw [piecesFrom] at split
      cases split
    | cons c cs =>
      obtain ⟨q, behind, placed, pieces⟩ := exists_placed region before index c cs
      rw [pieces, List.cons_append] at split
      obtain ⟨rfl, later⟩ := List.cons.inj split
      obtain ⟨rest, there⟩ := ih later
      refine ⟨rest, ?_⟩
      rw [List.foldl_cons, List.flatMap_cons, List.length_append, List.getLast?_append,
        Option.or_assoc, ← Nat.add_assoc, placed.whole, ← List.drop_drop, List.drop_left]
      obtain ⟨last, ends⟩ := Option.ne_none_iff_exists'.mp
        (mt List.getLast?_eq_none_iff.mp placed.filled)
      rwa [ends, Option.some_or, ← ends]

/-- Punctuation opens and closes tags by turns. -/
theorem Fits.eq_mark {k : Nat} (fits : Fits (.numbered k) cs p)
    (punctuation : p.style = .punctuation) :
    p.text = mark k ∧ (Region.numbered k).behind p = .numbered (k + 1) := by
  generalize turn : Region.numbered k = region at fits
  unfold Region.numbered at turn
  cases fits with
  | opening =>
    have even : k % 2 = 0 := Decidable.byContradiction fun odd => by
      rw [if_neg odd] at turn
      cases turn
    rw [mark, if_pos even, Region.numbered, if_neg (by omega)]
    exact ⟨rfl, rfl⟩
  | closing =>
    have odd : k % 2 ≠ 0 := by
      intro even
      rw [if_pos even] at turn
      cases turn
    rw [mark, if_neg odd, Region.numbered, if_pos (by omega)]
    exact ⟨rfl, rfl⟩
  | text | blank | error => cases punctuation
  | word styled => rcases styled with rfl | rfl <;> cases punctuation

/-- Delimiters alternate: those with an even number open a tag, the others close one. -/
theorem eq_mark_of_punctuation (k : Nat) (before : Option Char) (index : Nat) (cs : List Char) :
    ∀ i q, ((piecesFrom (.numbered k) before index cs).filter
      (·.style = .punctuation))[i]? = some q → q.text = mark (k + i) := by
  induction length : cs.length using Nat.strongRecOn generalizing k before index cs with
  | ind n ih =>
    intro i q found
    cases cs with
    | nil =>
      rw [piecesFrom] at found
      cases found
    | cons c cs =>
      obtain ⟨p, behind, placed, pieces⟩ := exists_placed (.numbered k) before index c cs
      have shorter : behind.length < n := length ▸ placed.length_lt
      rw [pieces] at found
      by_cases punctuation : p.style = .punctuation
      · obtain ⟨text, turns⟩ := placed.fits.eq_mark punctuation
        rw [List.filter_cons_of_pos (by simpa using punctuation), turns] at found
        cases i with
        | zero =>
          obtain rfl := Option.some.inj found
          exact text
        | succ i =>
          rw [ih _ shorter (k + 1) _ _ _ rfl i q found, Nat.add_assoc, Nat.add_comm 1]
      · have stays : (Region.numbered k).behind p = .numbered k := if_neg punctuation
        rw [List.filter_cons_of_neg (by simpa using punctuation), stays] at found
        exact ih _ shorter k _ _ _ rfl i q found

/-- The piece `p` of a text, behind the pieces `front`. -/
structure Laid (cs : List Char) (front : List Piece) (p : Piece) : Prop where
  filled : p.text ≠ []
  index : p.index = (front.flatMap (·.text)).length
  /-- It is what the first rule of its region that matches makes of the text from there on. -/
  matched : firstMatch (regionBehind front) (front.flatMap (·.text)).getLast? (cs.drop p.index) =
    some ⟨p.text.length, p.style, regionBehind (front ++ [p])⟩
  outside : p.style = .text → regionBehind front = .outside
  inside : p.style ∈ [.blank, .keyword, .name, .error] → regionBehind front = .tag
  error : p.style = .error →
    ∃ c, p.text = [c] ∧ ¬isBlank c ∧ ¬['}', '}'] <+: cs.drop p.index

/-- A piece that is placed behind the pieces in front of it is laid in the whole text. -/
theorem Placed.laid {cs : List Char} {front : List Piece} {p : Piece} {rest : List Char}
    (placed : Placed (regionBehind front) (front.flatMap (·.text)).getLast?
      (front.flatMap (·.text)).length (cs.drop (front.flatMap (·.text)).length) p rest) :
    Laid cs front p where
  filled := placed.filled
  index := placed.index
  matched := by
    rw [placed.index, placed.matched, regionBehind, regionBehind, List.foldl_append]
    rfl
  outside text := by
    have fits := placed.fits
    generalize regionBehind front = region at fits
    cases fits with
    | text => rfl
    | opening | closing | blank | error => cases text
    | word styled => rcases styled with rfl | rfl <;> cases text
  inside tag := by
    have fits := placed.fits
    generalize regionBehind front = region at fits
    cases fits with
    | closing | blank | word | error => rfl
    | opening | text => simp at tag
  error error := by
    have fits := placed.fits
    rw [placed.index]
    generalize regionBehind front = region at fits
    cases fits with
    | error noBlank noPair => exact ⟨_, rfl, noBlank, noPair⟩
    | opening | text | closing | blank => cases error
    | word styled => rcases styled with rfl | rfl <;> cases error

/-- Some rule matches at every place of every region; no character of a text is lost and none
is in two pieces; punctuation opens and closes tags by turns; and every piece is laid as the rules
of its region say. -/
theorem pieces_laid (cs : List Char) :
    (∀ (region : Region) (before : Option Char) (c : Char) (ahead : List Char),
        ∃ m, firstMatch region before (c :: ahead) = some m ∧
          0 < m.length ∧ m.length ≤ (c :: ahead).length) ∧
      (pieces cs).flatMap (·.text) = cs ∧
      (∀ i q, ((pieces cs).filter (·.style = .punctuation))[i]? = some q → q.text = mark i) ∧
      ∀ front p back, pieces cs = front ++ p :: back → Laid cs front p := by
  refine ⟨fun region before c ahead => ?_, flatMap_piecesFrom _ _ _ _, fun i q found => ?_,
    fun front p back split => ?_⟩
  · obtain ⟨p, behind, placed, -⟩ := exists_placed region before 0 c ahead
    refine ⟨_, placed.matched, List.length_pos_iff.mpr placed.filled, ?_⟩
    rw [placed.whole, List.length_append]
    exact Nat.le_add_right _ _
  · rw [eq_mark_of_punctuation 0 none 0 cs i q found, Nat.zero_add]
  · obtain ⟨rest, placed⟩ := placed_of_split split
    rw [Option.or_none, Nat.zero_add] at placed
    exact placed.laid

/-- A digit starts no name, a keyword behind a digit is none, and braces that close no tag are
text. -/
theorem pieces_laid_stray :
    pieces "\x7b\x7b9if\x7d\x7d\x7d\x7d".toList =
        [⟨0, .punctuation, ['{', '{']⟩, ⟨2, .error, ['9']⟩, ⟨3, .name, ['i', 'f']⟩,
          ⟨5, .punctuation, ['}', '}']⟩, ⟨7, .text, ['}', '}']⟩] ∧
      ¬isBlank '9' ∧ regionBehind [⟨0, .punctuation, ['{', '{']⟩] = .tag ∧
      ['}', '}'] = mark 1 := by
  have whole : pieces "\x7b\x7b9if\x7d\x7d\x7d\x7d".toList =
      [⟨0, .punctuation, ['{', '{']⟩, ⟨2, .error, ['9']⟩, ⟨3, .name, ['i', 'f']⟩,
        ⟨5, .punctuation, ['}', '}']⟩, ⟨7, .text, ['}', '}']⟩] := by
    decide +kernel
  obtain ⟨-, -, marks, laid⟩ := pieces_laid "\x7b\x7b9if\x7d\x7d\x7d\x7d".toList
  have stray := laid [⟨0, .punctuation, ['{', '{']⟩] ⟨2, .error, ['9']⟩ _ whole
  obtain ⟨c, same, noBlank, -⟩ := stray.error rfl
  obtain rfl : c = '9' := (List.singleton_inj.mp same).symm
  refine ⟨whole, noBlank, stray.inside (by decide), ?_⟩
  exact marks 1 ⟨5, .punctuation, ['}', '}']⟩ (by rw [whole]; rfl)

end Highlight
end Stencil
