/-!
# Similar texts

How similar two texts are, to guess what a mistyped word was meant to be. The longest run of
characters that both texts have is matched first, then the texts before it and the texts behind
it are matched in the same way. Two texts are similar if the characters matched are at least
three fifths of all.

Of several longest runs the one that comes first in the left text counts, and then the one that
comes first in the right text. So the two sides are not alike, and the known text is always the
left one.
-/

namespace Stencil.Text.Similarity

/-- A run of characters that two texts share: where it starts in each, and its length. -/
structure Run where
  left : Nat
  right : Nat
  length : Nat
  deriving Repr, DecidableEq

/-- The number of characters that two texts share at their start. -/
def sharedStart : List Char → List Char → Nat
  | a :: as, b :: bs => if a = b then sharedStart as bs + 1 else 0
  | _, _ => 0

theorem sharedStart_le (as bs : List Char) :
    sharedStart as bs ≤ as.length ∧ sharedStart as bs ≤ bs.length := by
  fun_induction sharedStart as bs with
  | case1 as b bs ih => simp only [List.length_cons]; omega
  | case2 => simp
  | case3 => simp

/-- The longest run that starts where the left text does. -/
def runAtStart (as : List Char) : List Char → Run
  | [] => ⟨0, 0, 0⟩
  | b :: bs =>
    let here := sharedStart as (b :: bs)
    let later := runAtStart as bs
    if here < later.length then { later with right := later.right + 1 } else ⟨0, 0, here⟩

/-- The longest run of two texts. -/
def longestRun : List Char → List Char → Run
  | [], _ => ⟨0, 0, 0⟩
  | a :: as, bs =>
    let here := runAtStart (a :: as) bs
    let later := longestRun as bs
    if here.length < later.length then { later with left := later.left + 1 } else here

/-- A run lies inside both texts. -/
def Run.Within (r : Run) (as bs : List Char) : Prop :=
  r.left + r.length ≤ as.length ∧ r.right + r.length ≤ bs.length

theorem runAtStart_within (as bs : List Char) : (runAtStart as bs).Within as bs := by
  induction bs with
  | nil => simp [runAtStart, Run.Within]
  | cons b bs ih =>
    have shared := sharedStart_le as (b :: bs)
    simp only [runAtStart]
    split <;> simp only [Run.Within, List.length_cons] at * <;> omega

theorem longestRun_within (as bs : List Char) : (longestRun as bs).Within as bs := by
  induction as with
  | nil => simp [longestRun, Run.Within]
  | cons a as ih =>
    have first := runAtStart_within (a :: as) bs
    simp only [longestRun]
    split <;> simp only [Run.Within, List.length_cons] at * <;> omega

/-- The number of characters matched in two texts. -/
def matched (as bs : List Char) : Nat :=
  let run := longestRun as bs
  if run.length = 0 then 0
  else
    matched (as.take run.left) (bs.take run.right) + run.length +
      matched (as.drop (run.left + run.length)) (bs.drop (run.right + run.length))
termination_by as.length
decreasing_by
  all_goals
    have within := longestRun_within as bs
    have spent : ¬(longestRun as bs).length = 0 := by assumption
    simp only [Run.Within] at within
    simp only [List.length_take, List.length_drop]
    omega

/-- A known text beside a word, with the two numbers that tell how similar they are. -/
structure Candidate where
  text : String
  matched : Nat
  /-- The number of characters in the text and the word together. -/
  total : Nat
  deriving Repr, DecidableEq

namespace Candidate

/-- Compares a known text with a word. -/
def of (word text : String) : Candidate :=
  ⟨text, Similarity.matched text.toList word.toList, text.length + word.length⟩

/-- The characters matched, which are in both texts, are at least three fifths of all. -/
def isSimilar (c : Candidate) : Bool :=
  3 * c.total ≤ 5 * (2 * c.matched)

/-- The first of two candidates is more similar, or as similar and last in the alphabet. -/
def precedes (c d : Candidate) : Bool :=
  d.matched * c.total < c.matched * d.total ||
    d.matched * c.total == c.matched * d.total && !decide (c.text < d.text)

end Candidate

/-- The largest number of guesses for one word. -/
def maxGuesses : Nat := 3

/-- The known texts that a word may have been meant to be, the most similar ones first. -/
def guesses (word : String) (known : List String) : List String :=
  let similar := (known.map (Candidate.of word)).filter (·.isSimilar)
  ((similar.mergeSort Candidate.precedes).take maxGuesses).map (·.text)

end Stencil.Text.Similarity
