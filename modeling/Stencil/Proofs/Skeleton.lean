import Stencil.Proofs.RoundTrip
import Stencil.Proofs.Shape

/-!
# Skeletons of token streams

The trees of two templates compare equal exactly if the token streams of the templates have one
skeleton (`matchesShape_eq_skeleton`): the kinds of the tokens, with a mark in the place of each
condition.

The skeleton of a tree (`Node.signsAll`) is that of the tokens it yields (`skeleton_yieldAll`),
and it is the skeleton of the tree without its payload. What is left is that nesting can be read
off the signs in one way only, whatever stands behind a list, as long as it starts no item
(`Node.Grammatical.signsAll_append_inj`).
-/

namespace Stencil

/-- What a skeleton keeps of a token stream. -/
inductive Sign where
  | kind (k : TokenKind)
  /-- The place of a condition. -/
  | condition
  deriving Repr, DecidableEq

/-- The skeleton of a token stream, from inside a condition or from outside: the kinds of the
tokens, but for the tokens from the word that starts a block to the end of its tag. -/
def skeleton : (inCondition : Bool) → List Token → List Sign
  | _, [] => []
  | true, t :: ts =>
    if t.kind = .rightMeta then .kind .rightMeta :: skeleton false ts else skeleton true ts
  | false, t :: ts =>
    if t.kind = .ifWord then .kind .ifWord :: .condition :: skeleton true ts
    else .kind t.kind :: skeleton false ts

variable {t : Token} {ts rest : List Token}

theorem skeleton_cons (other : t.kind ≠ .ifWord) :
    skeleton false (t :: ts) = .kind t.kind :: skeleton false ts := by
  rw [skeleton, if_neg other]

theorem skeleton_condition {condition : List Token} (inner : ∀ t ∈ condition, t.Inner) :
    skeleton true (condition ++ .right :: rest) = .kind .rightMeta :: skeleton false rest := by
  induction condition with
  | nil => rfl
  | cons t ts ih =>
    obtain ⟨here, others⟩ := List.forall_mem_cons.mp inner
    rw [List.cons_append, skeleton, if_neg here.1, ih others]

namespace Sign

/-- A tag of one word. -/
def tag (k : TokenKind) : List Sign :=
  [.kind .leftMeta, .kind k, .kind .rightMeta]

/-- The first tag of a block. -/
def blockHead : List Sign :=
  [.kind .leftMeta, .kind .ifWord, .condition, .kind .rightMeta]

/-- An item of a list starts here. -/
def startsItem : List Sign → Bool
  | .kind .text :: _ => true
  | .kind .leftMeta :: .kind .ident :: _ => true
  | .kind .leftMeta :: .kind .ifWord :: _ => true
  | _ => false

end Sign

namespace Node

open Sign

mutual

/-- The skeleton of a tree. -/
def signs : Node → List Sign
  | text _ => [.kind .text]
  | ident _ => tag .ident
  | block _ t f =>
    Sign.blockHead ++ (signs t ++ ((if f.isPresent then tag .elseWord ++ signs f else []) ++
      tag .endWord))
  | list _ _ ns => signsAll ns
  | _ => []

/-- The skeleton of a list of trees. -/
def signsAll : List Node → List Sign
  | [] => []
  | n :: ns => signs n ++ signsAll ns

end

variable {depth depth' : Int} {ns ms ts fs : List Node} {rest : List Token} {xs ys : List Sign}

theorem signs_oneBranch (condition : List Token) (names : List String) (ts : List Node) :
    signs (.block condition (.list false names ts) .absent) =
      Sign.blockHead ++ (signsAll ts ++ tag .endWord) := by
  simp [signs, isPresent]

theorem signs_twoBranches (condition : List Token) (names names' : List String)
    (ts fs : List Node) :
    signs (.block condition (.list false names ts) (.list false names' fs)) =
      Sign.blockHead ++ (signsAll ts ++ (tag .elseWord ++ (signsAll fs ++ tag .endWord))) := by
  simp [signs, isPresent]

/-! ## Trees and tokens -/

theorem skeleton_blockHead {condition : List Token} (inner : ∀ t ∈ condition, t.Inner) :
    skeleton false (blockHead condition ++ rest) = Sign.blockHead ++ skeleton false rest := by
  have whole : blockHead condition ++ rest = .left :: .ifMark :: (condition ++ .right :: rest) := by
    simp [blockHead]
  have word : Token.ifMark.kind = .ifWord := rfl
  rw [whole, skeleton_cons (by decide), skeleton, if_pos word, skeleton_condition inner]
  rfl

theorem skeleton_tag {t : Token} (other : t.kind ≠ .ifWord) :
    skeleton false (.left :: t :: .right :: rest) = tag t.kind ++ skeleton false rest := by
  rw [skeleton_cons (by decide), skeleton_cons other, skeleton_cons (by decide)]
  rfl

theorem skeleton_endTag :
    skeleton false (Token.endTag ++ rest) = tag .endWord ++ skeleton false rest :=
  skeleton_tag nofun

theorem skeleton_elseTag :
    skeleton false (Token.elseTag ++ rest) = tag .elseWord ++ skeleton false rest :=
  skeleton_tag nofun

/-- The skeleton of a tree is the skeleton of its yield. -/
theorem Grammatical.skeleton_yieldAll (grammatical : Grammatical depth ns) :
    skeleton false (yieldAll ns ++ rest) = signsAll ns ++ skeleton false rest := by
  induction grammatical generalizing rest with
  | nil => rfl
  | @text depth value ns _ ih =>
    have word : TokenKind.text ≠ .ifWord := by decide
    rw [yieldAll, yield, signsAll, signs, List.append_assoc, List.singleton_append,
      skeleton_cons word, ih]
    rfl
  | @ident depth name ns _ ih =>
    have word : TokenKind.ident ≠ .ifWord := by decide
    rw [yieldAll, yield, signsAll, signs, List.append_assoc, List.append_assoc, ← ih]
    exact skeleton_tag word
  | oneBranch _ _ inner _ _ ih ih' =>
    rw [yieldAll, signsAll, yield_oneBranch, signs_oneBranch]
    simp only [List.append_assoc]
    rw [skeleton_blockHead inner, ih, skeleton_endTag, ih']
  | twoBranches _ _ inner _ _ _ ih ih' ih'' =>
    rw [yieldAll, signsAll, yield_twoBranches, signs_twoBranches]
    simp only [List.append_assoc]
    rw [skeleton_blockHead inner, ih, skeleton_elseTag, ih', skeleton_endTag, ih'']

/-! ## Trees without their payload -/

mutual

/-- Erasing the contents of a tree leaves its signs. -/
theorem signs_erase : ∀ n : Node, signs n.erase = signs n
  | text _ => rfl
  | ident _ => rfl
  | endMark => rfl
  | elseMark => rfl
  | list _ _ ns => by rw [erase, signs, signs, signsAll_eraseAll ns]
  | block _ t f => by
    have present : f.erase.isPresent = f.isPresent := by cases f <;> rw [erase] <;> rfl
    rw [erase, signs, signs, signs_erase t, signs_erase f, present]
  | absent => rfl
  | foreign _ => rfl

theorem signsAll_eraseAll : ∀ ns : List Node, signsAll (eraseAll ns) = signsAll ns
  | [] => rfl
  | n :: ns => by rw [eraseAll, signsAll, signsAll, signs_erase n, signsAll_eraseAll ns]

end

/-! ## Reading a skeleton -/

/-- The items of a list can be read off the signs in one way only, up to where no item starts. -/
theorem Grammatical.signsAll_append_inj (grammatical : Grammatical depth ns)
    (grammatical' : Grammatical depth' ms) (ends : startsItem xs = false)
    (ends' : startsItem ys = false) (same : signsAll ns ++ xs = signsAll ms ++ ys) :
    eraseAll ns = eraseAll ms ∧ xs = ys := by
  -- The first two signs tell the kind of the first item. The tag behind a branch starts no item,
  -- so the branch ends there in both lists, and the tag tells whether there is another branch.
  induction grammatical generalizing depth' ms xs ys with
  | nil =>
    cases grammatical' with
    | nil => exact ⟨rfl, same⟩
    | _ =>
      obtain rfl : xs = _ := same
      cases ends
  | text _ ih =>
    cases grammatical' with
    | nil =>
      obtain rfl : _ = ys := same
      cases ends'
    | text more =>
      obtain ⟨erased, behind⟩ := ih more ends ends' (List.cons.inj same).2
      rw [eraseAll, eraseAll, erased]
      exact ⟨rfl, behind⟩
    | _ => cases (List.cons.inj same).1
  | ident _ ih =>
    cases grammatical' with
    | nil =>
      obtain rfl : _ = ys := same
      cases ends'
    | text => cases (List.cons.inj same).1
    | ident more =>
      simp only [signsAll, signs, List.append_assoc] at same
      obtain ⟨erased, behind⟩ := ih more ends ends' (List.append_cancel_left same)
      rw [eraseAll, eraseAll, erased]
      exact ⟨rfl, behind⟩
    | _ => cases (List.cons.inj (List.cons.inj same).2).1
  | oneBranch _ _ _ _ _ ih ih' =>
    cases grammatical' with
    | nil =>
      obtain rfl : _ = ys := same
      cases ends'
    | text => cases (List.cons.inj same).1
    | ident => cases (List.cons.inj (List.cons.inj same).2).1
    | oneBranch _ _ _ inside more =>
      simp only [signsAll, signs_oneBranch, List.append_assoc] at same
      obtain ⟨erased, behind⟩ := ih inside rfl rfl (List.append_cancel_left same)
      obtain ⟨erased', behind⟩ := ih' more ends ends' (List.append_cancel_left behind)
      refine ⟨?_, behind⟩
      simp only [eraseAll, erase, erased, erased']
    | twoBranches _ _ _ inside =>
      simp only [signsAll, signs_oneBranch, signs_twoBranches, List.append_assoc] at same
      obtain ⟨-, behind⟩ := ih inside rfl rfl (List.append_cancel_left same)
      cases (List.cons.inj (List.cons.inj behind).2).1
  | twoBranches _ _ _ _ _ _ ih ih' ih'' =>
    cases grammatical' with
    | nil =>
      obtain rfl : _ = ys := same
      cases ends'
    | text => cases (List.cons.inj same).1
    | ident => cases (List.cons.inj (List.cons.inj same).2).1
    | oneBranch _ _ _ inside =>
      simp only [signsAll, signs_oneBranch, signs_twoBranches, List.append_assoc] at same
      obtain ⟨-, behind⟩ := ih inside rfl rfl (List.append_cancel_left same)
      cases (List.cons.inj (List.cons.inj behind).2).1
    | twoBranches _ _ _ inside inside' more =>
      simp only [signsAll, signs_twoBranches, List.append_assoc] at same
      obtain ⟨erased, behind⟩ := ih inside rfl rfl (List.append_cancel_left same)
      obtain ⟨erased', behind⟩ := ih' inside' rfl rfl (List.append_cancel_left behind)
      obtain ⟨erased'', behind⟩ := ih'' more ends ends' (List.append_cancel_left behind)
      refine ⟨?_, behind⟩
      simp only [eraseAll, erase, erased, erased', erased'']

/-- Grammatical lists are lists of trees. -/
theorem Grammatical.isTree (grammatical : Grammatical depth ns) : ∀ n ∈ ns, n.IsTree := by
  induction grammatical with
  | nil => exact nofun
  | text _ ih => exact List.forall_mem_cons.mpr ⟨.text, ih⟩
  | ident _ ih => exact List.forall_mem_cons.mpr ⟨.ident, ih⟩
  | oneBranch _ _ _ _ _ ih ih' =>
    exact List.forall_mem_cons.mpr ⟨.oneBranch (.list ih), ih'⟩
  | twoBranches _ _ _ _ _ _ ih ih' ih'' =>
    exact List.forall_mem_cons.mpr ⟨.twoBranches (.list ih) (.list ih'), ih''⟩

end Node

/-- The trees of two templates compare equal exactly if their tokens have one skeleton. -/
theorem matchesShape_eq_skeleton {a b : String} {l r : Node}
    (compiled : compile (.ofText a) = .ok l) (compiled' : compile (.ofText b) = .ok r) :
    ∃ ts us, tokenize (.ofText a) = .ok ts ∧ tokenize (.ofText b) = .ok us ∧
      l.matchesShape r = .ok (decide (skeleton false ts = skeleton false us)) := by
  obtain ⟨ns, rfl, written, grammatical⟩ := compile_eq_ok_iff.mp compiled
  obtain ⟨ms, rfl, written', grammatical'⟩ := compile_eq_ok_iff.mp compiled'
  refine ⟨_, _, tokenize_ofText a, tokenize_ofText b, ?_⟩
  have tree : Node.IsTree (.list true [] ns) := .list grammatical.isTree
  have tree' : Node.IsTree (.list true [] ms) := .list grammatical'.isTree
  rw [tree.compares tree', written, written', grammatical.skeleton_yieldAll,
    grammatical'.skeleton_yieldAll, Except.ok.injEq, decide_eq_decide]
  constructor
  · intro same
    rw [Node.erase, Node.erase] at same
    rw [← Node.signsAll_eraseAll ns, (Node.list.inj same).2.2, Node.signsAll_eraseAll]
  · intro same
    have erased := (grammatical.signsAll_append_inj grammatical' rfl rfl same).1
    rw [Node.erase, Node.erase, erased]

/-- Two blocks with a text each, under conditions of different length. -/
theorem matchesShape_eq_skeleton_conditions :
    ∃ l r : Node, compile (.ofText "\x7b\x7bif a\x7d\x7dx\x7b\x7bend\x7d\x7d") = .ok l ∧
      compile (.ofText "\x7b\x7bif b end\x7d\x7dy\x7b\x7bend\x7d\x7d") = .ok r ∧
      l.matchesShape r = .ok true ∧
      ∃ ts us, tokenize (.ofText "\x7b\x7bif a\x7d\x7dx\x7b\x7bend\x7d\x7d") = .ok ts ∧
        tokenize (.ofText "\x7b\x7bif b end\x7d\x7dy\x7b\x7bend\x7d\x7d") = .ok us ∧
        l.matchesShape r = .ok (decide (skeleton false ts = skeleton false us)) := by
  have isTerm : Token.IsTerm ⟨.ident, "a"⟩ :=
    .inl ⟨rfl, Lexer.isWord_of_all 'a' [] rfl (by decide) (by decide), by decide⟩
  have isTerm' : Token.IsTerm ⟨.ident, "b"⟩ :=
    .inl ⟨rfl, Lexer.isWord_of_all 'b' [] rfl (by decide) (by decide), by decide⟩
  have formed : Node.WellFormed (.list true [] [
      .block [⟨.ident, "a"⟩] (.list false Parser.firstEnd [.text "x"]) .absent]) := by
    refine ⟨_, rfl, .oneBranch (by decide) (List.cons_ne_nil _ _) ?_ ?_ .nil⟩
    · exact List.forall_mem_singleton.mpr isTerm
    · exact .text ⟨by decide, Lexer.noPair_singleton⟩ (by simp) (by decide) .nil
  have formed' : Node.WellFormed (.list true [] [
      .block [⟨.ident, "b"⟩, .endMark] (.list false Parser.firstEnd [.text "y"]) .absent]) := by
    refine ⟨_, rfl, .oneBranch (by decide) (List.cons_ne_nil _ _) ?_ ?_ .nil⟩
    · have last : Token.endMark.IsTerm := .inr (.inr (.inr rfl))
      exact List.forall_mem_cons.mpr ⟨isTerm', List.forall_mem_singleton.mpr last⟩
    · exact .text ⟨by decide, Lexer.noPair_singleton⟩ (by simp) (by decide) .nil
  have compiled := formed.compile_eq
  have compiled' := formed'.compile_eq
  exact ⟨_, _, compiled, compiled', rfl, matchesShape_eq_skeleton compiled compiled'⟩

end Stencil
