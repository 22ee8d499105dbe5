import Stencil.Node.Shape

/-!
# Trees up to their payload

Comparing trees by their shape is equality of the trees without their payload
(`Node.matchesShape_laws`): `Node.erase` takes out texts, names, conditions and what lists say of
themselves. This holds of trees whose blocks have a first branch and whose nodes are nodes
(`Node.IsTree`). A block whose only branch is the second one has as many children as a block
whose only branch is the first one, and compares equal to it.

The lemma behind it is `Node.IsTree.matchesShape_eq`, by induction on one tree for all others.
-/

namespace Stencil.Node

/-- Trees of nodes: there is nothing that is no node, and every block has its first branch. -/
inductive IsTree : Node → Prop
  | text {value : String} : IsTree (.text value)
  | ident {name : String} : IsTree (.ident name)
  | endMark : IsTree .endMark
  | elseMark : IsTree .elseMark
  | list {root : Bool} {terminators : List String} {ns : List Node} :
    (∀ n ∈ ns, IsTree n) → IsTree (.list root terminators ns)
  | oneBranch {condition : List Token} {t : Node} : IsTree t → IsTree (.block condition t .absent)
  | twoBranches {condition : List Token} {t f : Node} :
    IsTree t → IsTree f → IsTree (.block condition t f)

variable {n m l r s s' : Node} {ns ms : List Node}

/-! ## Comparing children -/

theorem matchEach_nil : matchEach [] [] = .ok true := by
  rw [matchEach]
  · rfl
  · exact nofun

theorem matchEach_singleton (n m : Node) : matchEach [n] [m] = n.matchesShape m := by
  rw [matchEach, matchEach_nil]
  rcases n.matchesShape m with e | _ | _ <;> rfl

theorem matchEach_pair (n n' m m' : Node) :
    matchEach [n, n'] [m, m'] =
      (n.matchesShape m >>= fun same => if same then n'.matchesShape m' else .ok false) := by
  rw [matchEach, matchEach_singleton]
  rfl

/-- Nodes of one kind are compared child by child. -/
theorem matchesShape_of_kind_eq {k : NodeKind} (kind : l.kind = .ok k) (kind' : r.kind = .ok k) :
    l.matchesShape r =
      if l.children.length = r.children.length then matchEach l.children r.children
      else .ok false := by
  cases l with
  | list root names ns =>
    rw [matchesShape, kind, kind']
    refine (if_neg fun differ => differ rfl).trans ?_
    exact ite_not _ _ _
  | block condition t f =>
    have own : (block condition t f).children = [t, f].filter isPresent := rfl
    rw [matchesShape, kind, kind', own]
    refine (if_neg fun differ => differ rfl).trans ?_
    generalize r.children = ms
    -- What the block has below it, and how many nodes there are to compare them with.
    cases whenTrue : t.isPresent <;> cases whenFalse : f.isPresent
    · rcases ms with _ | ⟨m, _ | ⟨m', _ | _⟩⟩ <;>
        simp [whenTrue, whenFalse, matchEach_nil, pure, Except.pure]
    · rcases ms with _ | ⟨m, _ | ⟨m', _ | _⟩⟩ <;>
        simp [whenTrue, whenFalse, matchEach_singleton, pure, Except.pure]
    · rcases ms with _ | ⟨m, _ | ⟨m', _ | _⟩⟩ <;>
        simp [whenTrue, whenFalse, matchEach_singleton, pure, Except.pure]
    · rcases ms with _ | ⟨m, _ | ⟨m', _ | _⟩⟩ <;>
        simp [whenTrue, whenFalse, matchEach_pair, pure, Except.pure]
  | _ =>
    cases r <;> cases kind <;> cases kind'
    all_goals
      rw [matchesShape]
      · exact matchEach_nil.symm
      · exact nofun
      · exact nofun

/-! ## Comparing trees -/

/-- The trees compare equal exactly if they are equal without their payload. -/
def Compares (l r : Node) : Prop :=
  l.matchesShape r = .ok (decide (l.erase = r.erase))

/-- Nodes of different kinds never have the same shape. -/
theorem matchesShape_of_kind_ne {k k' : NodeKind} (kind : l.kind = .ok k) (kind' : r.kind = .ok k')
    (differ : k ≠ k') : l.matchesShape r = .ok false := by
  cases l with
  | list =>
    rw [matchesShape, kind, kind']
    exact if_pos differ
  | block =>
    rw [matchesShape, kind, kind']
    exact if_pos differ
  | _ =>
    rw [matchesShape, kind, kind']
    · exact if_pos differ
    · exact nofun
    · exact nofun

theorem kind_erase (n : Node) : n.erase.kind = n.kind := by
  cases n <;> rw [erase] <;> rfl

/-- Lists of the same length match exactly if their erasures are the same. -/
theorem matchEach_eq (each : ∀ n ∈ ns, ∀ m ∈ ms, Compares n m) (size : ns.length = ms.length) :
    matchEach ns ms = .ok (decide (eraseAll ns = eraseAll ms)) := by
  induction ns generalizing ms with
  | nil =>
    obtain rfl := List.eq_nil_of_length_eq_zero size.symm
    exact matchEach_nil
  | cons n ns ih =>
    cases ms with
    | nil => cases size
    | cons m ms =>
      obtain ⟨here, others⟩ := List.forall_mem_cons.mp each
      have first : n.matchesShape m = _ := here m List.mem_cons_self
      have more := ih (fun n' member m' member' =>
        others n' member m' (List.mem_cons_of_mem _ member')) (Nat.succ.inj size)
      rw [matchEach, first]
      -- The rest is compared only if the first two compare equal.
      by_cases same : n.erase = m.erase
      · simp [eraseAll, same, bind, Except.bind, more]
      · simp [eraseAll, same, bind, Except.bind, pure, Except.pure]

theorem IsTree.ne_absent (tree : n.IsTree) : n ≠ .absent := by
  rintro rfl
  cases tree

theorem IsTree.erase_ne_absent (tree : n.IsTree) : n.erase ≠ .absent := by
  cases tree <;> rw [erase] <;> exact nofun

theorem children_oneBranch {condition : List Token} {t : Node} (tree : t.IsTree) :
    (block condition t .absent).children = [t] := by
  cases tree <;> rfl

theorem children_twoBranches {condition : List Token} {t f : Node} (tree : t.IsTree)
    (tree' : f.IsTree) : (block condition t f).children = [t, f] := by
  cases tree <;> cases tree' <;> rfl

/-- The children of a tree are trees. -/
theorem IsTree.of_mem_children (tree : n.IsTree) (member : m ∈ n.children) : m.IsTree := by
  cases tree with
  | list trees => exact trees m member
  | oneBranch tree =>
    rw [children_oneBranch tree, List.mem_singleton] at member
    rw [member]
    exact tree
  | twoBranches tree tree' =>
    rw [children_twoBranches tree tree', List.mem_cons, List.mem_singleton] at member
    rcases member with rfl | rfl
    · exact tree
    · exact tree'
  | _ => cases member

/-- Without their payload, trees of one kind are equal if their children are. -/
theorem IsTree.erase_eq_iff (tree : l.IsTree) (tree' : r.IsTree) (kind : l.kind = r.kind) :
    l.erase = r.erase ↔ eraseAll l.children = eraseAll r.children := by
  cases tree with
  | list =>
    cases tree' with
    | list => simp [erase, children]
    | _ => cases kind
  | oneBranch whenTrue =>
    cases tree' with
    | oneBranch whenTrue' =>
      simp [erase, eraseAll, children_oneBranch whenTrue, children_oneBranch whenTrue']
    | twoBranches whenTrue' whenFalse' =>
      have some := whenFalse'.erase_ne_absent.symm
      simp [erase, eraseAll, children_oneBranch whenTrue,
        children_twoBranches whenTrue' whenFalse', some]
    | _ => cases kind
  | twoBranches whenTrue whenFalse =>
    cases tree' with
    | oneBranch whenTrue' =>
      have some := whenFalse.erase_ne_absent
      simp [erase, eraseAll, children_twoBranches whenTrue whenFalse,
        children_oneBranch whenTrue', some]
    | twoBranches whenTrue' whenFalse' =>
      simp [erase, eraseAll, children_twoBranches whenTrue whenFalse,
        children_twoBranches whenTrue' whenFalse']
    | _ => cases kind
  | _ =>
    cases tree' <;> cases kind
    simp [erase, eraseAll, children]

theorem IsTree.exists_kind (tree : n.IsTree) : ∃ k, n.kind = .ok k := by
  cases tree <;> exact ⟨_, rfl⟩

/-- Two trees compare as their erasures do, if their children compare so. -/
theorem IsTree.compares_of_children (tree : l.IsTree) (tree' : r.IsTree)
    (each : ∀ n ∈ l.children, ∀ m ∈ r.children, Compares n m) : Compares l r := by
  obtain ⟨k, kind⟩ := tree.exists_kind
  obtain ⟨k', kind'⟩ := tree'.exists_kind
  by_cases differ : k ≠ k'
  · have erased : l.erase ≠ r.erase := by
      intro same
      rw [← kind_erase, same, kind_erase, kind', Except.ok.injEq] at kind
      exact differ kind.symm
    rw [Compares, matchesShape_of_kind_ne kind kind' differ, decide_eq_false erased]
  · obtain rfl : k = k' := by simpa using differ
    rw [Compares, matchesShape_of_kind_eq kind kind']
    have erased := tree.erase_eq_iff tree' (kind.trans kind'.symm)
    by_cases size : l.children.length = r.children.length
    · rw [if_pos size, matchEach_eq each size, decide_eq_decide.mpr erased]
    · have lengths : l.erase ≠ r.erase := by
        intro same
        have lengths := congrArg List.length (erased.mp same)
        rw [eraseAll_eq_map, eraseAll_eq_map, List.length_map, List.length_map] at lengths
        exact size lengths
      rw [if_neg size, decide_eq_false lengths]

/-- Comparing trees is comparing them without their payload. -/
theorem IsTree.compares (tree : l.IsTree) (tree' : r.IsTree) : Compares l r := by
  induction tree generalizing r with
  | list trees ih =>
    exact (IsTree.list trees).compares_of_children tree' fun n member m member' =>
      ih n member (tree'.of_mem_children member')
  | oneBranch tree ih =>
    refine (IsTree.oneBranch tree).compares_of_children tree' fun n member m member' => ?_
    rw [children_oneBranch tree, List.mem_singleton] at member
    rw [member]
    exact ih (tree'.of_mem_children member')
  | twoBranches tree tree₁ ih ih₁ =>
    refine (IsTree.twoBranches tree tree₁).compares_of_children tree' fun n member m member' => ?_
    rw [children_twoBranches tree tree₁, List.mem_cons, List.mem_singleton] at member
    rcases member with rfl | rfl
    · exact ih (tree'.of_mem_children member')
    · exact ih₁ (tree'.of_mem_children member')
  | _ => exact IsTree.compares_of_children (by constructor) tree' nofun

-- Where the first branch is missing, the second one is taken for it.
example : (block [] (.text "") .absent).matchesShape (block [] .absent (.text "")) = .ok true :=
  rfl

theorem IsTree.matchesShape_iff (tree : l.IsTree) (tree' : r.IsTree) :
    l.matchesShape r = .ok true ↔ l.erase = r.erase := by
  rw [tree.compares tree', Except.ok.injEq, decide_eq_true_eq]

theorem IsTree.matchesShape_comm (tree : l.IsTree) (tree' : r.IsTree) :
    l.matchesShape r = r.matchesShape l := by
  rw [tree.compares tree', tree'.compares tree, decide_eq_decide.mpr eq_comm]

theorem IsTree.matchesShape_trans (tree : l.IsTree) (tree' : m.IsTree) (tree'' : r.IsTree)
    (same : l.matchesShape m = .ok true) (same' : m.matchesShape r = .ok true) :
    l.matchesShape r = .ok true := by
  rw [tree.matchesShape_iff tree'] at same
  rw [tree'.matchesShape_iff tree''] at same'
  rw [tree.matchesShape_iff tree'']
  exact same.trans same'

/-- A block with a second branch differs from one without. -/
theorem IsTree.matchesShape_branches (tree : l.IsTree) (tree' : r.IsTree) (tree'' : m.IsTree)
    (condition condition' : List Token) :
    (block condition l m).matchesShape (block condition' r .absent) = .ok false := by
  have differ : (block condition l m).erase ≠ (block condition' r .absent).erase := by
    rw [erase, erase, erase]
    intro same
    exact tree''.erase_ne_absent (block.inj same).2.2
  rw [(IsTree.twoBranches tree tree'').compares (IsTree.oneBranch tree'), decide_eq_false differ]

/-! ## Replacing subtrees -/

/-- `Replaces s s' n m`: in `n`, a subtree `s` stands where `m` has `s'`. -/
inductive Replaces (s s' : Node) : Node → Node → Prop
  | here : Replaces s s' s s'
  | child {root : Bool} {terminators : List String} {n m : Node} {before after : List Node} :
    Replaces s s' n m →
    Replaces s s' (.list root terminators (before ++ n :: after))
      (.list root terminators (before ++ m :: after))
  | whenTrue {condition : List Token} {t t' f : Node} :
    Replaces s s' t t' → Replaces s s' (.block condition t f) (.block condition t' f)
  | whenFalse {condition : List Token} {t f f' : Node} :
    Replaces s s' f f' → Replaces s s' (.block condition t f) (.block condition t f')

theorem Replaces.erase_eq (replaces : Replaces s s' n m) (same : s.erase = s'.erase) :
    n.erase = m.erase := by
  induction replaces with
  | here => exact same
  | child _ ih => simp [erase, eraseAll_eq_map, ih]
  | whenTrue _ ih => rw [erase, erase, ih]
  | whenFalse _ ih => rw [erase, erase, ih]

/-- A tree in the place of a subtree leaves a tree. -/
theorem Replaces.isTree (replaces : Replaces s s' n m) (some : s ≠ .absent) (tree : n.IsTree)
    (tree' : s'.IsTree) : m.IsTree := by
  induction replaces with
  | here => exact tree'
  | child _ ih =>
    cases tree with
    | list trees =>
      rw [List.forall_mem_append, List.forall_mem_cons] at trees
      obtain ⟨before, here, after⟩ := trees
      refine .list ?_
      rw [List.forall_mem_append, List.forall_mem_cons]
      exact ⟨before, ih here, after⟩
  | whenTrue _ ih =>
    cases tree with
    | oneBranch tree => exact .oneBranch (ih tree)
    | twoBranches tree tree₁ => exact .twoBranches (ih tree) tree₁
  | whenFalse inside ih =>
    cases tree with
    | oneBranch tree =>
      cases inside
      exact absurd rfl some
    | twoBranches tree tree₁ => exact .twoBranches tree (ih tree₁)

/-- On trees, comparing shapes is equality up to payload: so it is an equivalence, equal trees
compare equal, a second branch makes a difference, and a subtree can be replaced by one that
compares equal to it. -/
theorem matchesShape_laws (tree : l.IsTree) (tree' : r.IsTree) :
    l.matchesShape r = .ok (decide (l.erase = r.erase)) ∧
      l.matchesShape l = .ok true ∧
      l.matchesShape r = r.matchesShape l ∧
      (∀ m : Node, m.IsTree → l.matchesShape m = .ok true → m.matchesShape r = .ok true →
        l.matchesShape r = .ok true) ∧
      (l = r → l.matchesShape r = .ok true) ∧
      (∀ (condition condition' : List Token) (f : Node), f.IsTree →
        (block condition l f).matchesShape (block condition' r .absent) = .ok false ∧
          (block condition' r .absent).matchesShape (block condition l f) = .ok false) ∧
      ∀ s s' l' : Node, s.IsTree → s'.IsTree → s.matchesShape s' = .ok true → Replaces s s' l l' →
        l.matchesShape l' = .ok true ∧ l'.matchesShape r = l.matchesShape r ∧
          r.matchesShape l' = r.matchesShape l := by
  refine ⟨tree.compares tree', (tree.matchesShape_iff tree).mpr rfl, tree.matchesShape_comm tree',
    ?_, ?_, ?_, ?_⟩
  · intro m tree'' same same'
    exact tree.matchesShape_trans tree'' tree' same same'
  · intro same
    exact (tree.matchesShape_iff tree').mpr (congrArg erase same)
  · intro condition condition' f whenFalse
    have differ := tree.matchesShape_branches tree' whenFalse condition condition'
    refine ⟨differ, ?_⟩
    rw [(IsTree.oneBranch tree').matchesShape_comm (IsTree.twoBranches tree whenFalse)]
    exact differ
  · intro s s' l' sub sub' same replaces
    have replaced := replaces.isTree sub.ne_absent tree sub'
    have erased := replaces.erase_eq ((sub.matchesShape_iff sub').mp same)
    refine ⟨(tree.matchesShape_iff replaced).mpr erased, ?_, ?_⟩
    · rw [replaced.compares tree', tree.compares tree', erased]
    · rw [tree'.compares replaced, tree'.compares tree, erased]

/-- Two blocks with a text each, and one of them with an empty second branch. -/
theorem matchesShape_laws_blocks :
    (block [⟨.ident, "x"⟩] (.list false ["before_end"] [.text "a"]) .absent).matchesShape
        (block [] (.list true [] [.text "b"]) .absent) = .ok true ∧
      (block [] (.list false ["before_end"] [.text "a"])
          (.list false ["before_end"] [])).matchesShape
        (block [] (.list true [] [.text "b"]) .absent) = .ok false := by
  have tree : IsTree (.list false ["before_end"] [.text "a"]) :=
    .list (List.forall_mem_singleton.mpr .text)
  have tree' : IsTree (.list true [] [.text "b"]) := .list (List.forall_mem_singleton.mpr .text)
  have none : IsTree (.list false ["before_end"] []) := .list nofun
  obtain ⟨same, -⟩ := matchesShape_laws (.oneBranch tree) (.oneBranch tree')
  obtain ⟨-, -, -, -, -, differ, -⟩ := matchesShape_laws tree tree'
  refine ⟨?_, (differ [] [] _ none).1⟩
  rw [same]
  rfl

end Stencil.Node
