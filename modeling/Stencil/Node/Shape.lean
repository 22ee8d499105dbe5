import Stencil.Node.Basic

/-!
# The shape of a tree

Comparing trees by their shape: the kinds of the nodes and how many are below each, but not
their texts, names and conditions. That payload can also be taken out of a tree.
-/

namespace Stencil.Node

mutual

/-- Two trees have one shape. The kinds are compared first, then the number of children, then
the children from the left; something without a kind is a misfit as soon as it is met. -/
def matchesShape (a b : Node) : Except Misfit Bool := do
  let kind ← a.kind
  let kind' ← b.kind
  if kind ≠ kind' then return false
  match a with
  | list _ _ ns =>
    if ns.length ≠ b.children.length then return false else matchEach ns b.children
  | block _ t f =>
    match t.isPresent, f.isPresent, b.children with
    | true, true, [t', f'] =>
      if ← matchesShape t t' then matchesShape f f' else return false
    | true, false, [t'] => matchesShape t t'
    | false, true, [f'] => matchesShape f f'
    | false, false, [] => return true
    | _, _, _ => return false
  | _ => return true

/-- The trees have one shape pair by pair, as far as both lists go. -/
def matchEach : List Node → List Node → Except Misfit Bool
  | n :: ns, m :: ms => do
    if ← matchesShape n m then matchEach ns ms else return false
  | _, _ => return true

end

mutual

/-- The tree without its payload. -/
def erase : Node → Node
  | text _ => text ""
  | ident _ => ident ""
  | endMark => endMark
  | elseMark => elseMark
  | list _ _ ns => list false [] (eraseAll ns)
  | block _ t f => block [] (erase t) (erase f)
  | absent => absent
  | foreign value => foreign value

/-- Trees without their payload. -/
def eraseAll : List Node → List Node
  | [] => []
  | n :: ns => erase n :: eraseAll ns

end

theorem eraseAll_eq_map (ns : List Node) : eraseAll ns = ns.map erase := by
  induction ns with
  | nil => rw [eraseAll, List.map_nil]
  | cons n ns ih => rw [eraseAll, List.map_cons, ih]

end Stencil.Node
