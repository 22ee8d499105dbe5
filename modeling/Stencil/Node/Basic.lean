import Stencil.Failure

/-!
# Syntax trees

Syntax trees of templates. A tree that a template compiles to has text, names and blocks only;
the type also has the marks that are no items, a missing branch, and values that are no nodes
at all, because displays, dumps and comparisons answer for those too.
-/

namespace Stencil

/-- The kinds of nodes. -/
inductive NodeKind where
  | invalid
  | ident
  | text
  | list
  | block
  | endMark
  | elseMark
  deriving Repr, DecidableEq

namespace NodeKind

/-- Every kind, in the order of declaration. -/
def all : List NodeKind :=
  [invalid, ident, text, list, block, endMark, elseMark]

/-- The short form of a kind. -/
def label : NodeKind → String
  | invalid => "invalid"
  | ident => "identifier"
  | text => "plaintext"
  | list => "list"
  | block => "if"
  | endMark => "end"
  | elseMark => "else"

/-- The long form of a kind. -/
def title : NodeKind → String
  | invalid => "INVALID"
  | ident => "IDENTIFIER"
  | text => "PLAINTEXT"
  | list => "LIST"
  | block => "IF"
  | endMark => "END"
  | elseMark => "ELSE"

end NodeKind

/-- A syntax tree. -/
inductive Node where
  /-- Text that is copied as it stands. -/
  | text (value : String)
  /-- A name whose value is to be filled in. -/
  | ident (name : String)
  | endMark
  | elseMark
  /-- A run of nodes: a whole template (`root`), or a branch, which ends before one of the
  sequences that `terminators` names. -/
  | list (root : Bool) (terminators : List String) (children : List Node)
  /-- A block with one or two branches, and the tokens that choose between them. -/
  | block (condition : List Token) (whenTrue whenFalse : Node)
  /-- No node: a branch that is missing. -/
  | absent
  /-- A number where a node is expected. -/
  | foreign (value : Int)
  deriving Repr, Inhabited

/-- What is met where a node is needed. -/
inductive Misfit where
  /-- A number cannot be displayed as a node. -/
  | noDisplay (value : Int)
  /-- A number, or nothing at all (`none`), has no kind. -/
  | noKind (value : Option Int)
  deriving Repr, DecidableEq

/-- The wording of a misfit. -/
def Misfit.message : Misfit → String
  | noDisplay value => "not an ein node: " ++ toString value
  | noKind (some _) => "'int' object has no attribute 'kind'"
  | noKind none => "'NoneType' object has no attribute 'kind'"

namespace Node

/-- A list that is no whole template has to end somewhere. -/
def ofChildren (root : Bool) (terminators : List String) (children : List Node) :
    Except Failure Node :=
  if !root && terminators.isEmpty then .error .noTerminators
  else .ok (list root terminators children)

/-- A template without content. -/
def emptyRoot : Node := list true [] []

/-- The kind of a node. -/
def kind : Node → Except Misfit NodeKind
  | text _ => .ok .text
  | ident _ => .ok .ident
  | endMark => .ok .endMark
  | elseMark => .ok .elseMark
  | list .. => .ok .list
  | block .. => .ok .block
  | absent => .error (.noKind none)
  | foreign n => .error (.noKind (some n))

/-- There is something, if only a number. -/
def isPresent : Node → Bool
  | absent => false
  | _ => true

/-- The nodes directly below a node, in order. A branch that is missing is not among them. -/
def children : Node → List Node
  | list _ _ ns => ns
  | block _ t f => [t, f].filter isPresent
  | _ => []

/-- The list with one more child at its end. -/
def push : Node → (child : Node) → Node
  | list root terminators ns, n => list root terminators (ns ++ [n])
  | other, _ => other

mutual

/-- Two trees are the same in all their parts. -/
def same : Node → Node → Bool
  | text a, text b => a == b
  | ident a, ident b => a == b
  | endMark, endMark => true
  | elseMark, elseMark => true
  | list r ts ns, list r' ts' ns' => r == r' && ts == ts' && sameAll ns ns'
  | block c t f, block c' t' f' => c == c' && same t t' && same f f'
  | absent, absent => true
  | foreign a, foreign b => a == b
  | _, _ => false

/-- Two lists of trees are the same, one by one. -/
def sameAll : List Node → List Node → Bool
  | [], [] => true
  | n :: ns, m :: ms => same n m && sameAll ns ms
  | _, _ => false

end

mutual

/-- The comparison of nodes decides their equality. -/
theorem same_iff : ∀ (a b : Node), same a b = true ↔ a = b
  | text a, b => by cases b <;> simp [same]
  | ident a, b => by cases b <;> simp [same]
  | endMark, b => by cases b <;> simp [same]
  | elseMark, b => by cases b <;> simp [same]
  | list r ts ns, b => by
    cases b <;> simp [same, and_assoc]
    next r' ts' ns' => simp [sameAll_iff ns ns']
  | block c t f, b => by
    cases b <;> simp [same, and_assoc]
    next c' t' f' => simp [same_iff t t', same_iff f f']
  | absent, b => by cases b <;> simp [same]
  | foreign a, b => by cases b <;> simp [same]

theorem sameAll_iff : ∀ (ns ms : List Node), sameAll ns ms = true ↔ ns = ms
  | [], ms => by cases ms <;> simp [sameAll]
  | n :: ns, ms => by
    cases ms <;> simp [sameAll]
    next m ms => simp [same_iff n m, sameAll_iff ns ms]

end

instance : DecidableEq Node := fun a b =>
  decidable_of_iff (same a b = true) (same_iff a b)

end Node

end Stencil
