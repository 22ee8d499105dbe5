/-!
# Scopes

Scopes: bindings of names to values, each scope with at most one parent in which the names are
looked up that it does not bind itself. Scopes are numbered in the order of their creation, and
a parent is always older than its children, so a lookup only moves towards older scopes.
-/

namespace Stencil

/-- One scope: its own bindings, each name at most once, and its parent. -/
structure Scope (α : Type) where
  bindings : List (String × α) := []
  parent : Option Nat := none

namespace Scope

variable {α : Type}

/-- The value that the scope itself gives a name. -/
def find? (s : Scope α) (name : String) : Option α :=
  s.bindings.lookup name

/-- Binds a name, in place of an earlier binding. -/
def bind (name : String) (value : α) (s : Scope α) : Scope α :=
  { s with bindings := (name, value) :: s.bindings.filter (·.1 != name) }

/-- A binding is found under its own name, and hides no other. -/
theorem find?_bind (s : Scope α) (name other : String) (value : α) :
    (s.bind name value).find? other = if other = name then some value else s.find? other := by
  have kept (bs : List (String × α)) (h : other ≠ name) :
      (bs.filter (·.1 != name)).lookup other = bs.lookup other := by
    induction bs with
    | nil => rfl
    | cons b bs ih =>
      obtain ⟨key, v⟩ := b
      by_cases hb : key = name
      · simp [hb, List.lookup_cons, ih, beq_eq_false_iff_ne.2 h]
      · simp [hb, List.lookup_cons, ih]
  by_cases h : other = name
  · simp [find?, bind, h]
  · simp [find?, bind, h, List.lookup_cons, kept, beq_eq_false_iff_ne.2 h]

/-- A scope with the given bindings; of several for one name, the last counts. -/
def ofBindings (bindings : List (String × α)) (parent : Option Nat) : Scope α :=
  bindings.foldl (fun s b => s.bind b.1 b.2) { parent }

/-- The bindings in the order of the names. -/
def sorted (s : Scope α) : List (String × α) :=
  s.bindings.mergeSort fun a b => !(b.1 < a.1)

end Scope

/-- All scopes created so far, the newest first. -/
structure Scopes (α : Type) where
  scopes : List (Scope α) := []

namespace Scopes

variable {α : Type}

/-- The number of the next scope. -/
def size (e : Scopes α) : Nat :=
  e.scopes.length

/-- The scope with a number. -/
def scope? (e : Scopes α) (n : Nat) : Option (Scope α) :=
  e.scopes.reverse[n]?

/-- The value of a name in scope number `n` of a list of scopes, newest first: that of the
nearest scope on the way to the root that binds it. -/
def lookup (name : String) : List (Scope α) → (n : Nat) → Option α
  | [], _ => none
  | s :: older, n =>
    if n = older.length then
      match s.find? name with
      | some value => some value
      | none =>
        match s.parent with
        | some p => lookup name older p
        | none => none
    else lookup name older n

/-- The value of a name in a scope. -/
def get? (e : Scopes α) (n : Nat) (name : String) : Option α :=
  lookup name e.scopes n

/-- The name has a value in the scope. -/
def contains (e : Scopes α) (n : Nat) (name : String) : Bool :=
  (e.get? n name).isSome

/-- Creates a scope. -/
def new (bindings : List (String × α)) (parent : Option Nat) (e : Scopes α) : Scopes α :=
  ⟨.ofBindings bindings parent :: e.scopes⟩

/-- Binds a name in scope number `n` of a list of scopes, newest first. -/
def setIn (name : String) (value : α) : List (Scope α) → (n : Nat) → List (Scope α)
  | [], _ => []
  | s :: older, n =>
    if n = older.length then s.bind name value :: older
    else s :: setIn name value older n

/-- Binds a name in a scope. -/
def set (n : Nat) (name : String) (value : α) (e : Scopes α) : Scopes α :=
  ⟨setIn name value e.scopes n⟩

/-- A name that no child scope can be given: it denotes the scope that is being extended. -/
def reservedName : String := "self"

/-- What is wrong with values for a child scope that bind the reserved name. -/
def reservedMessage : String :=
  "Environment.child() got multiple values for argument '" ++ reservedName ++ "'"

/-- Creates a scope below another one, unless the values bind the reserved name. -/
def child (n : Nat) (values : List (String × α)) (e : Scopes α) : Except String (Scopes α) :=
  if values.any (·.1 == reservedName) then .error reservedMessage
  else .ok (e.new values (some n))

end Scopes

end Stencil
