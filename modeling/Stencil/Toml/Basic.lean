import Stencil.Decimal
import Stencil.Text.Literal
import Stencil.Toml.Moment

/-!
# TOML values

Values of a TOML document. Tables keep the order in which their keys were first written.
-/

namespace Stencil

/-- A TOML value. -/
inductive Toml where
  | string (value : String)
  | integer (value : Int)
  | float (value : Float)
  | moment (value : Toml.Moment)
  | boolean (value : Bool)
  | array (items : List Toml)
  | table (entries : List (String × Toml))
  deriving Inhabited

namespace Toml

/-- The entries of a table, in order. -/
abbrev Table := List (String × Toml)

/-- The name of a value's type in error texts. -/
def typeName : Toml → String
  | string _ => "str"
  | integer _ => "int"
  | float _ => "float"
  | moment value => value.typeName
  | boolean _ => "bool"
  | array _ => "list"
  | table _ => "dict"

mutual

/-- A value inside another one, as a text. -/
def nestedText : Toml → String
  | string value => Text.Literal.quote value
  | integer value => toString value
  | float value => Decimal.floatText value
  | moment value => value.literal
  | boolean value => if value then "True" else "False"
  | array items => "[" ++ ", ".intercalate (itemTexts items) ++ "]"
  | table entries => "\x7b" ++ ", ".intercalate (entryTexts entries) ++ "\x7d"

/-- The texts of the items of an array. -/
def itemTexts : List Toml → List String
  | [] => []
  | v :: vs => nestedText v :: itemTexts vs

/-- The texts of the entries of a table. -/
def entryTexts : List (String × Toml) → List String
  | [] => []
  | (key, v) :: entries => (Text.Literal.quote key ++ ": " ++ nestedText v) :: entryTexts entries

end

/-- A value as a text. A string stands for itself, without quotes, and so does a moment. -/
def text : Toml → String
  | string value => value
  | moment value => value.text
  | v => nestedText v

/-- A value with other values in it. -/
def isCompound : Toml → Bool
  | array _ | table _ => true
  | _ => false

namespace Table

/-- Replaces the value of a key, or adds the key behind all others. -/
def put (key : String) (v : Toml) : Table → Table
  | [] => [(key, v)]
  | (k, old) :: rest => if k = key then (k, v) :: rest else (k, old) :: put key v rest

/-- Changes the table behind a path of keys; tables that are missing are created. `intoArrays`
says whether an array on the way stands for its last table. There is nothing to change behind
a key with any other value. -/
def modifyAt (intoArrays : Bool) (f : Table → Option Table) :
    (path : List String) → Table → Option Table
  | [], t => f t
  | key :: path, t =>
    match t.lookup key with
    | none => (modifyAt intoArrays f path []).map fun u => put key (.table u) t
    | some (.table u) => (modifyAt intoArrays f path u).map fun u => put key (.table u) t
    | some (.array items) =>
      match intoArrays, items.getLast? with
      | true, some (.table u) =>
        (modifyAt intoArrays f path u).map fun u =>
          put key (.array (items.dropLast ++ [.table u])) t
      | _, _ => none
    | some _ => none

/-- Adds a key that is not there yet. -/
def add (key : String) (v : Toml) (t : Table) : Option Table :=
  if (t.lookup key).isSome then none else some (put key v t)

/-- Adds an empty table to the array of a key. -/
def grow (key : String) (t : Table) : Option Table :=
  match t.lookup key with
  | none => some (put key (.array [.table []]) t)
  | some (.array items) => some (put key (.array (items ++ [.table []])) t)
  | some _ => none

/-- Adds a value under a key of one or more parts. -/
def addAt (intoArrays : Bool) (key : List String) (v : Toml) (t : Table) : Option Table :=
  match key.getLast? with
  | none => none
  | some last => t.modifyAt intoArrays (add last v) key.dropLast

end Table

/-- A key has a value that may not be extended any more. -/
def isSealed (sealedKeys : List (List String)) (key : List String) : Bool :=
  sealedKeys.any (·.isPrefixOf key)

end Toml

end Stencil
