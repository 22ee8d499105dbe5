import Stencil.Toml.Scan.Moment
import Stencil.Toml.Scan.Number
import Stencil.Toml.Scan.String

/-!
# Reading values

Values, arrays and tables included, and keys with their values.
-/

namespace Stencil.Toml

/-- A date, a time of day or a number. What starts like a date is one, and malformed if the
calendar does not have it. -/
def momentOrNumber (cs : List Char) : Read Toml :=
  match date cs with
  | some (d, cs) =>
    if d.isValid then
      let (m, cs) := behindDate d cs
      some (.moment m, cs)
    else none
  | none =>
    match clock cs with
    | some (c, cs) => some (.moment (.time c), cs)
    | none => number cs

/-- A value that has no parts. -/
def scalar : List Char → Read Toml
  | '"' :: '"' :: '"' :: cs =>
    (basicBlock [] (skipFirstNewline cs)).map fun (s, cs) => (.string s, cs)
  | '"' :: cs => (basicString [] cs).map fun (s, cs) => (.string s, cs)
  | '\'' :: '\'' :: '\'' :: cs =>
    (literalBlock [] (skipFirstNewline cs)).map fun (s, cs) => (.string s, cs)
  | '\'' :: cs => (literalString cs).map fun (s, cs) => (.string s, cs)
  | 't' :: 'r' :: 'u' :: 'e' :: cs => some (.boolean true, cs)
  | 'f' :: 'a' :: 'l' :: 's' :: 'e' :: cs => some (.boolean false, cs)
  | cs => momentOrNumber cs

mutual

/-- A value. -/
def value : (bound : Nat) → List Char → Read Toml
  | 0, _ => none
  | bound + 1, cs =>
    match cs with
    | '[' :: cs =>
      match skipFill false cs with
      | none => none
      | some (']' :: cs) => some (.array [], cs)
      | some cs => items bound [] cs
    | '{' :: cs =>
      match skipSpace cs with
      | '}' :: cs => some (.table [], cs)
      | cs => entries bound [] [] cs
    | cs => scalar cs

/-- The items of an array, on top of those read (the latest first). -/
def items : (bound : Nat) → (done : List Toml) → List Char → Read Toml
  | 0, _, _ => none
  | bound + 1, done, cs =>
    match value bound cs with
    | none => none
    | some (v, cs) =>
      match skipFill false cs with
      | some (']' :: cs) => some (.array (v :: done).reverse, cs)
      | some (',' :: cs) =>
        match skipFill false cs with
        | none => none
        | some (']' :: cs) => some (.array (v :: done).reverse, cs)
        | some cs => items bound (v :: done) cs
      | _ => none

/-- The entries of a table written as a value, on top of those read. -/
def entries : (bound : Nat) → (sealedKeys : List (List String)) → (done : Table) →
    List Char → Read Toml
  | 0, _, _, _ => none
  | bound + 1, sealedKeys, done, cs =>
    match key cs with
    | some (k, '=' :: cs) =>
      match value bound (skipSpace cs) with
      | none => none
      | some (v, cs) =>
        if isSealed sealedKeys k then none
        else
          match done.addAt false k v with
          | none => none
          | some done =>
            match skipSpace cs with
            | '}' :: cs => some (.table done, cs)
            | ',' :: cs =>
              entries bound (if isCompound v then k :: sealedKeys else sealedKeys) done
                (skipSpace cs)
            | _ => none
    | _ => none

end

/-- A key with its value. -/
def assignment (cs : List Char) : Read (List String × Toml) :=
  match key cs with
  | some (k, '=' :: cs) => (value cs.length (skipSpace cs)).map fun (v, cs) => ((k, v), cs)
  | _ => none

end Stencil.Toml
