import Stencil.Toml.Basic
import Stencil.Toml.Scan.Basic

/-!
# Reading numbers

Whole numbers in four bases and decimal numbers with a fraction or a power of ten. An underscore
may stand between two digits.
-/

namespace Stencil.Toml

/-- Digits behind a first digit; an underscore may stand between two digits. -/
def moreDigits (isDigit : Char → Bool) : List Char → List Char × List Char
  | '_' :: d :: cs =>
    if isDigit d then
      let (ds, rest) := moreDigits isDigit cs
      (d :: ds, rest)
    else ([], '_' :: d :: cs)
  | d :: cs =>
    if isDigit d then
      let (ds, rest) := moreDigits isDigit cs
      (d :: ds, rest)
    else ([], d :: cs)
  | [] => ([], [])

/-- A natural number in a base. -/
def natural (base : Nat) (isDigit : Char → Bool) : List Char → Read Nat
  | d :: cs =>
    if isDigit d then
      let (ds, rest) := moreDigits isDigit cs
      some (ofDigits base (d :: ds), rest)
    else none
  | [] => none

/-- A whole number without a sign: no digit follows a leading zero. -/
def unsigned : List Char → Read Nat
  | '0' :: cs => some (0, cs)
  | cs => natural 10 Char.isDigit cs

/-- The sign of a number, which may be missing; true if the number is negative. -/
def sign : List Char → Bool × List Char
  | '-' :: cs => (true, cs)
  | '+' :: cs => (false, cs)
  | cs => (false, cs)

/-- The digits behind a decimal point; none if there is no point with a digit behind it. -/
def fraction : List Char → List Char × List Char
  | '.' :: d :: cs =>
    if d.isDigit then
      let (ds, rest) := moreDigits Char.isDigit cs
      (d :: ds, rest)
    else ([], '.' :: d :: cs)
  | cs => ([], cs)

/-- The power of ten at the end of a number, if there is one. -/
def powerOfTen (cs : List Char) : Option Int × List Char :=
  match cs with
  | mark :: behind =>
    if mark = 'e' ∨ mark = 'E' then
      let (negative, digits) := sign behind
      match natural 10 Char.isDigit digits with
      | some (n, rest) => (some (if negative then -(n : Int) else n), rest)
      | none => (none, cs)
    else (none, cs)
  | [] => (none, [])

/-- A decimal number: a whole one, or one with a fraction, a power of ten or both. -/
def decimal (cs : List Char) : Read Toml :=
  let (negative, cs) := sign cs
  (unsigned cs).map fun (n, cs) =>
    let (fraction, cs) := fraction cs
    let (power, cs) := powerOfTen cs
    if fraction.isEmpty && power.isNone then
      (.integer (if negative then -(n : Int) else n), cs)
    else
      let size := Decimal.toFloat
        ⟨n * Nat.pow 10 fraction.length + ofDigits 10 fraction, power.getD 0 - fraction.length⟩
      (.float (if negative then -size else size), cs)

/-- A number that no digits write: infinity, or what is no number. -/
def specialNumber (cs : List Char) : Read Toml :=
  let (negative, cs) := sign cs
  match cs with
  | 'i' :: 'n' :: 'f' :: cs => some (.float (if negative then -(1 / 0) else 1 / 0), cs)
  | 'n' :: 'a' :: 'n' :: cs => some (.float (0 / 0), cs)
  | _ => none

/-- A number, decimal or with the mark of another base. -/
def number (cs : List Char) : Read Toml :=
  let based := match cs with
    | '0' :: 'x' :: cs => natural 16 isHexDigit cs
    | '0' :: 'b' :: cs => natural 2 (fun c => c == '0' || c == '1') cs
    | '0' :: 'o' :: cs => natural 8 (fun c => '0' ≤ c && c ≤ '7') cs
    | _ => none
  match based with
  | some (n, cs) => some (.integer n, cs)
  | none => (decimal cs).or (specialNumber cs)

end Stencil.Toml
