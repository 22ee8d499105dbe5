/-!
# Decimal numerals

Decimal numerals and the floating point numbers they stand for. A numeral stands for the
floating point number nearest to it. Of the numerals that stand for a number, the shortest one
writes it; of several shortest ones, the nearest.
-/

namespace Stencil

/-- The decimal number `digits * 10 ^ exponent`. -/
structure Decimal where
  digits : Nat
  exponent : Int
  deriving Repr, DecidableEq

namespace Decimal

/-- The number of decimal digits of a natural number. -/
def digitCount (n : Nat) : Nat :=
  (Nat.toDigits 10 n).length

/-- A decimal number is at most as large as another one. -/
def le (a b : Decimal) : Bool :=
  a.digits * Nat.pow 10 (a.exponent - b.exponent).toNat ≤
    b.digits * Nat.pow 10 (b.exponent - a.exponent).toNat

/-- The power of ten just above a decimal number other than zero. -/
def magnitude (d : Decimal) : Int :=
  digitCount d.digits + d.exponent

/-- Numbers of this magnitude or more are read as infinity. -/
def infiniteMagnitude : Int := 310

/-- Numbers of this magnitude or less are read as zero. -/
def vanishingMagnitude : Int := -330

/-- The same number without zeros at the end of its digits. -/
def stripZeros (d : Decimal) : Decimal :=
  if d.digits % 10 = 0 ∧ d.digits ≠ 0 then stripZeros ⟨d.digits / 10, d.exponent + 1⟩ else d
termination_by d.digits
decreasing_by omega

/-- The floating point number nearest to a decimal number. -/
def toFloat (d : Decimal) : Float :=
  if d.digits = 0 ∨ d.magnitude ≤ vanishingMagnitude then 0
  else if infiniteMagnitude ≤ d.magnitude then 1 / 0
  else Float.ofScientific d.digits (d.exponent < 0) d.exponent.natAbs

/-- The decimal number that `significand * 2 ^ exponent` is. -/
def ofBinary (significand : Nat) (exponent : Int) : Decimal :=
  if exponent < 0 then ⟨significand * Nat.pow 5 exponent.natAbs, exponent⟩
  else ⟨significand * Nat.pow 2 exponent.natAbs, 0⟩

end Decimal

/-- The size of a finite floating point number: `significand * 2 ^ exponent`. -/
structure Binary where
  significand : Nat
  exponent : Int
  /-- The next smaller number is only half as far away as the next larger one. -/
  narrowBelow : Bool
  deriving Repr, DecidableEq

namespace Binary

/-- The size of a number with 52 bits for the fraction and eleven for the exponent. -/
def ofBits (bits : Nat) : Binary :=
  let fraction : Nat := bits % Nat.pow 2 52
  let biased : Nat := bits / Nat.pow 2 52 % Nat.pow 2 11
  if biased = 0 then ⟨fraction, -1074, false⟩
  else ⟨Nat.pow 2 52 + fraction, (biased : Int) - 1075, fraction = 0 && 1 < biased⟩

/-- The decimal number that is exactly as large. -/
def exact (x : Binary) : Decimal :=
  .ofBinary x.significand x.exponent

/-- The place half way to the next smaller number. -/
def lowerEnd (x : Binary) : Decimal :=
  .ofBinary (4 * x.significand - if x.narrowBelow then 1 else 2) (x.exponent - 2)

/-- The place half way to the next larger number. -/
def upperEnd (x : Binary) : Decimal :=
  .ofBinary (4 * x.significand + 2) (x.exponent - 2)

/-- The number is the nearest one to a decimal number. Half way between two numbers, the one
with the even significand counts as nearer. -/
def isNearest (x : Binary) (d : Decimal) : Bool :=
  if x.significand % 2 = 0 then x.lowerEnd.le d && d.le x.upperEnd
  else !d.le x.lowerEnd && !x.upperEnd.le d

/-- The nearest decimal number of at most `count` digits that stands for the number. -/
def numeral? (x : Binary) (count : Nat) : Option Decimal :=
  let dropped := Decimal.digitCount x.exact.digits - count
  let unit := Nat.pow 10 dropped
  let lower : Decimal := ⟨x.exact.digits / unit, x.exact.exponent + dropped⟩
  let upper : Decimal := { lower with digits := lower.digits + 1 }
  match x.isNearest lower, x.isNearest upper with
  | true, true =>
    match compare (2 * x.exact.digits) ((2 * lower.digits + 1) * unit) with
    | .lt => some lower
    | .gt => some upper
    | .eq => some (if lower.digits % 2 = 0 then lower else upper)
  | true, false => some lower
  | false, true => some upper
  | false, false => none

/-- So many digits are enough for every number. -/
def maxDigits : Nat := 17

/-- The shortest decimal number that stands for the number. -/
def shortest (x : Binary) : Decimal :=
  (((List.range maxDigits).findSome? fun n => x.numeral? (n + 1)).getD x.exact).stripZeros

end Binary

namespace Decimal

/-- The size of a finite floating point number, as the shortest decimal number. -/
def ofFloat (x : Float) : Decimal :=
  if x == 0 then ⟨0, 0⟩ else (Binary.ofBits x.toBits.toNat).shortest

/-- A numeral with at least one digit on both sides of the point, if the point stands at most
sixteen places behind the first digit and at most four in front of it; otherwise one with a
signed exponent of at least two digits. -/
def text (d : Decimal) : String :=
  let digits := Nat.toDigits 10 d.digits
  let zeros (n : Int) := List.replicate n.toNat '0'
  let orZero (cs : List Char) := if cs.isEmpty then ['0'] else cs
  let point := d.magnitude
  if -4 < point ∧ point ≤ 16 then
    let whole := digits.take point.toNat ++ zeros (point - digits.length)
    let fraction := zeros (-point) ++ digits.drop point.toNat
    String.ofList (orZero whole ++ '.' :: orZero fraction)
  else
    let behind := digits.drop 1
    let exponent := Nat.toDigits 10 (point - 1).natAbs
    String.ofList (digits.take 1 ++ (if behind.isEmpty then [] else '.' :: behind) ++
      ['e', if point < 1 then '-' else '+'] ++ zeros (2 - exponent.length) ++ exponent)

/-- A floating point number as a text. -/
def floatText (x : Float) : String :=
  if x.isNaN then "nan"
  else
    (if x.toBits.toNat < Nat.pow 2 63 then "" else "-") ++
      if x.isInf then "inf" else (ofFloat x).text

end Decimal

end Stencil
