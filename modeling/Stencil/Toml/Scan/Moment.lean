import Stencil.Toml.Moment
import Stencil.Toml.Scan.Basic

/-!
# Reading dates and times

Dates, times of day, and both together with an offset from universal time. All their numbers have
a fixed width.
-/

namespace Stencil.Toml

/-- A number of exactly `width` digits that is not above `greatest`. -/
def fixedNumber (width greatest : Nat) (cs : List Char) : Read Nat :=
  let digits := cs.take width
  let n := ofDigits 10 digits
  if digits.length = width ∧ digits.all Char.isDigit ∧ n ≤ greatest then
    some (n, cs.drop width)
  else none

/-- The number of microseconds that the digits behind a decimal point stand for, if there are
any. Digits beyond the sixth do not count. -/
def microseconds : List Char → Nat × List Char
  | '.' :: cs =>
    match cs.takeWhile Char.isDigit with
    | [] => (0, '.' :: cs)
    | digits =>
      let counted := digits.take 6
      (ofDigits 10 counted * Nat.pow 10 (6 - counted.length), cs.dropWhile Char.isDigit)
  | cs => (0, cs)

/-- A character that has to stand at a place. -/
def expect (c : Char) : List Char → Option (List Char)
  | d :: cs => if d = c then some cs else none
  | [] => none

/-- A time of day. -/
def clock (cs : List Char) : Option (Clock × List Char) := do
  let (hour, cs) ← fixedNumber 2 23 cs
  let (minute, cs) ← fixedNumber 2 59 (← expect ':' cs)
  let (second, cs) ← fixedNumber 2 59 (← expect ':' cs)
  let (microsecond, cs) := microseconds cs
  return (⟨hour, minute, second, microsecond⟩, cs)

/-- Three numbers that may be a date. Whether the calendar has it is another question, but no
month has more than 31 days. -/
def date (cs : List Char) : Option (Date × List Char) := do
  let (year, cs) ← fixedNumber 4 9999 cs
  let (month, cs) ← fixedNumber 2 12 (← expect '-' cs)
  let (day, cs) ← fixedNumber 2 31 (← expect '-' cs)
  if month = 0 ∨ day = 0 then none else return (⟨year, month, day⟩, cs)

/-- The offset behind a time of day, if there is one. -/
def offset (cs : List Char) : Option Int × List Char :=
  match cs with
  | mark :: behind =>
    if mark = 'Z' ∨ mark = 'z' then (some 0, behind)
    else if mark = '+' ∨ mark = '-' then
      let distance := do
        let (hours, cs) ← fixedNumber 2 23 behind
        let (minutes, cs) ← fixedNumber 2 59 (← expect ':' cs)
        return (hours * 60 + minutes, cs)
      match distance with
      | some (n, rest) => (some (if mark = '-' then -(n : Int) else n), rest)
      | none => (none, cs)
    else (none, cs)
  | [] => (none, [])

/-- What follows a date, up to the end of the moment: a time of day, or nothing. -/
def behindDate (d : Date) (cs : List Char) : Moment × List Char :=
  let time := match cs with
    | mark :: behind => if mark = 'T' ∨ mark = 't' ∨ mark = ' ' then clock behind else none
    | [] => none
  match time with
  | some (c, rest) =>
    let (offset, rest) := offset rest
    (.dateTime d c offset, rest)
  | none => (.date d, cs)

end Stencil.Toml
