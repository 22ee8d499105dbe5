/-!
# Dates and times

The dates and times of a TOML document: a day of the calendar, a time of day, or both together,
then also with the distance to universal time.
-/

namespace Stencil.Toml

/-- A decimal numeral of at least `width` digits. -/
def paddedNumeral (width n : Nat) : String :=
  let digits := Nat.toDigits 10 n
  String.ofList (List.replicate (width - digits.length) '0' ++ digits)

/-- A day of the calendar. -/
structure Date where
  year : Nat
  month : Nat
  day : Nat
  deriving Repr, DecidableEq

namespace Date

/-- The number of days in a month. -/
def daysInMonth (year month : Nat) : Nat :=
  if month = 2 then if year % 4 = 0 ∧ (year % 100 ≠ 0 ∨ year % 400 = 0) then 29 else 28
  else if month ∈ [4, 6, 9, 11] then 30
  else 31

/-- The calendar has the day. It starts with the year 1. -/
def isValid (d : Date) : Bool :=
  1 ≤ d.year && 1 ≤ d.month && d.month ≤ 12 && 1 ≤ d.day &&
    d.day ≤ daysInMonth d.year d.month

/-- A day as a text. -/
def text (d : Date) : String :=
  paddedNumeral 4 d.year ++ "-" ++ paddedNumeral 2 d.month ++ "-" ++ paddedNumeral 2 d.day

/-- The numbers that make up a day. -/
def parts (d : Date) : List Nat :=
  [d.year, d.month, d.day]

end Date

/-- A time of day. -/
structure Clock where
  hour : Nat
  minute : Nat
  second : Nat
  microsecond : Nat
  deriving Repr, DecidableEq

namespace Clock

/-- A time of day as a text, without a fraction if it is zero. -/
def text (c : Clock) : String :=
  paddedNumeral 2 c.hour ++ ":" ++ paddedNumeral 2 c.minute ++ ":" ++ paddedNumeral 2 c.second ++
    if c.microsecond = 0 then "" else "." ++ paddedNumeral 6 c.microsecond

/-- The numbers that make up a time of day, without zeros at the end behind the minutes. -/
def parts (c : Clock) : List Nat :=
  if c.microsecond ≠ 0 then [c.hour, c.minute, c.second, c.microsecond]
  else if c.second ≠ 0 then [c.hour, c.minute, c.second]
  else [c.hour, c.minute]

end Clock

/-- A date, a time of day, or both; then `offset`, if it is known, says by how many minutes the
clock is ahead of universal time. -/
inductive Moment where
  | date (d : Date)
  | time (c : Clock)
  | dateTime (d : Date) (c : Clock) (offset : Option Int)
  deriving Repr, DecidableEq

namespace Moment

/-- The name of a moment's type in error texts. -/
def typeName : Moment → String
  | date _ => "datetime.date"
  | time _ => "datetime.time"
  | dateTime .. => "datetime.datetime"

/-- An offset as a text: the sign, hours and minutes. -/
def offsetText (minutes : Int) : String :=
  (if minutes < 0 then "-" else "+") ++ paddedNumeral 2 (minutes.natAbs / 60) ++ ":" ++
    paddedNumeral 2 (minutes.natAbs % 60)

/-- A moment as a text. -/
def text : Moment → String
  | date d => d.text
  | time c => c.text
  | dateTime d c offset => d.text ++ " " ++ c.text ++ (offset.map offsetText).getD ""

/-- The expression for an offset: its days and its seconds, where days may be negative and
seconds are not. -/
def offsetLiteral (minutes : Int) : String :=
  if minutes = 0 then "datetime.timezone.utc"
  else
    let span := if minutes < 0 then "days=-1, seconds=" ++ toString (86400 + minutes * 60)
      else "seconds=" ++ toString (minutes * 60)
    "datetime.timezone(datetime.timedelta(" ++ span ++ "))"

/-- The expression for a moment: its type with the numbers that make it up. -/
def literal (m : Moment) : String :=
  let (parts, offset) := match m with
    | date d => (d.parts, none)
    | time c => (c.parts, none)
    | dateTime d c offset => (d.parts ++ c.parts, offset)
  let zone := offset.toList.map fun minutes => "tzinfo=" ++ offsetLiteral minutes
  m.typeName ++ "(" ++ ", ".intercalate (parts.map toString ++ zone) ++ ")"

end Moment

end Stencil.Toml
