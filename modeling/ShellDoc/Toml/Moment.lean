import ShellDoc.Text.Decimal
import ShellDoc.Text.Units
import ShellDoc.Toml.Value
import ShellDoc.Toml.Word

/-!
# TOML dates and times

A date, a date with a time of day and perhaps an offset, or a time of day alone. The readers check
the form; `isTime`, `isDay` and `isDate` check the numbers.

A date alone is also accepted when its month or day has another number of digits than two, and is
then read as month, day and year when the first number could be a day.
-/

namespace ShellDoc.Toml

namespace Moment

/-- The number lies in a range. -/
def between (n low high : Nat) : Bool := low ≤ n && n ≤ high

/-- Two digits that write a number in a range. -/
def isPair (digits : Text) (low high : Nat) : Bool :=
  digits.length == 2 && between (Decimal.value digits) low high

/-- A month and a day in two digits each. -/
def isDay (month day : Text) : Bool := isPair month 1 12 && isPair day 1 31

/-- A time of day. The hour 24 is midnight sharp. -/
def isTime (hour minute second fraction : Text) : Bool :=
  (isPair hour 0 23 && isPair minute 0 59 && isPair second 0 59) ||
    (isPair hour 24 24 && isPair minute 0 0 && isPair second 0 0 &&
      fraction.all (· == '0'))

/-- The day comes no later than 13 September 275760, the last one on which a moment can be told. -/
def canBeTold (year month day : Nat) : Bool :=
  year < 275760 || (year == 275760 && (month < 9 || (month == 9 && day ≤ 13)))

/-- A date alone. The day may be missing. -/
def isDate (year month day : Text) : Bool :=
  let y := Decimal.value year
  let m := Decimal.value month
  let d := if day.isEmpty then 1 else Decimal.value day
  isDay month day ||
    if between y 1 31 then between y 1 12 && between m 1 31 && canBeTold d y m
    else between m 1 12 && between d 1 31

/-- The digits in front, and the rest. -/
def digits (text : Text) : Text × Text := (text.takeWhile Char.isDigit, text.dropWhile Char.isDigit)

/-- Two digits. -/
def pair? : Reader Text
  | a :: b :: rest => if a.isDigit && b.isDigit then some ([a, b], rest) else none
  | _ => none

/-- A given character. -/
def char? (c : Char) : Text → Option Text
  | d :: rest => if c = d then some rest else none
  | [] => none

/-- One digit or more. -/
def digits? : Reader Text := fun text =>
  let (run, rest) := digits text
  if run.isEmpty then none else some (run, rest)

/-- An offset, from its sign on. -/
def offset? : Reader Text
  | [] => none
  | sign :: text => do
    if sign ≠ '+' ∧ sign ≠ '-' then none
    let (hour, text) ← pair? text
    let text ← char? ':' text
    let (minute, text) ← pair? text
    if isPair hour 0 23 && isPair minute 0 59 then return (sign :: hour ++ [':'] ++ minute, text)
    else none

/-- What may follow a date with a time: nothing more, `Z` or an offset. -/
def zone? : Reader Text
  | 'Z' :: rest => some (['Z'], rest)
  | text => if atWordEnd text then some ([], text) else offset? text

/-- The time of day behind a date: hour, minute, second, and what may follow. -/
def timeOfDay? (day : Text) : Reader Value := fun text => do
  let (hour, text) ← digits? text
  let text ← char? ':' text
  let (minute, text) ← pair? text
  let text ← char? ':' text
  let (second, text) ← pair? text
  let (fraction, text) ←
    match text with
    | '.' :: rest => digits? rest
    | _ => some ([], text)
  let (zone, text) ← zone? text
  if isTime hour minute second fraction then
    return (.moment (day ++ ['T'] ++ hour ++ [':'] ++ minute ++ [':'] ++ second ++ zone), text)
  else none

/-- A date, behind its year and the hyphen. -/
def date? (year : Text) : Reader Value := fun text => do
  let (month, text) ← digits? text
  let text ← char? '-' text
  if month.length < 2 then none
  let (day, text) := digits text
  let whole := year ++ ['-'] ++ month ++ ['-'] ++ day
  let dateOnly (rest : Text) : Option (Value × Text) :=
    if isDate year month day then some (.moment whole, rest) else none
  match text with
  | c :: rest =>
    if c = 'T' ∨ c = ' ' then
      if day.length < 2 then none
      else if atWordEnd rest then dateOnly rest
      else if isDay month day then timeOfDay? whole rest
      else none
    else if atWordEnd text then dateOnly text
    else none
  | [] => dateOnly []

/-- A time alone, behind its hour and the colon. When no fraction follows, the 16-bit unit behind
the seconds belongs to the time, and a character of two units must not stand there. -/
def time? (hour : Text) : Reader Value := fun text => do
  let (minute, text) ← pair? text
  let text ← char? ':' text
  let (second, text) ← pair? text
  let whole := hour ++ [':'] ++ minute ++ [':'] ++ second
  let (fraction, text) ←
    match text with
    | '.' :: rest => do
      let (fraction, rest) ← digits? rest
      if atWordEnd rest then some (fraction, rest) else none
    | c :: rest => if Text.units c = 1 then some ([], rest) else none
    | [] => some ([], [])
  if isTime hour minute second fraction then return (.moment whole, text) else none

end Moment

end ShellDoc.Toml
