import ShellDoc.Toml.Moment

/-!
# TOML numbers

Integers in four bases, decimal fractions, infinities and the value that is no number. Underscores
may stand between digits. Up to four digits may also begin a date or a time.

Each reader takes what was read so far, last character first.
-/

namespace ShellDoc.Toml

namespace Number

/-- What may follow an underscore, a point or a sign: no further mark and not the end of the
word. -/
def goesOn : Text → Bool
  | [] => false
  | c :: rest => !(c == '_' || c == '.' || c == 'e' || c == 'E' || atWordEnd (c :: rest))

/-- A float, by what was read of it. -/
def float (acc : Text) : Value := .float acc.reverse

/-- The digits of an exponent. -/
def exponentDigits (acc : Text) : Reader Value
  | [] => some (float acc, [])
  | c :: rest =>
    if c.isDigit then exponentDigits (c :: acc) rest
    else if c = '_' then if goesOn rest then exponentDigits acc rest else none
    else some (float acc, c :: rest)

/-- An exponent, behind its mark. -/
def exponent (acc : Text) : Reader Value
  | [] => none
  | c :: rest =>
    if c.isDigit then exponentDigits acc (c :: rest)
    else if c = '+' ∨ c = '-' then if goesOn rest then exponentDigits (c :: acc) rest else none
    else none

/-- The digits of a fraction. -/
def fractionDigits (acc : Text) : Reader Value
  | [] => some (float acc, [])
  | c :: rest =>
    if c.isDigit then fractionDigits (c :: acc) rest
    else if c = '_' then if goesOn rest then fractionDigits acc rest else none
    else if c = 'e' ∨ c = 'E' then exponent (c :: acc) rest
    else some (float acc, c :: rest)

/-- A fraction, behind the point. -/
def fraction (acc : Text) : Reader Value := fun text =>
  if goesOn text then fractionDigits ('.' :: acc) text else none

/-- The integer of a sign and digits, if there are digits. -/
def integer? (sign acc : Text) : Option Value :=
  if acc.isEmpty then none
  else
    let n : Int := Decimal.value acc.reverse
    some (.integer (if sign = ['-'] then -n else n))

/-- The digits of a decimal number behind its sign, if it has one. It may turn out to be a float. -/
def integerDigits (sign acc : Text) : Reader Value
  | [] => (integer? sign acc).map fun v => (v, [])
  | c :: rest =>
    if c.isDigit then integerDigits sign (c :: acc) rest
    else if c = '_' then if goesOn rest then integerDigits sign acc rest else none
    else if c = 'e' ∨ c = 'E' then exponent (c :: acc ++ sign) rest
    else if c = '.' then fraction (acc ++ sign) rest
    else (integer? sign acc).map fun v => (v, c :: rest)

/-- What may follow a base mark or an underscore in such a number. -/
def startsDigits : Text → Bool
  | [] => false
  | c :: rest => !(c == '_' || c == '.' || atWordEnd (c :: rest))

/-- The digits of a number in another base, with the value of those read so far, if any. -/
def baseDigits (base : Nat) (acc : Option Nat) : Reader Value
  | [] => acc.map fun n => (.integer n, [])
  | c :: rest =>
    match (digitValue? c).filter fun d => d < base with
    | some d => baseDigits base (some (base * acc.getD 0 + d)) rest
    | none =>
      if c = '_' then if startsDigits rest then baseDigits base acc rest else none
      else acc.map fun n => (.integer n, c :: rest)

/-- A number in another base, behind its mark. -/
def based (base : Nat) : Reader Value := fun text =>
  if startsDigits text then baseDigits base none text else none

/-- A number behind a sign. -/
def signed (sign : Char) : Reader Value
  | 'i' :: 'n' :: 'f' :: rest => some (.infinity, rest)
  | 'n' :: 'a' :: 'n' :: rest => some (.nan, rest)
  | text =>
    if !goesOn text then none
    else
      match text with
      | '0' :: '.' :: rest => fraction ['0', sign] rest
      | '0' :: 'e' :: rest => exponent ['e', '0', sign] rest
      | '0' :: 'E' :: rest => exponent ['E', '0', sign] rest
      | '0' :: rest => some (.integer 0, rest)
      | _ => integerDigits [sign] [] text

/-- A number, date or time that begins with a zero and another digit: never a number. -/
def zeroPadded : Reader Value := fun text =>
  let (run, rest) := Moment.digits text
  match rest with
  | '-' :: after => if run.length = 4 then Moment.date? run after else none
  | ':' :: after => if run.length < 4 then Moment.time? run after else none
  | _ => none

/-- A number, date or time that begins with a digit. -/
def unsigned : Reader Value
  | '0' :: 'b' :: rest => based 2 rest
  | '0' :: 'o' :: rest => based 8 rest
  | '0' :: 'x' :: rest => based 16 rest
  | '0' :: '.' :: rest => fraction ['0'] rest
  | '0' :: c :: rest =>
    if c.isDigit then zeroPadded ('0' :: c :: rest) else some (.integer 0, c :: rest)
  | '0' :: [] => some (.integer 0, [])
  | text =>
    let (run, rest) := Moment.digits text
    match rest with
    | '-' :: after =>
      if run.length = 4 then Moment.date? run after
      else if run.length < 4 then none
      else integerDigits [] [] text
    | ':' :: after =>
      if run.length < 2 then none
      else if run.length ≤ 4 then Moment.time? run after
      else integerDigits [] [] text
    | _ => integerDigits [] [] text

end Number

end ShellDoc.Toml
