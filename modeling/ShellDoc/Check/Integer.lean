import ShellDoc.Text.Decimal

/-!
# Checks on integers

Integers are given as texts, an optional minus followed by digits, of any length. A check on a text
that is no integer does not hold, whatever it asks.
-/

namespace ShellDoc.Check

/-- `INTEGER_PATTERN`, `^-?[0-9]+$`: `t` is an optional minus followed by digits. -/
def isInteger (t : Text) : Bool := (Decimal.integer? t).isSome

/-- `t` is digits alone, and not zero. -/
def isPositiveInteger (t : Text) : Bool := Decimal.isDigits t && 0 < Decimal.value t

/-- `a` and `b` are integers, and `rel` holds of them. -/
def compareIntegers (rel : Int → Int → Bool) (a b : Text) : Bool :=
  match Decimal.integer? a, Decimal.integer? b with
  | some x, some y => rel x y
  | _, _ => false

/-- The numbers are equal. -/
def isIntEqual : Text → Text → Bool := compareIntegers fun x y => x == y

/-- The numbers differ. -/
def isIntNotEqual : Text → Text → Bool := compareIntegers fun x y => x != y

/-- The first number is less. -/
def isIntLess : Text → Text → Bool := compareIntegers fun x y => x < y

/-- The first number is less or equal. -/
def isIntLessEqual : Text → Text → Bool := compareIntegers fun x y => x ≤ y

/-- The first number is greater. -/
def isIntGreater : Text → Text → Bool := compareIntegers fun x y => x > y

/-- The first number is greater or equal. -/
def isIntGreaterEqual : Text → Text → Bool := compareIntegers fun x y => x ≥ y

/-- The number lies between `low` and `high` or is one of them. -/
def isBetween (t low high : Text) : Bool := isIntGreaterEqual t low && isIntLessEqual t high

/-- The number is odd. -/
def isOdd (t : Text) : Bool := (Decimal.integer? t).any fun n => n.tmod 2 != 0

/-- The number is even. -/
def isEven (t : Text) : Bool := (Decimal.integer? t).any fun n => n.tmod 2 == 0

end ShellDoc.Check
