import ShellDoc.Text.Basic

/-!
# Decimal numerals

Numbers written in ASCII digits, of any length.

* `Decimal.value`: the number that a run of digits stands for.
* `Decimal.integer?`: the number that an optional minus and digits stand for.
* `Decimal.index?`: the number below 2^32 - 1 that a key writes in its shortest form.
-/

namespace ShellDoc.Decimal

/-- The number that a digit stands for. -/
def digit (c : Char) : Nat := c.toNat - '0'.toNat

/-- The number that a run of digits stands for. -/
def value (digits : Text) : Nat := digits.foldl (fun n c => 10 * n + digit c) 0

/-- One digit or more and nothing else. -/
def isDigits (text : Text) : Bool := !text.isEmpty && text.all Char.isDigit

/-- The number that a text of digits stands for. -/
def natural? (text : Text) : Option Nat :=
  if isDigits text then some (value text) else none

/-- The number that an optional minus followed by digits stands for. -/
def integer? (text : Text) : Option Int :=
  match text with
  | '-' :: digits => (natural? digits).map fun n => -(n : Int)
  | _ => (natural? text).map fun n => (n : Int)

/-- The largest number that counts as an index. -/
def maxIndex : Nat := 4294967294

/-- The index that a key spells: digits without a zero in front, up to `maxIndex`. -/
def index? (key : Text) : Option Nat :=
  if key.head? = some '0' ∧ key ≠ ['0'] then none
  else (natural? key).filter fun n => n ≤ maxIndex

end ShellDoc.Decimal
