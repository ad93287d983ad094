import ShellDoc.Number.Shortest

/-!
# Numbers

A number is a binary number of 53 bits with a sign, too large to be one, or no number at all.

* `Number.ofDecimal`: the number nearest to a decimal fraction.
* `Number.toText`: the text of a number.
-/

namespace ShellDoc

/-- A number. `nan` is what a calculation without a result gives. -/
inductive Number where
  | finite (negative : Bool) (magnitude : Binary)
  | infinite (negative : Bool)
  | nan
deriving DecidableEq, Repr

namespace Number

/-- The number nearest to `mantissa / 10 ^ scale`. -/
def ofDecimal (mantissa : Int) (scale : Nat) : Number :=
  match Binary.nearest? mantissa.natAbs (Nat.pow 10 scale) with
  | none => .infinite (mantissa < 0)
  | some magnitude => .finite (mantissa < 0) magnitude

instance (n : Nat) : OfNat Number n := ⟨ofDecimal n 0⟩

/-- The sign in front of a number. -/
def sign (negative : Bool) : Text := if negative then ['-'] else []

/-- The text of a number. Zero has no sign. -/
def toText : Number → Text
  | .nan => "NaN"
  | .infinite negative => sign negative ++ "Infinity"
  | .finite negative magnitude =>
    if magnitude.bits = 0 then ['0'] else sign negative ++ Shortest.text magnitude

end Number

end ShellDoc
