import ShellDoc.Number.Binary
import ShellDoc.Text.Basic

/-!
# Shortest decimals

The text of a binary number: the fewest digits that read back as it, of these the nearest to it,
written out in full while the number is below 10^21 and not too small.

* `Shortest.digits`: the digits and where the point stands.
* `Shortest.layout`: the text of such digits.
* `Shortest.text`: the text of a binary number above zero.
-/

namespace ShellDoc.Shortest

/-- Digits `value` with the point behind the first `point` of them. -/
structure Digits where
  value : Nat
  point : Int
deriving DecidableEq, Repr

/-- The quotient is below `10 ^ p`. -/
def below (num den : Nat) (p : Int) : Bool :=
  if p < 0 then num * Nat.pow 10 (-p).toNat < den else num < den * Nat.pow 10 p.toNat

/-- The least `p` from `start` on with the quotient below `10 ^ p`, within some steps. -/
def pointFrom (num den : Nat) (start : Int) : Nat → Int
  | 0 => start
  | steps + 1 => if below num den start then start else pointFrom num den (start + 1) steps

/-- The numbers that are nearest to a binary number lie between these quarters of its last bit.
Below a power of two the numbers lie closer. -/
def quarters (b : Binary) : Nat × Nat :=
  let low := if b.bits = Nat.pow 2 52 ∧ Binary.minExponent < b.exponent then 1 else 2
  (4 * b.bits - low, 4 * b.bits + 2)

/-- The decimal `n * 10 ^ e` reads back as the binary number. -/
def readsBack (b : Binary) (n : Nat) (e : Int) : Bool :=
  let (low, high) := quarters b
  let (num, den) := if e < 0 then (n, Nat.pow 10 (-e).toNat) else (n * Nat.pow 10 e.toNat, 1)
  let (num, den) := Binary.scale num den (b.exponent - 2)
  if b.bits % 2 = 0 then low * den ≤ num && num ≤ high * den
  else low * den < num && num < high * den

/-- The best decimal with `count` digits, if one reads back. -/
def withDigits? (b : Binary) (num den : Nat) (point : Int) (count : Nat) : Option Nat :=
  let e := point - count
  let (n, d) :=
    if e < 0 then (num * Nat.pow 10 (-e).toNat, den) else (num, den * Nat.pow 10 e.toNat)
  let q := n / d
  let lowFits := readsBack b q e
  let highFits := readsBack b (q + 1) e
  if lowFits && (!highFits || 2 * (n % d) ≤ d) then some q
  else if highFits then some (q + 1)
  else none

/-- The fewest digits that read back as a binary number above zero. -/
def digits (b : Binary) : Digits :=
  let (num, den) :=
    if b.exponent < 0 then (b.bits, Nat.pow 2 (-b.exponent).toNat)
    else (b.bits * Nat.pow 2 b.exponent.toNat, 1)
  let point := pointFrom num den (-330) 700
  let found := (List.range 17).findSome? fun i =>
    (withDigits? b num den point (i + 1)).map fun n =>
      if n = Nat.pow 10 (i + 1) then Digits.mk 1 (point + 1) else ⟨n, point⟩
  found.getD ⟨0, 1⟩

/-- The text of digits: in full while the point is at most 21 places behind the first digit and at
most six zeros stand in front, else with an exponent. -/
def layout (d : Digits) : Text :=
  let shown := Text.ofNat d.value
  let count : Int := shown.length
  let zeros (n : Int) : Text := List.replicate n.toNat '0'
  if count ≤ d.point ∧ d.point ≤ 21 then shown ++ zeros (d.point - count)
  else if 0 < d.point ∧ d.point ≤ 21 then
    shown.take d.point.toNat ++ ['.'] ++ shown.drop d.point.toNat
  else if -6 < d.point ∧ d.point ≤ 0 then ['0', '.'] ++ zeros (-d.point) ++ shown
  else
    let e := d.point - 1
    let tail : Text := if count = 1 then [] else '.' :: shown.drop 1
    shown.take 1 ++ tail ++ ['e', if e < 0 then '-' else '+'] ++ Text.ofNat e.natAbs

/-- The text of a binary number above zero. -/
def text (b : Binary) : Text := layout (digits b)

end ShellDoc.Shortest
