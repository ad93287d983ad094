import ShellDoc.Text.Basic

/-!
# Width in 16-bit units

Columns are counted in the 16-bit units of UTF-16: one unit for a character of the basic plane,
two for any other.
-/

namespace ShellDoc.Text

/-- How many 16-bit units a character takes. -/
def units (c : Char) : Nat := if c.toNat < 0x10000 then 1 else 2

/-- How many 16-bit units a text takes. -/
def width : Text → Nat
  | [] => 0
  | c :: rest => units c + width rest

/-- The text followed by as many spaces as it takes to be `column` units wide. -/
def padTo (column : Nat) (text : Text) : Text :=
  text ++ List.replicate (column - width text) ' '

/-- The longest beginning of the text that is at most `limit` units wide. -/
def takeUnits (limit : Nat) : Text → Text
  | [] => []
  | c :: rest => if units c ≤ limit then c :: takeUnits (limit - units c) rest else []

@[simp] theorem width_nil : width [] = 0 := rfl

@[simp] theorem width_append (a b : Text) : width (a ++ b) = width a + width b := by
  induction a with
  | nil => simp
  | cons c a ih => rw [List.cons_append, width, width, ih, Nat.add_assoc]

@[simp] theorem width_replicate_space (n : Nat) : width (List.replicate n ' ') = n := by
  induction n with
  | zero => rfl
  | succ n ih => rw [List.replicate_succ, width, ih, Nat.add_comm]; rfl

end ShellDoc.Text
