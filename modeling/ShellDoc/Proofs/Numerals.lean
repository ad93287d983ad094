import Mathlib.Algebra.Ring.Int.Parity
import Mathlib.Data.List.Induction
import Mathlib.Data.Nat.Digits.Defs
import ShellDoc.Check.Integer

/-!
# Numerals

The checks on integers are exact, however long the texts are.

* `Decimal.Numeral`: an optional minus and digits, with its text and the number it stands for.
* `Decimal.Spells`: a text is a numeral for a number. Reading a text gives the number that it spells
  (`Decimal.integer?_eq_some_iff`), so a text spells one number at most.
* `Decimal.index?_injective`: no two keys spell one index.
* `Check.compareIntegers_iff`: a comparison holds if both texts spell numbers and these compare.
-/

namespace ShellDoc

namespace Decimal

/-- A decimal numeral: an optional minus, then one digit or more. -/
structure Numeral where
  negative : Bool
  digits : List (Fin 10)
  nonempty : digits ≠ []

/-- The characters of `digits`. -/
def spelling (digits : List (Fin 10)) : Text := digits.map fun d : Fin 10 => Nat.digitChar d

/-- The number that `digits` stand for; the last digit counts the ones. -/
def magnitude (digits : List (Fin 10)) : Nat := Nat.ofDigits 10 (digits.reverse.map Fin.val)

namespace Numeral

/-- The numeral `n` as it is written. -/
def text (n : Numeral) : Text := if n.negative then '-' :: spelling n.digits else spelling n.digits

/-- The number that the numeral `n` stands for. -/
def value (n : Numeral) : Int := if n.negative then -magnitude n.digits else magnitude n.digits

end Numeral

/-- `t` is the text of a numeral for `x`. -/
def Spells (t : Text) (x : Int) : Prop := ∃ n : Numeral, n.text = t ∧ n.value = x

/-! ## Runs of digits -/

theorem isDigit_digitChar (d : Fin 10) : (Nat.digitChar d).isDigit = true := by
  revert d
  decide

theorem digit_digitChar (d : Fin 10) : digit (Nat.digitChar d) = d := by
  revert d
  decide

theorem exists_digitChar_eq {c : Char} (hc : c.isDigit = true) :
    ∃ d : Fin 10, Nat.digitChar d = c := by
  have hlow : 48 ≤ c.toNat ∧ c.toNat ≤ 57 := by
    simpa [Char.isDigit, UInt32.le_iff_toNat_le] using hc
  refine ⟨⟨c.toNat - 48, by omega⟩, ?_⟩
  have hchar : ∀ d : Fin 10, Nat.digitChar d = Char.ofNat (d + 48) := by decide
  rw [hchar, Nat.sub_add_cancel hlow.1, Char.ofNat_toNat]

theorem isDigits_iff {t : Text} :
    isDigits t = true ↔ ∃ digits : List (Fin 10), digits ≠ [] ∧ spelling digits = t := by
  have hrange : (∀ c ∈ t, c.isDigit = true) ↔ ∃ digits, spelling digits = t := by
    constructor
    · intro h
      induction t with
      | nil => exact ⟨[], rfl⟩
      | cons c t ih =>
        obtain ⟨hc, ht⟩ := List.forall_mem_cons.1 h
        obtain ⟨d, hd⟩ := exists_digitChar_eq hc
        obtain ⟨digits, hdigits⟩ := ih ht
        exact ⟨d :: digits, by rw [← hd, ← hdigits]; rfl⟩
    · rintro ⟨digits, rfl⟩ c hc
      obtain ⟨d, -, rfl⟩ := List.mem_map.1 hc
      exact isDigit_digitChar d
  rw [isDigits, Bool.and_eq_true, List.all_eq_true, hrange]
  constructor
  · rintro ⟨hne, digits, rfl⟩
    exact ⟨digits, by rintro rfl; simp [spelling] at hne, rfl⟩
  · rintro ⟨digits, hne, rfl⟩
    exact ⟨by simpa [spelling] using hne, digits, rfl⟩

theorem value_spelling (digits : List (Fin 10)) : value (spelling digits) = magnitude digits := by
  induction digits using List.reverseRecOn with
  | nil => rfl
  | append_singleton digits d ih =>
    have hvalue : value (spelling (digits ++ [d])) = 10 * value (spelling digits) + d := by
      simp [value, spelling, digit_digitChar]
    have hmagnitude : magnitude (digits ++ [d]) = d + 10 * magnitude digits := by
      simp [magnitude, Nat.ofDigits_cons]
    rw [hvalue, ih, hmagnitude, Nat.add_comm]

theorem natural?_spelling {digits : List (Fin 10)} (hne : digits ≠ []) :
    natural? (spelling digits) = some (magnitude digits) := by
  rw [natural?, if_pos (isDigits_iff.2 ⟨digits, hne, rfl⟩), value_spelling]

theorem exists_digits_of_natural? {t : Text} {n : Nat} (h : natural? t = some n) :
    ∃ digits, digits ≠ [] ∧ spelling digits = t ∧ magnitude digits = n := by
  rw [natural?, Option.ite_none_right_eq_some] at h
  obtain ⟨hdigits, hn⟩ := h
  obtain ⟨digits, hne, rfl⟩ := isDigits_iff.1 hdigits
  rw [value_spelling] at hn
  exact ⟨digits, hne, rfl, Option.some.inj hn⟩

/-! ## Integers -/

theorem integer?_minus (t : Text) :
    integer? ('-' :: t) = (natural? t).map fun n : Nat => -(n : Int) := by
  simp only [integer?]
  cases natural? t <;> rfl

theorem integer?_of_ne_minus {t : Text} (h : ∀ rest, t ≠ '-' :: rest) :
    integer? t = (natural? t).map fun n : Nat => (n : Int) := by
  unfold integer?
  split
  · next rest => exact absurd rfl (h rest)
  · cases natural? t <;> rfl

theorem spelling_ne_minus (digits : List (Fin 10)) (rest : Text) :
    spelling digits ≠ '-' :: rest := by
  intro h
  have hmem : '-' ∈ spelling digits := h ▸ List.mem_cons_self
  obtain ⟨d, -, hd⟩ := List.mem_map.1 hmem
  exact absurd (hd ▸ isDigit_digitChar d) (by decide)

/-- `integer?` gives the number that `t` spells, and nothing if `t` spells none. -/
theorem integer?_eq_some_iff {t : Text} {x : Int} : integer? t = some x ↔ Spells t x := by
  constructor
  · intro h
    by_cases hminus : ∃ rest, t = '-' :: rest
    · obtain ⟨rest, rfl⟩ := hminus
      rw [integer?_minus] at h
      obtain ⟨n, hn, rfl⟩ := Option.map_eq_some_iff.1 h
      obtain ⟨digits, hne, rfl, rfl⟩ := exists_digits_of_natural? hn
      exact ⟨⟨true, digits, hne⟩, rfl, rfl⟩
    · rw [integer?_of_ne_minus (not_exists.1 hminus)] at h
      obtain ⟨n, hn, rfl⟩ := Option.map_eq_some_iff.1 h
      obtain ⟨digits, hne, rfl, rfl⟩ := exists_digits_of_natural? hn
      exact ⟨⟨false, digits, hne⟩, rfl, rfl⟩
  · rintro ⟨⟨negative, digits, hne⟩, rfl, rfl⟩
    cases negative with
    | true => exact (integer?_minus _).trans (congrArg _ (natural?_spelling hne))
    | false =>
      exact (integer?_of_ne_minus (spelling_ne_minus digits)).trans
        (congrArg _ (natural?_spelling hne))

theorem Spells.unique {t : Text} {x y : Int} (hx : Spells t x) (hy : Spells t y) : x = y :=
  Option.some.inj ((integer?_eq_some_iff.2 hx).symm.trans (integer?_eq_some_iff.2 hy))

theorem spells_zero : Spells ['0'] 0 := integer?_eq_some_iff.1 rfl

/-! ## Indices -/

/-- `Nat.digits` gives back `digits`, last one first, if there is no zero in front. -/
theorem digits_magnitude {digits : List (Fin 10)} (h : digits.head? ≠ some 0) :
    Nat.digits 10 (magnitude digits) = digits.reverse.map Fin.val := by
  refine Nat.digits_ofDigits 10 (by decide) _ ?_ fun hne hlast => h ?_
  · intro d hd
    obtain ⟨e, -, rfl⟩ := List.mem_map.1 hd
    exact e.isLt
  · have hdigits : digits ≠ [] := by simpa using hne
    have hhead : digits.head hdigits = 0 := Fin.ext (by simpa using hlast)
    rw [List.head?_eq_some_head hdigits, hhead]

theorem exists_digits_of_index? {key : Text} {n : Nat} (h : index? key = some n) :
    ∃ digits, digits ≠ [] ∧ spelling digits = key ∧ magnitude digits = n ∧
      (digits.head? = some 0 → digits = [0]) := by
  unfold index? at h
  split at h
  · cases h
  · next hzero =>
    obtain ⟨hn, -⟩ := Option.filter_eq_some_iff.1 h
    obtain ⟨digits, hne, rfl, rfl⟩ := exists_digits_of_natural? hn
    refine ⟨digits, hne, rfl, rfl, fun hhead => ?_⟩
    obtain ⟨rest, rfl⟩ := List.head?_eq_some_iff.1 hhead
    cases rest with
    | nil => rfl
    | cons d rest => exact absurd ⟨rfl, by simp [spelling]⟩ hzero

/-- `index?` gives different indices for different texts. -/
theorem index?_injective {a b : Text} {n : Nat} (ha : index? a = some n) (hb : index? b = some n) :
    a = b := by
  obtain ⟨digits, hne, rfl, hn, hzero⟩ := exists_digits_of_index? ha
  obtain ⟨others, hne', rfl, hn', hzero'⟩ := exists_digits_of_index? hb
  have hlead : ∀ {ds : List (Fin 10)}, ds ≠ [] → magnitude ds = 0 →
      (ds.head? = some 0 → ds = [0]) → ds = [0] := by
    intro ds hds hm himp
    by_contra hnot
    have hdigits := digits_magnitude fun hhead => hnot (himp hhead)
    rw [hm, Nat.digits_zero] at hdigits
    exact hds (by simpa using hdigits.symm)
  rcases Nat.eq_zero_or_pos n with rfl | hpos
  · rw [hlead hne hn hzero, hlead hne' hn' hzero']
  · have hpositive : ∀ {ds : List (Fin 10)}, magnitude ds = n → (ds.head? = some 0 → ds = [0]) →
        ds.head? ≠ some 0 := by
      intro ds hm himp hhead
      rw [himp hhead] at hm
      exact absurd hm (Nat.ne_of_lt hpos)
    have hsame : digits.reverse.map Fin.val = others.reverse.map Fin.val := by
      rw [← digits_magnitude (hpositive hn hzero), ← digits_magnitude (hpositive hn' hzero'), hn,
        hn']
    exact congrArg spelling
      (List.reverse_inj.1 ((List.map_inj_right fun _ _ => Fin.ext).1 hsame))

end Decimal

/-! ## Checks -/

namespace Check

open Decimal (Spells)

variable {a b : Text}

theorem isInteger_iff : isInteger a = true ↔ ∃ x, Spells a x := by
  simp only [isInteger, Option.isSome_iff_exists, Decimal.integer?_eq_some_iff]

/-- `compareIntegers` holds only if both texts spell numbers, whatever `rel` is. -/
theorem compareIntegers_iff {rel : Int → Int → Bool} :
    compareIntegers rel a b = true ↔ ∃ x y, Spells a x ∧ Spells b y ∧ rel x y = true := by
  simp only [← Decimal.integer?_eq_some_iff]
  unfold compareIntegers
  cases Decimal.integer? a <;> cases Decimal.integer? b <;> simp

theorem isBetween_iff {c : Text} :
    isBetween a b c = true ↔
      ∃ x y z, Spells a x ∧ Spells b y ∧ Spells c z ∧ y ≤ x ∧ x ≤ z := by
  simp only [isBetween, isIntGreaterEqual, isIntLessEqual, Bool.and_eq_true, compareIntegers_iff,
    decide_eq_true_eq]
  constructor
  · rintro ⟨⟨x, y, hx, hy, hyx⟩, x', z, hx', hz, hxz⟩
    obtain rfl := hx.unique hx'
    exact ⟨x, y, z, hx, hy, hz, hyx, hxz⟩
  · rintro ⟨x, y, z, hx, hy, hz, hyx, hxz⟩
    exact ⟨⟨x, y, hx, hy, hyx⟩, x, z, hx, hz, hxz⟩

/-- `isOdd` looks at the remainder, which has the sign of the number; only its being zero
matters. -/
theorem isOdd_iff : isOdd a = true ↔ ∃ x, Spells a x ∧ Odd x := by
  have hodd : ∀ x : Int, (x.tmod 2 != 0) = true ↔ Odd x := by
    intro x
    rw [bne_iff_ne, ne_eq, ← Int.dvd_iff_tmod_eq_zero, ← even_iff_two_dvd, Int.not_even_iff_odd]
  simp only [isOdd, Option.any_eq_true, Decimal.integer?_eq_some_iff, hodd]

theorem isEven_iff : isEven a = true ↔ ∃ x, Spells a x ∧ Even x := by
  have heven : ∀ x : Int, (x.tmod 2 == 0) = true ↔ Even x := by
    intro x
    rw [beq_iff_eq, ← Int.dvd_iff_tmod_eq_zero, even_iff_two_dvd]
  simp only [isEven, Option.any_eq_true, Decimal.integer?_eq_some_iff, heven]

/-- `isPositiveInteger` looks at digits alone, which is enough: a numeral with a minus is not
positive. -/
theorem isPositiveInteger_iff : isPositiveInteger a = true ↔ ∃ x, Spells a x ∧ 0 < x := by
  rw [isPositiveInteger, Bool.and_eq_true, Decimal.isDigits_iff, decide_eq_true_eq]
  constructor
  · rintro ⟨⟨digits, hne, rfl⟩, hpos⟩
    rw [Decimal.value_spelling] at hpos
    exact ⟨Decimal.magnitude digits, ⟨⟨false, digits, hne⟩, rfl, rfl⟩, by omega⟩
  · rintro ⟨x, ⟨⟨negative, digits, hne⟩, rfl, rfl⟩, hpos⟩
    cases negative with
    | true =>
      have hvalue : (0 : Int) < -Decimal.magnitude digits := hpos
      omega
    | false =>
      have hvalue : (0 : Int) < Decimal.magnitude digits := hpos
      refine ⟨⟨digits, hne, rfl⟩, ?_⟩
      rw [Decimal.Numeral.text, if_neg (by simp), Decimal.value_spelling]
      exact Int.natCast_pos.1 hvalue

/-- The checks on integers say what they should of all texts, of any length, with zeros in front and
with a minus in front of zero. A text spells one number at most; `isIntLess` and the other
comparisons hold if both texts spell numbers and these stand in the relation; `isOdd` and `isEven`
say of a negative number what they say of its opposite; and `isPositiveInteger` is the comparison
with zero. -/
theorem integer_checks_exact (a b c : Text) :
    (isInteger a = true ↔ ∃ x, Spells a x) ∧
      (∀ x y, Spells a x → Spells a y → x = y) ∧
      (isIntEqual a b = true ↔ ∃ x y, Spells a x ∧ Spells b y ∧ x = y) ∧
      (isIntNotEqual a b = true ↔ ∃ x y, Spells a x ∧ Spells b y ∧ x ≠ y) ∧
      (isIntLess a b = true ↔ ∃ x y, Spells a x ∧ Spells b y ∧ x < y) ∧
      (isIntLessEqual a b = true ↔ ∃ x y, Spells a x ∧ Spells b y ∧ x ≤ y) ∧
      (isIntGreater a b = true ↔ ∃ x y, Spells a x ∧ Spells b y ∧ x > y) ∧
      (isIntGreaterEqual a b = true ↔ ∃ x y, Spells a x ∧ Spells b y ∧ x ≥ y) ∧
      (isBetween a b c = true ↔
        ∃ x y z, Spells a x ∧ Spells b y ∧ Spells c z ∧ y ≤ x ∧ x ≤ z) ∧
      (isOdd a = true ↔ ∃ x, Spells a x ∧ Odd x) ∧
      (isEven a = true ↔ ∃ x, Spells a x ∧ Even x) ∧
      (isPositiveInteger a = true ↔ isIntGreater a ['0'] = true) := by
  refine ⟨isInteger_iff, fun _ _ => Spells.unique, ?_, ?_, ?_, ?_, ?_, ?_, isBetween_iff, isOdd_iff,
    isEven_iff, ?_⟩
  · simp only [isIntEqual, compareIntegers_iff, beq_iff_eq]
  · simp only [isIntNotEqual, compareIntegers_iff, bne_iff_ne]
  · simp only [isIntLess, compareIntegers_iff, decide_eq_true_eq]
  · simp only [isIntLessEqual, compareIntegers_iff, decide_eq_true_eq]
  · simp only [isIntGreater, compareIntegers_iff, decide_eq_true_eq]
  · simp only [isIntGreaterEqual, compareIntegers_iff, decide_eq_true_eq]
  · simp only [isPositiveInteger_iff, isIntGreater, compareIntegers_iff, decide_eq_true_eq]
    constructor
    · rintro ⟨x, hx, hpos⟩
      exact ⟨x, 0, hx, Decimal.spells_zero, hpos⟩
    · rintro ⟨x, y, hx, hy, hxy⟩
      obtain rfl := hy.unique Decimal.spells_zero
      exact ⟨x, hx, hxy⟩

-- zero in two spellings, a negative odd number, and numbers of more digits than a machine word has
example :
    isIntEqual ("-000" : String) ['0'] = true ∧ isOdd ("-3" : String) = true ∧
      isIntLess ("-100000000000000000000" : String) ("-99999999999999999999" : String) = true := by
  decide

end Check

end ShellDoc
