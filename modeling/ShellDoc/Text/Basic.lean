/-!
# Text

Text is the list of its characters, so that every reader and every printer of this library is a
function on lists.

* `Text.anySuffix`: some rest of the text has a property.
* `Text.containsText`: a text occurs somewhere inside another.
* `Text.stripPrefix?`, `Text.stripSuffix`: cut a known beginning or end.
-/

namespace ShellDoc

/-- A text is the list of its characters. -/
abbrev Text := List Char

/-- A literal stands for the list of its characters. -/
instance : Coe String Text := ⟨String.toList⟩

namespace Text

/-- `p` holds of the text or of what is left of it after some of its first characters. -/
def anySuffix (p : Text → Bool) : Text → Bool
  | [] => p []
  | c :: rest => p (c :: rest) || anySuffix p rest

/-- `part` occurs in `text`. The empty text occurs everywhere. -/
def containsText (part text : Text) : Bool :=
  anySuffix part.isPrefixOf text

/-- What follows `start`, if the text begins with it. -/
def stripPrefix? (start text : Text) : Option Text :=
  if start.isPrefixOf text then some (text.drop start.length) else none

/-- The text without `ending`, if it ends with it; otherwise the text itself. -/
def stripSuffix (ending text : Text) : Text :=
  if ending.isSuffixOf text then text.take (text.length - ending.length) else text

/-- An optional text counts as given only when it is not empty. -/
def given (t : Option Text) : Option Text :=
  t.filter fun s => !s.isEmpty

/-- The decimal digits of a number. -/
def ofNat (n : Nat) : Text := Nat.toDigits 10 n

/-! ## Laws -/

theorem anySuffix_iff {p : Text → Bool} {text : Text} :
    anySuffix p text = true ↔ ∃ before rest, text = before ++ rest ∧ p rest = true := by
  induction text with
  | nil =>
    constructor
    · intro h; exact ⟨[], [], rfl, h⟩
    · rintro ⟨before, rest, h, hp⟩
      obtain ⟨rfl, rfl⟩ := List.append_eq_nil_iff.1 h.symm
      exact hp
  | cons c text ih =>
    simp only [anySuffix, Bool.or_eq_true, ih]
    constructor
    · rintro (h | ⟨before, rest, rfl, hp⟩)
      · exact ⟨[], c :: text, rfl, h⟩
      · exact ⟨c :: before, rest, rfl, hp⟩
    · rintro ⟨before, rest, h, hp⟩
      cases before with
      | nil => exact .inl (h ▸ hp)
      | cons b before =>
        obtain ⟨-, rfl⟩ := List.cons.inj h
        exact .inr ⟨before, rest, rfl, hp⟩

theorem containsText_iff {part text : Text} :
    containsText part text = true ↔ ∃ before after, text = before ++ part ++ after := by
  rw [containsText, anySuffix_iff]
  constructor
  · rintro ⟨before, rest, rfl, h⟩
    obtain ⟨after, rfl⟩ := List.isPrefixOf_iff_prefix.1 h
    exact ⟨before, after, by simp⟩
  · rintro ⟨before, after, rfl⟩
    exact ⟨before, part ++ after, by simp, List.isPrefixOf_iff_prefix.2 ⟨after, rfl⟩⟩

theorem stripPrefix?_eq_some_iff {start text rest : Text} :
    stripPrefix? start text = some rest ↔ text = start ++ rest := by
  unfold stripPrefix?
  split
  · next h =>
    obtain ⟨tail, rfl⟩ := List.isPrefixOf_iff_prefix.1 h
    simp
  · next h =>
    simp only [reduceCtorEq, false_iff]
    rintro rfl
    exact h (List.isPrefixOf_iff_prefix.2 ⟨rest, rfl⟩)

theorem stripSuffix_eq_iff {ending text rest : Text} :
    stripSuffix ending text = rest ↔ text = rest ++ ending ∨ text = rest ∧ ¬ending <:+ text := by
  unfold stripSuffix
  split
  · next h =>
    obtain ⟨front, rfl⟩ := List.isSuffixOf_iff_suffix.1 h
    simp
  · next h =>
    rw [List.isSuffixOf_iff_suffix] at h
    constructor
    · rintro rfl
      exact .inr ⟨rfl, h⟩
    · rintro (rfl | ⟨rfl, -⟩)
      · exact absurd (List.suffix_append rest ending) h
      · rfl

theorem stripSuffix_append (text ending : Text) : stripSuffix ending (text ++ ending) = text :=
  stripSuffix_eq_iff.2 (.inl rfl)

/-- A `text` that lacks a character of `ending` does not end so. -/
theorem stripSuffix_of_not_mem {ending text : Text} {c : Char} (hc : c ∈ ending) (ht : c ∉ text) :
    stripSuffix ending text = text :=
  stripSuffix_eq_iff.2 (.inr ⟨rfl, fun h => ht (h.subset hc)⟩)

theorem stripSuffix_isPrefix (ending text : Text) : stripSuffix ending text <+: text := by
  rcases stripSuffix_eq_iff.1 (Eq.refl (stripSuffix ending text)) with h | ⟨h, -⟩
  · exact ⟨ending, h.symm⟩
  · exact ⟨[], by rw [List.append_nil, ← h]⟩

end Text

end ShellDoc
