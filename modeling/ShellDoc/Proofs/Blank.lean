import Mathlib.Data.List.TakeWhile
import ShellDoc.Text.Blank

/-!
# Blanks around a text

What the readers of a text make of blanks that are put in front of it (`blank_append`) or behind it
(`append_blank`).

* `Text.AllBlank`: a text of blanks only.
* `Text.trim_blank_append`, `Text.trim_append_blank`, `Text.exists_eq_append_trim`: trimming undoes
  exactly that. `Text.trimStart_eq_cons_iff`: where it stops.
* `Text.anySuffix_blank_append`, `Text.anySuffix_append_blank`: a search finds nothing new in the
  blanks, as long as what it looks for neither begins with a blank nor cares for blanks at its end.
-/

namespace ShellDoc.Text

/-- `text` is nothing but blanks. -/
def AllBlank (text : Text) : Prop := ∀ c ∈ text, isBlank c = true

instance : DecidablePred AllBlank := fun text =>
  List.decidableBAll (fun c => isBlank c = true) text

variable {w text rest : Text} {c : Char}

theorem AllBlank.reverse (hw : AllBlank w) : AllBlank w.reverse :=
  fun c hc => hw c (List.mem_reverse.1 hc)

theorem AllBlank.startsBlank (hw : AllBlank w) : startsBlank w = true := by
  cases w with
  | nil => rfl
  | cons c w => exact hw c List.mem_cons_self

theorem AllBlank.startsBlank_append (hw : AllBlank w) (hne : w ≠ []) (text : Text) :
    Text.startsBlank (w ++ text) = true := by
  obtain ⟨c, w, rfl⟩ := List.exists_cons_of_ne_nil hne
  exact hw c List.mem_cons_self

theorem AllBlank.not_mem (hw : AllBlank w) (hc : isBlank c = false) : c ∉ w := by
  intro h
  rw [hw c h] at hc
  cases hc

/-! ## In front and at the end -/

theorem trimStart_blank_append (hw : AllBlank w) : trimStart (w ++ text) = trimStart text :=
  List.dropWhile_append_of_pos hw

theorem AllBlank.trimStart_eq_nil (hw : AllBlank w) : trimStart w = [] := by
  have h : trimStart (w ++ []) = trimStart [] := trimStart_blank_append hw
  rwa [List.append_nil] at h

theorem AllBlank.trim_eq_nil (hw : AllBlank w) : trim w = [] := by
  unfold trim
  rw [hw.trimStart_eq_nil]
  rfl

/-- If `trimStart` leaves nothing of `text`, it leaves nothing of `text ++ w`. -/
theorem trimStart_append_blank_of_nil (hw : AllBlank w) (h : trimStart text = []) :
    trimStart (text ++ w) = [] := by
  unfold trimStart at h ⊢
  rw [List.dropWhile_append, h]
  exact hw.trimStart_eq_nil

/-- If `trimStart text` stops at a character `c`, the blanks `w` behind `text` stay. -/
theorem trimStart_append_blank_of_cons (h : trimStart text = c :: rest) :
    trimStart (text ++ w) = c :: (rest ++ w) := by
  unfold trimStart at h ⊢
  rw [List.dropWhile_append, h]
  rfl

theorem head?_trimStart_append_blank (hw : AllBlank w) :
    (trimStart (text ++ w)).head? = (trimStart text).head? := by
  cases h : trimStart text with
  | nil => rw [trimStart_append_blank_of_nil hw h]
  | cons c rest => rw [trimStart_append_blank_of_cons h]; rfl

theorem trimEnd_append_blank (hw : AllBlank w) : trimEnd (text ++ w) = trimEnd text := by
  unfold trimEnd
  rw [List.reverse_append, List.dropWhile_append_of_pos hw.reverse]

/-- The last character of `trimEnd text` is the one at which `trimStart` stops from the other
end. -/
theorem getLast?_trimEnd (text : Text) :
    (trimEnd text).getLast? = (trimStart text.reverse).head? := by
  simp [trimEnd, trimStart]

theorem getLast?_trimEnd_blank_append (hw : AllBlank w) :
    (trimEnd (w ++ text)).getLast? = (trimEnd text).getLast? := by
  rw [getLast?_trimEnd, getLast?_trimEnd, List.reverse_append,
    head?_trimStart_append_blank hw.reverse]

theorem trim_blank_append (hw : AllBlank w) : trim (w ++ text) = trim text := by
  unfold trim
  rw [trimStart_blank_append hw]

theorem trim_append_blank (hw : AllBlank w) : trim (text ++ w) = trim text := by
  unfold trim
  cases h : trimStart text with
  | nil => rw [trimStart_append_blank_of_nil hw h]
  | cons c rest =>
    rw [trimStart_append_blank_of_cons h, ← List.cons_append, trimEnd_append_blank hw]

/-! ## What trimming takes off -/

theorem exists_eq_append_trimStart (text : Text) : ∃ w, AllBlank w ∧ text = w ++ trimStart text :=
  ⟨text.takeWhile isBlank, fun _ hc => List.mem_takeWhile_imp hc,
    List.takeWhile_append_dropWhile.symm⟩

theorem exists_eq_trimEnd_append (text : Text) : ∃ w, AllBlank w ∧ text = trimEnd text ++ w := by
  obtain ⟨w, hw, h⟩ := exists_eq_append_trimStart text.reverse
  refine ⟨w.reverse, hw.reverse, ?_⟩
  have hr := congrArg List.reverse h
  rwa [List.reverse_reverse, List.reverse_append] at hr

/-- `text` is `trim text` between blanks. -/
theorem exists_eq_append_trim (text : Text) :
    ∃ w w', AllBlank w ∧ AllBlank w' ∧ text = w ++ trim text ++ w' := by
  obtain ⟨w, hw, h⟩ := exists_eq_append_trimStart text
  obtain ⟨w', hw', h'⟩ := exists_eq_trimEnd_append (trimStart text)
  refine ⟨w, w', hw, hw', ?_⟩
  rw [List.append_assoc]
  exact h.trans (congrArg (w ++ ·) h')

theorem trimStart_of_not_startsBlank (h : startsBlank text = false) : trimStart text = text := by
  cases text with
  | nil => rfl
  | cons c text => exact List.dropWhile_cons_of_neg (by simpa [startsBlank] using h)

/-- `trimStart text` stops at `c` exactly if `c` is the first character that is not blank. -/
theorem trimStart_eq_cons_iff :
    trimStart text = c :: rest ↔ isBlank c = false ∧ ∃ w, AllBlank w ∧ text = w ++ c :: rest := by
  constructor
  · intro h
    obtain ⟨w, hw, htext⟩ := exists_eq_append_trimStart text
    have hc := List.head?_dropWhile_not isBlank text
    rw [show text.dropWhile isBlank = c :: rest from h] at hc
    exact ⟨hc, w, hw, h ▸ htext⟩
  · rintro ⟨hc, w, hw, rfl⟩
    exact (trimStart_blank_append hw).trans (trimStart_of_not_startsBlank hc)

theorem trimEnd_trimEnd (text : Text) : trimEnd (trimEnd text) = trimEnd text := by
  obtain ⟨w, hw, h⟩ := exists_eq_trimEnd_append text
  rw [← trimEnd_append_blank hw, ← h]

theorem trimEnd_cons (hc : isBlank c = false) : trimEnd (c :: rest) = c :: trimEnd rest := by
  unfold trimEnd
  rw [List.reverse_cons, List.dropWhile_append]
  split
  · next h => simp [List.isEmpty_iff.1 h, hc]
  · simp

/-- `trimEnd` does not reach into `a` if `text` behind it holds more than blanks. -/
theorem trimEnd_append (a : Text) (h : ¬AllBlank text) :
    trimEnd (a ++ text) = a ++ trimEnd text := by
  have hne : text.reverse.dropWhile isBlank ≠ [] := fun hnil =>
    h fun c hc => List.dropWhile_eq_nil_iff.1 hnil c (List.mem_reverse.2 hc)
  unfold trimEnd
  rw [List.reverse_append, List.dropWhile_append, if_neg (by simpa using hne), List.reverse_append,
    List.reverse_reverse]

theorem trimEnd_ne_nil (h : ¬AllBlank text) : trimEnd text ≠ [] := by
  obtain ⟨w, hw, htext⟩ := exists_eq_trimEnd_append text
  intro hnil
  rw [hnil, List.nil_append] at htext
  exact h (htext ▸ hw)

theorem trimEnd_trim (text : Text) : trimEnd (trim text) = trim text := trimEnd_trimEnd _

/-- `trim text` does not end in blanks `w`, unless `w` is empty. -/
theorem eq_nil_of_trim_eq_append {a : Text} (hw : AllBlank w) (h : trim text = a ++ w) :
    w = [] := by
  obtain ⟨w', -, ha⟩ := exists_eq_trimEnd_append a
  have hend : a ++ w = trimEnd a := by rw [← trimEnd_append_blank hw, ← h, trimEnd_trim]
  have hlen : a.length + w.length + w'.length = a.length := by
    rw [← List.length_append, hend, ← List.length_append, ← ha]
  exact List.length_eq_zero_iff.1 (by omega)

theorem trimStart_trim (text : Text) : trimStart (trim text) = trim text := by
  unfold trim
  cases h : trimStart text with
  | nil => rfl
  | cons c rest =>
    obtain ⟨hc, -⟩ := trimStart_eq_cons_iff.1 h
    rw [trimEnd_cons hc]
    exact trimStart_of_not_startsBlank hc

theorem trim_replicate (hc : isBlank c = false) (n : Nat) :
    trim (List.replicate n c) = List.replicate n c := by
  have hdrop : (List.replicate n c).dropWhile isBlank = List.replicate n c := by
    simp [hc]
  rw [trim, trimStart, hdrop, trimEnd, List.reverse_replicate, hdrop, List.reverse_replicate]

/-- `trimEnd text` ends in `c` exactly if only blanks follow some `c`. -/
theorem getLast?_trimEnd_eq_some_iff (hc : isBlank c = false) :
    (trimEnd text).getLast? = some c ↔ ∃ u w, AllBlank w ∧ text = u ++ c :: w := by
  rw [getLast?_trimEnd, List.head?_eq_some_iff]
  constructor
  · rintro ⟨u, h⟩
    obtain ⟨-, w, hw, htext⟩ := trimStart_eq_cons_iff.1 h
    exact ⟨u.reverse, w.reverse, hw.reverse, by simpa using congrArg List.reverse htext⟩
  · rintro ⟨u, w, hw, rfl⟩
    exact ⟨u.reverse, trimStart_eq_cons_iff.2 ⟨hc, w.reverse, hw.reverse, by simp⟩⟩

/-! ## Words and searches -/

/-- If `p` fails on blanks, `takeWhile p` stops at the blanks `w`, if not before. -/
theorem takeWhile_append_blank {p : Char → Bool} (hp : ∀ c, isBlank c = true → p c = false)
    (hw : AllBlank w) : (text ++ w).takeWhile p = text.takeWhile p := by
  induction text with
  | nil =>
    cases w with
    | nil => rfl
    | cons c w => simp [hp c (hw c List.mem_cons_self)]
  | cons c text ih =>
    rw [List.cons_append, List.takeWhile_cons, List.takeWhile_cons, ih]

theorem dropWhile_append_blank {p : Char → Bool} (hp : ∀ c, isBlank c = true → p c = false)
    (hw : AllBlank w) : (text ++ w).dropWhile p = text.dropWhile p ++ w := by
  induction text with
  | nil =>
    cases w with
    | nil => rfl
    | cons c w => simp [hp c (hw c List.mem_cons_self)]
  | cons c text ih =>
    rw [List.cons_append, List.dropWhile_cons, List.dropWhile_cons, ih]
    split <;> rfl

theorem not_isBlank_of_mem_firstWord (h : c ∈ firstWord text) : isBlank c = false := by
  simpa using List.mem_takeWhile_imp h

theorem firstWord_blank_append (hw : AllBlank w) : firstWord (w ++ text) = firstWord text := by
  unfold firstWord
  rw [trimStart_blank_append hw]

theorem firstWord_append_blank (hw : AllBlank w) : firstWord (text ++ w) = firstWord text := by
  unfold firstWord
  cases h : trimStart text with
  | nil => rw [trimStart_append_blank_of_nil hw h]
  | cons c rest =>
    rw [trimStart_append_blank_of_cons h, ← List.cons_append]
    exact takeWhile_append_blank (fun _ hc => by simp [hc]) hw

/-- If `a` has no blanks, `firstWord` takes it whole in front of a blank or the end. -/
theorem firstWord_append {a : Text} (hne : a ≠ []) (ha : ∀ c ∈ a, isBlank c = false)
    (hr : startsBlank rest = true) : firstWord (a ++ rest) = a := by
  have hstart : startsBlank (a ++ rest) = false := by
    obtain ⟨c, a, rfl⟩ := List.exists_cons_of_ne_nil hne
    exact ha c List.mem_cons_self
  have hrest : rest.takeWhile (fun c => !isBlank c) = [] := by
    cases rest with
    | nil => rfl
    | cons c rest => exact List.takeWhile_cons_of_neg (by simpa [startsBlank] using hr)
  rw [firstWord, trimStart_of_not_startsBlank hstart,
    List.takeWhile_append_of_pos (by simpa using ha), hrest, List.append_nil]

theorem isSome_stripPrefix? (start text : Text) :
    (stripPrefix? start text).isSome = start.isPrefixOf text := by
  unfold stripPrefix?
  cases start.isPrefixOf text <;> rfl

/-- `stripPrefix? start` cuts the same off `text ++ w` as off `text`, if `start` has no blanks. -/
theorem stripPrefix?_append_blank {start : Text} (hs : ∀ c ∈ start, isBlank c = false)
    (hw : AllBlank w) :
    stripPrefix? start (text ++ w) = (stripPrefix? start text).map (· ++ w) := by
  cases h : stripPrefix? start text with
  | some rest =>
    rw [stripPrefix?_eq_some_iff] at h
    rw [Option.map_some, stripPrefix?_eq_some_iff, h, List.append_assoc]
  | none =>
    rw [Option.map_none, Option.eq_none_iff_forall_ne_some]
    intro rest hr
    rw [stripPrefix?_eq_some_iff, List.append_eq_append_iff] at hr
    rcases hr with ⟨taken, hstart, htaken⟩ | ⟨left, htext, -⟩
    · -- what `start` takes of the blanks is blank and not blank, hence nothing
      have hnil : taken = [] := List.eq_nil_iff_forall_not_mem.2 fun c hc =>
        hw.not_mem (hs c (hstart ▸ List.mem_append_right text hc))
          (htaken ▸ List.mem_append_left rest hc)
      have hall : stripPrefix? start text = some [] :=
        stripPrefix?_eq_some_iff.2 (by rw [hstart, hnil, List.append_nil, List.append_nil])
      rw [h] at hall
      cases hall
    · rw [stripPrefix?_eq_some_iff.2 htext] at h
      cases h

theorem anySuffix_blank_append {p : Text → Bool}
    (hp : ∀ c rest, isBlank c = true → p (c :: rest) = false) (hw : AllBlank w) :
    anySuffix p (w ++ text) = anySuffix p text := by
  induction w with
  | nil => rfl
  | cons c w ih =>
    have hc := hw c List.mem_cons_self
    rw [List.cons_append, anySuffix, hp c _ hc, Bool.false_or]
    exact ih fun d hd => hw d (List.mem_cons_of_mem c hd)

theorem anySuffix_append_blank {p : Text → Bool}
    (hp : ∀ c rest, isBlank c = true → p (c :: rest) = false) (hw : AllBlank w)
    (h : ∀ part, p (part ++ w) = p part) : anySuffix p (text ++ w) = anySuffix p text := by
  induction text with
  | nil =>
    have hnil : anySuffix p (w ++ []) = anySuffix p [] := anySuffix_blank_append hp hw
    rwa [List.append_nil] at hnil
  | cons c text ih =>
    have hc := h (c :: text)
    rw [List.cons_append] at hc
    rw [List.cons_append, anySuffix, anySuffix, hc, ih]

end ShellDoc.Text
