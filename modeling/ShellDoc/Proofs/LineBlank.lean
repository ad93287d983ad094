import ShellDoc.Comment
import ShellDoc.Line
import ShellDoc.Proofs.Blank

/-!
# Blanks around a line

What a line is and which name it holds do not depend on the blanks around it. Every test that
`Line.classify` and `Line.headerName` make is taken in turn, with blanks in front
(`blank_append`) and behind (`append_blank`).

* `Line.classify_blank_append_blank`, `Line.headerName_blank_append_blank`: the two results.
* `Line.classify_eq_openBrace_iff`: of a line that trims to a brace nothing else can be said.
* `Line.not_isBlank_of_mem_headerName`: no blank is part of a name.
* `Comment.fragment_blank_append`: a comment may be indented; blanks at its end are part of it.
-/

namespace ShellDoc

open Text

variable {w w' line text : Text}

namespace Line

/-! ## Comments -/

theorem isComment_blank_append (hw : AllBlank w) : isComment (w ++ line) = isComment line := by
  unfold isComment
  rw [trimStart_blank_append hw]

theorem isComment_append_blank (hw : AllBlank w) : isComment (line ++ w) = isComment line := by
  unfold isComment
  rw [head?_trimStart_append_blank hw]

theorem classify_eq_comment_iff : classify line = .comment ↔ isComment line = true := by
  unfold classify
  cases isComment line with
  | true => simp
  | false =>
    simp only [Bool.false_eq_true, ↓reduceIte, iff_false]
    split
    · split <;> simp
    · split <;> simp

/-! ## Headers -/

theorem not_isBlank_of_mem_keyword : ∀ c ∈ keyword, isBlank c = false := by
  have h : keyword.all (fun c => !isBlank c) = true := by decide
  simpa using h

theorem not_isBlank_of_mem_parens : ∀ c ∈ parens, isBlank c = false := by
  have h : parens.all (fun c => !isBlank c) = true := by decide
  simpa using h

theorem afterKeyword?_blank_append (hw : AllBlank w) :
    afterKeyword? (w ++ line) = afterKeyword? line := by
  unfold afterKeyword?
  rw [trimStart_blank_append hw]

/-- `afterKeyword?` keeps the blanks `w` behind what follows the keyword, and finds nothing in them
alone. -/
theorem afterKeyword?_append_blank (hw : AllBlank w) :
    afterKeyword? (line ++ w) = (afterKeyword? line).map (· ++ w) := by
  unfold afterKeyword?
  cases hl : trimStart line with
  | nil => rw [trimStart_append_blank_of_nil hw hl]; rfl
  | cons d start =>
    rw [trimStart_append_blank_of_cons hl, ← List.cons_append,
      stripPrefix?_append_blank not_isBlank_of_mem_keyword hw]
    cases hk : stripPrefix? keyword (d :: start) with
    | none => rfl
    | some rest =>
      cases rest with
      | nil =>
        cases w with
        | nil => rfl
        | cons b w =>
          have hrest : trimStart w = [] :=
            AllBlank.trimStart_eq_nil fun c hc => hw c (List.mem_cons_of_mem b hc)
          simp [hrest]
      | cons b rest =>
        simp only [Option.map_some, List.cons_append]
        cases hr : trimStart rest with
        | nil => simp [trimStart_append_blank_of_nil hw hr]
        | cons e body =>
          rw [trimStart_append_blank_of_cons hr]
          cases isBlank b <;> simp

theorem not_isPrefixOf_parens_of_isBlank (c : Char) (rest : Text) (hc : isBlank c = true) :
    parens.isPrefixOf (c :: rest) = false := by
  have hne : c ≠ '(' := by
    rintro rfl
    exact absurd hc (by decide)
  simp [parens, List.isPrefixOf, Ne.symm hne]

theorem isPrefixOf_parens_append_blank (hw : AllBlank w) (text : Text) :
    parens.isPrefixOf (text ++ w) = parens.isPrefixOf text := by
  rw [← isSome_stripPrefix?, ← isSome_stripPrefix?,
    stripPrefix?_append_blank not_isBlank_of_mem_parens hw, Option.isSome_map]

theorem containsText_parens_blank_append (hw : AllBlank w) :
    containsText parens (w ++ line) = containsText parens line :=
  anySuffix_blank_append not_isPrefixOf_parens_of_isBlank hw

theorem containsText_parens_append_blank (hw : AllBlank w) :
    containsText parens (line ++ w) = containsText parens line :=
  anySuffix_append_blank not_isPrefixOf_parens_of_isBlank hw (isPrefixOf_parens_append_blank hw)

theorem isHeader_blank_append (hw : AllBlank w) : isHeader (w ++ line) = isHeader line := by
  unfold isHeader
  rw [afterKeyword?_blank_append hw, containsText_parens_blank_append hw]

theorem isHeader_append_blank (hw : AllBlank w) : isHeader (line ++ w) = isHeader line := by
  unfold isHeader
  rw [afterKeyword?_append_blank hw, Option.isSome_map, containsText_parens_append_blank hw]

/-! ## Braces -/

theorem opensBrace_append_blank (hw : AllBlank w) : opensBrace (text ++ w) = opensBrace text := by
  unfold opensBrace
  cases h : trimStart text with
  | nil => rw [trimStart_append_blank_of_nil hw h]
  | cons c rest =>
    rw [trimStart_append_blank_of_cons h]
    by_cases hc : c = '\x7b'
    · subst hc
      cases rest with
      | nil => exact hw.startsBlank
      | cons d rest => rfl
    · simp [hc]

theorem opensAfterParens_eq_false_of_isBlank (c : Char) (rest : Text) (hc : isBlank c = true) :
    opensAfterParens (c :: rest) = false := by
  unfold opensAfterParens stripPrefix?
  simp [not_isPrefixOf_parens_of_isBlank c rest hc]

theorem opensAfterParens_append_blank (hw : AllBlank w) (text : Text) :
    opensAfterParens (text ++ w) = opensAfterParens text := by
  unfold opensAfterParens
  rw [stripPrefix?_append_blank not_isBlank_of_mem_parens hw]
  cases stripPrefix? parens text with
  | none => rfl
  | some rest => exact opensBrace_append_blank hw

theorem not_isNameChar_of_isBlank (c : Char) (hc : isBlank c = true) : isNameChar c = false := by
  simp [isNameChar, hc]

theorem opensAfterKeyword_blank_append (hw : AllBlank w) :
    opensAfterKeyword (w ++ line) = opensAfterKeyword line := by
  unfold opensAfterKeyword
  rw [afterKeyword?_blank_append hw]

theorem opensAfterKeyword_append_blank (hw : AllBlank w) :
    opensAfterKeyword (line ++ w) = opensAfterKeyword line := by
  unfold opensAfterKeyword
  rw [afterKeyword?_append_blank hw]
  cases afterKeyword? line with
  | none => rfl
  | some body =>
    simp only [Option.map_some, takeWhile_append_blank not_isNameChar_of_isBlank hw,
      dropWhile_append_blank not_isNameChar_of_isBlank hw, opensBrace_append_blank hw]

theorem opensBody_blank_append (hw : AllBlank w) : opensBody (w ++ line) = opensBody line := by
  unfold opensBody
  rw [getLast?_trimEnd_blank_append hw, opensAfterKeyword_blank_append hw,
    anySuffix_blank_append opensAfterParens_eq_false_of_isBlank hw]

theorem opensBody_append_blank (hw : AllBlank w) : opensBody (line ++ w) = opensBody line := by
  unfold opensBody
  rw [trimEnd_append_blank hw, opensAfterKeyword_append_blank hw,
    anySuffix_append_blank opensAfterParens_eq_false_of_isBlank hw
      (opensAfterParens_append_blank hw)]

/-! ## Kind and name -/

theorem classify_blank_append (hw : AllBlank w) : classify (w ++ line) = classify line := by
  unfold classify isOpenBrace
  rw [isComment_blank_append hw, isHeader_blank_append hw, opensBody_blank_append hw,
    trim_blank_append hw]

theorem classify_append_blank (hw : AllBlank w) : classify (line ++ w) = classify line := by
  unfold classify isOpenBrace
  rw [isComment_append_blank hw, isHeader_append_blank hw, opensBody_append_blank hw,
    trim_append_blank hw]

/-- `classify` does not see the blanks `w` and `w'` around `line`. -/
theorem classify_blank_append_blank (hw : AllBlank w) (hw' : AllBlank w') :
    classify (w ++ line ++ w') = classify line := by
  rw [classify_append_blank hw', classify_blank_append hw]

/-- `classify` gives `openBrace` for no line but those that `trim` to a brace, for these are neither
comments nor headers. -/
theorem classify_eq_openBrace_iff : classify line = .openBrace ↔ trim line = ['\x7b'] := by
  constructor
  · intro h
    unfold classify at h
    split at h
    · cases h
    · split at h
      · split at h <;> cases h
      · split at h
        · next hb => simpa [isOpenBrace] using hb
        · cases h
  · intro h
    obtain ⟨w, w', hw, hw', hline⟩ := exists_eq_append_trim line
    rw [hline, classify_blank_append_blank hw hw', h]
    decide

theorem nameWord_blank_append (hw : AllBlank w) : nameWord (w ++ line) = nameWord line := by
  unfold nameWord
  rw [afterKeyword?_blank_append hw, containsText_parens_blank_append hw,
    firstWord_blank_append hw]

theorem nameWord_append_blank (hw : AllBlank w) : nameWord (line ++ w) = nameWord line := by
  unfold nameWord
  rw [afterKeyword?_append_blank hw, containsText_parens_append_blank hw,
    firstWord_append_blank hw]
  cases afterKeyword? line with
  | none => rfl
  | some body => exact firstWord_append_blank hw

theorem not_isBlank_of_mem_nameWord {c : Char} (h : c ∈ nameWord line) : isBlank c = false := by
  unfold nameWord at h
  split at h
  · exact not_isBlank_of_mem_firstWord h
  · split at h
    · exact not_isBlank_of_mem_firstWord h
    · cases h

theorem headerName_isPrefix (line : Text) : headerName line <+: nameWord line :=
  (stripSuffix_isPrefix _ _).trans (stripSuffix_isPrefix _ _)

theorem not_isBlank_of_mem_headerName {c : Char} (h : c ∈ headerName line) :
    isBlank c = false :=
  not_isBlank_of_mem_nameWord ((headerName_isPrefix line).subset h)

/-- `headerName` does not see the blanks `w` and `w'` around `line`. -/
theorem headerName_blank_append_blank (hw : AllBlank w) (hw' : AllBlank w') :
    headerName (w ++ line ++ w') = headerName line := by
  unfold headerName
  rw [nameWord_append_blank hw', nameWord_blank_append hw]

end Line

/-- `fragment` does not see the indent `w` of a comment line. -/
theorem Comment.fragment_blank_append (hw : AllBlank w) (hl : Line.isComment line = true) :
    fragment (w ++ line) = fragment line := by
  obtain ⟨rest, hrest⟩ : ∃ rest, trimStart line = '#' :: rest :=
    List.head?_eq_some_iff.1 (by simpa [Line.isComment] using hl)
  unfold fragment
  rw [trimStart_blank_append hw, hrest]
  rfl

end ShellDoc
