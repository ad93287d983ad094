import ShellDoc.Proofs.LineGrammar
import ShellDoc.Proofs.LiveLines

/-!
# The name in a header

A line is a header exactly when there is a word in it to read a name from. The word is found by
counting words between blanks, and the name is that word without the brace and the parentheses at
its end.

* `Text.words`: a text read as words.
* `Line.nameToken?`: the word that holds the name, by its number; `nameToken?_eq_some`: it is there
  in every header, and it is the one that `Line.headerName` reads.
* `Line.nameless`: the words in which no name is left; `headerName_eq_nil_iff`.
-/

namespace ShellDoc

open Text

namespace Text

variable {w text rest : Text}

/-- The words of `text`: what stands between its blanks and is not empty. -/
def words (text : Text) : List Text := (text.splitOnP isBlank).filter fun word => !word.isEmpty

theorem words_cons_of_isBlank {c : Char} (hc : isBlank c = true) (text : Text) :
    words (c :: text) = words text := by
  simp [words, List.splitOnP_cons_eq_if_modifyHead, hc]

theorem words_blank_append (hw : AllBlank w) : words (w ++ text) = words text := by
  induction w with
  | nil => rfl
  | cons c w ih =>
    obtain ⟨hc, hw⟩ := List.forall_mem_cons.1 hw
    rw [List.cons_append, words_cons_of_isBlank hc, ih hw]

/-- If `a` has no blanks, it is the first of the `words` in front of a blank or the end. -/
theorem words_append {a : Text} (hne : a ≠ []) (ha : ∀ c ∈ a, isBlank c = false)
    (hr : startsBlank rest = true) : words (a ++ rest) = a :: words rest := by
  cases rest with
  | nil => simp [words, List.splitOnP_eq_singleton ha, hne]
  | cons c rest =>
    rw [words_cons_of_isBlank hr]
    simp [words, List.splitOnP_append_cons_of_forall_mem ha c hr, hne]

theorem words_eq_cons (h : trimStart text ≠ []) :
    words text = firstWord text :: words (afterWord text) := by
  obtain ⟨w, hw, htext⟩ := exists_eq_append_trimStart text
  obtain ⟨c, rest, hrest⟩ := List.exists_cons_of_ne_nil h
  obtain ⟨hc, -⟩ := trimStart_eq_cons_iff.1 hrest
  have hword : firstWord text ≠ [] := by simp [firstWord, hrest, hc]
  have hafter : startsBlank (afterWord text) = true := by
    cases ha : afterWord text with
    | nil => rfl
    | cons d tail =>
      have hd := List.head?_dropWhile_not (fun c => !isBlank c) (trimStart text)
      rw [show (trimStart text).dropWhile (fun c => !isBlank c) = d :: tail from ha] at hd
      simpa [startsBlank] using hd
  have hsplit : trimStart text = firstWord text ++ afterWord text :=
    List.takeWhile_append_dropWhile.symm
  calc words text = words (trimStart text) :=
        (congrArg words htext).trans (words_blank_append hw)
    _ = words (firstWord text ++ afterWord text) := by rw [← hsplit]
    _ = firstWord text :: words (afterWord text) :=
        words_append hword (fun _ => not_isBlank_of_mem_firstWord) hafter

end Text

namespace Line

variable {line text body : Text}

/-! ## The word that holds the name -/

/-- `text` begins with `keyword` and a blank behind it. -/
def beginsWithKeyword (text : Text) : Bool :=
  (stripPrefix? keyword text).any fun rest => rest.head?.any isBlank

/-- The second of the `words` of a trimmed line that begins with `keyword`, the first of any
other. -/
def nameToken? (line : Text) : Option Text :=
  (words (trim line))[if beginsWithKeyword (trim line) then 1 else 0]?

theorem isHeader_trim (line : Text) : isHeader (trim line) = isHeader line := by
  obtain ⟨w, w', hw, hw', hline⟩ := exists_eq_append_trim line
  conv_rhs => rw [hline, isHeader_append_blank hw', isHeader_blank_append hw]

theorem nameWord_trim (line : Text) : nameWord (trim line) = nameWord line := by
  obtain ⟨w, w', hw, hw', hline⟩ := exists_eq_append_trim line
  conv_rhs => rw [hline, nameWord_append_blank hw', nameWord_blank_append hw]

/-- In a trimmed line, `afterKeyword?` finds something behind `keyword` and a blank: otherwise the
line would end in blanks. -/
theorem beginsWithKeyword_trim (line : Text) :
    beginsWithKeyword (trim line) = (afterKeyword? (trim line)).isSome := by
  unfold beginsWithKeyword afterKeyword?
  rw [trimStart_trim]
  cases hk : stripPrefix? keyword (trim line) with
  | none => rfl
  | some tail =>
    cases tail with
    | nil => rfl
    | cons c rest =>
      have hline : trim line = keyword ++ c :: rest := stripPrefix?_eq_some_iff.1 hk
      have hrest : isBlank c = true → trimStart rest ≠ [] := by
        intro hc hnil
        obtain ⟨w, hw, hw'⟩ := exists_eq_append_trimStart rest
        rw [hnil, List.append_nil] at hw'
        have hblank : AllBlank (c :: rest) := List.forall_mem_cons.2 ⟨hc, hw' ▸ hw⟩
        exact List.cons_ne_nil c rest (eq_nil_of_trim_eq_append hblank hline)
      cases hc : isBlank c with
      | false => simp [hc]
      | true => simp [hc, hrest hc]

/-- In every header `nameToken?` finds a word, and it is the `nameWord`. -/
theorem nameToken?_eq_some (h : isHeader line = true) :
    nameToken? line = some (nameWord line) := by
  rw [← isHeader_trim] at h
  rw [nameToken?, beginsWithKeyword_trim, ← nameWord_trim]
  cases hk : afterKeyword? (trim line) with
  | some body =>
    obtain ⟨hb, w, w₁, hw, hw₁, hne, hline⟩ := afterKeyword?_eq_some_iff.1 hk
    have hbody : trimStart body ≠ [] := by
      rw [trimStart_of_not_startsBlank hb]
      rintro rfl
      cases hb
    have hwords : words (trim line) = keyword :: firstWord body :: words (afterWord body) := by
      rw [hline, List.append_assoc, List.append_assoc, words_blank_append hw,
        words_append (by decide) not_isBlank_of_mem_keyword (hw₁.startsBlank_append hne body),
        words_blank_append hw₁, words_eq_cons hbody]
    simp [hwords, nameWord, hk]
  | none =>
    have hparens : containsText parens (trim line) = true := by simpa [isHeader, hk] using h
    have hline : trimStart (trim line) ≠ [] := by
      rw [trimStart_trim]
      intro hnil
      rw [hnil] at hparens
      exact absurd hparens (by decide)
    simp [words_eq_cons hline, nameWord, hk, hparens]

/-! ## What is left of it -/

/-- The words of which `headerName` leaves nothing: a brace, parentheses or both. -/
def nameless : List Text := [['\x7b'], parens, parens ++ ['\x7b']]

theorem headerName_of_not_isHeader (h : isHeader line = false) : headerName line = [] := by
  obtain ⟨hk, hparens⟩ : afterKeyword? line = none ∧ containsText parens line = false := by
    simpa [isHeader] using h
  simp only [headerName, nameWord, hk, hparens, Bool.false_eq_true, ↓reduceIte]
  decide

theorem nameWord_ne_nil (h : isHeader line = true) : nameWord line ≠ [] := by
  have hmem : nameWord line ∈ words (trim line) := List.mem_of_getElem? (nameToken?_eq_some h)
  simpa using (List.mem_filter.1 hmem).2

theorem headerName_eq_nil_iff (h : isHeader line = true) :
    headerName line = [] ↔ nameWord line ∈ nameless := by
  have hne := nameWord_ne_nil h
  have hbrace : ¬['\x7b'] <:+ parens := by decide
  rw [headerName, stripSuffix_eq_iff, stripSuffix_eq_iff, List.nil_append]
  constructor
  · rintro ((h | ⟨h, -⟩) | ⟨h, -⟩)
    · simp [nameless, h]
    · simp [nameless, h]
    · rcases stripSuffix_eq_iff.1 h with h | ⟨h, -⟩
      · simp [nameless, h]
      · exact absurd h hne
  · intro h
    simp only [nameless, List.mem_cons, List.not_mem_nil, or_false] at h
    rcases h with h | h | h
    · refine .inr ⟨?_, ?_⟩ <;> rw [h] <;> decide
    · exact .inl (.inr ⟨h, h ▸ hbrace⟩)
    · exact .inl (.inl h)

end Line

/-! ## Headers without a record -/

/-- Something is left of the word that `nameToken?` finds in the line at index `i`. -/
def IsNamed (lines : List Text) (i : Nat) : Prop :=
  Line.nameToken? (lines.getD i []) ∉ Line.nameless.map some

instance (lines : List Text) : DecidablePred (IsNamed lines) := fun i =>
  inferInstanceAs (Decidable (Line.nameToken? (lines.getD i []) ∉ Line.nameless.map some))

variable {lines : List Text} {i : Nat}

theorem IsConfirmed.isHeader (h : IsConfirmed lines i) :
    Line.isHeader (lines.getD i []) = true := by
  rcases h.2 with hk | ⟨hk, -⟩
  · obtain ⟨line, hi, hl⟩ := Option.map_eq_some_iff.1 hk
    exact getD_eq hi ▸ Line.isHeader_of_classify (.inl hl)
  · obtain ⟨line, hi, hl⟩ := Option.map_eq_some_iff.1 hk
    exact getD_eq hi ▸ Line.isHeader_of_classify (.inr hl)

theorem isNamed_iff (h : IsConfirmed lines i) : IsNamed lines i ↔ nameAt lines i ≠ [] := by
  have hh := h.isHeader
  rw [IsNamed, nameAt, Ne, Line.headerName_eq_nil_iff hh, Line.nameToken?_eq_some hh]
  simp

/-- `headerName` is empty for a line that is no header. In a header `nameToken?` finds a word, and
`headerName` is that word without one brace and then one `parens` at its end: a beginning of the
word, without blanks, and empty only if the word is `nameless`. So `scan .all` has a record for each
confirmed header but for those with such a word. -/
theorem headerName_of_nameToken :
    (∀ line, Line.isHeader line = false → Line.headerName line = []) ∧
      (∀ line, Line.isHeader line = true → ∃ word, Line.nameToken? line = some word ∧
        Line.headerName line = stripSuffix Line.parens (stripSuffix ['\x7b'] word) ∧
        Line.headerName line <+: word ∧ (∀ c ∈ Line.headerName line, isBlank c = false) ∧
        (Line.headerName line = [] ↔ word ∈ Line.nameless)) ∧
      ∀ lines, scan .all lines =
        ((List.range lines.length).filter fun i => IsConfirmed lines i ∧ IsNamed lines i).map
          fun i => ⟨nameAt lines i, commentAbove lines i⟩ := by
  refine ⟨fun _ => Line.headerName_of_not_isHeader, fun line h => ?_, fun lines => ?_⟩
  · exact ⟨Line.nameWord line, Line.nameToken?_eq_some h, rfl, Line.headerName_isPrefix line,
      fun _ => Line.not_isBlank_of_mem_headerName, Line.headerName_eq_nil_iff h⟩
  · rw [scan_eq_entries, ← List.filterMap_eq_map, List.filterMap_filter]
    refine List.filterMap_congr fun i _ => ?_
    rw [entryAt_all]
    have hiff : IsConfirmed lines i ∧ IsNamed lines i ↔ IsConfirmed lines i ∧ nameAt lines i ≠ [] :=
      and_congr_right isNamed_iff
    simp only [hiff, decide_eq_true_eq]
    rfl

/-- A header with parentheses and brace in one word behind `keyword`, and no name. -/
def unnamedHeader : Text := ("\tfunction\u2028()\x7b :" : String)

theorem headerName_unnamedHeader :
    Line.isHeader unnamedHeader = true ∧
      Line.nameToken? unnamedHeader = some (Line.parens ++ ['\x7b']) ∧
      Line.headerName unnamedHeader = [] ∧ scan .all [unnamedHeader] = [] := by
  obtain ⟨-, hheader, hscan⟩ := headerName_of_nameToken
  have hh : Line.isHeader unnamedHeader = true := by decide
  have htoken : Line.nameToken? unnamedHeader = some (Line.parens ++ ['\x7b']) := by decide
  obtain ⟨word, hword, -, -, -, hnil⟩ := hheader unnamedHeader hh
  obtain rfl : Line.parens ++ ['\x7b'] = word := Option.some.inj (htoken.symm.trans hword)
  refine ⟨hh, htoken, hnil.2 (by decide), ?_⟩
  rw [hscan]
  decide

end ShellDoc
