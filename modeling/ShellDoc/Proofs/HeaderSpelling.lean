import ShellDoc.Proofs.Criterion
import ShellDoc.Proofs.LineGrammar

/-!
# Spellings of a header

However a function header is spelled, with the keyword, with parentheses or with both, with its
brace on the line or alone on the next, and with any blanks between the parts or none, the scanner
gives the function under its name with the block above it.

* `Line.IsName`: the names for which this holds.
* `Line.Declares`: the three spellings, up to where the brace may stand.
* `Line.Glued`: what may stick to the name in the word that it is read from; `headerName` takes it
  off again (`strip_glue`).
* `Scanner.push_declares`: the scanner at each spelling.
-/

namespace ShellDoc

open Text

namespace Line

variable {n head tail text w : Text}

/-! ## Names and spellings -/

/-- `n` can be the name in any spelling of a header: it is not empty, has no blanks, parentheses and
opening braces, and is neither a comment nor the `keyword` where it comes first on a line. -/
structure IsName (n : Text) : Prop where
  ne_nil : n ≠ []
  nameOnly : NameOnly n
  not_comment : n.head? ≠ some '#'
  ne_keyword : n ≠ keyword

/-- `Declares n head`: `head` is the beginning of a header of the function `n`, before its brace. -/
inductive Declares (n : Text) : Text → Prop where
  | parens {w w₁ w₂ : Text} (hw : AllBlank w) (hw₁ : AllBlank w₁) (hw₂ : AllBlank w₂) :
      Declares n (w ++ n ++ w₁ ++ parens ++ w₂)
  | keyword {w w₀ w₁ : Text} (hw : AllBlank w) (hw₀ : AllBlank w₀) (hne : w₀ ≠ [])
      (hw₁ : AllBlank w₁) : Declares n (w ++ keyword ++ w₀ ++ n ++ w₁)
  | keywordParens {w w₀ w₁ w₂ : Text} (hw : AllBlank w) (hw₀ : AllBlank w₀) (hne : w₀ ≠ [])
      (hw₁ : AllBlank w₁) (hw₂ : AllBlank w₂) :
      Declares n (w ++ keyword ++ w₀ ++ n ++ w₁ ++ parens ++ w₂)

/-- What may follow a `head`: nothing, or the brace with a blank or nothing behind it. -/
def BraceOrEnd (tail : Text) : Prop :=
  tail = [] ∨ ∃ r, startsBlank r = true ∧ tail = '\x7b' :: r

/-! ## The word that the name is read from -/

/-- What may stick to the name in one word: `parens`, a brace, both or neither. -/
def glues : List Text := [[], ['\x7b'], parens, parens ++ ['\x7b']]

/-- `text` begins with one of the `glues`, and then a blank or nothing follows. -/
def Glued (text : Text) : Prop :=
  ∃ glue ∈ glues, ∃ rest, startsBlank rest = true ∧ text = glue ++ rest

theorem Glued.blank_append (hw : AllBlank w) (h : Glued text) : Glued (w ++ text) := by
  cases w with
  | nil => exact h
  | cons c w =>
    obtain ⟨hc, -⟩ := List.forall_mem_cons.1 hw
    exact ⟨[], by simp [glues], c :: (w ++ text), hc, rfl⟩

theorem BraceOrEnd.glued (h : BraceOrEnd tail) : Glued tail := by
  rcases h with rfl | ⟨r, hr, rfl⟩
  · exact ⟨[], by simp [glues], [], rfl, rfl⟩
  · exact ⟨['\x7b'], by simp [glues], r, hr, rfl⟩

theorem BraceOrEnd.glued_parens (h : BraceOrEnd tail) (hw : AllBlank w) :
    Glued (parens ++ (w ++ tail)) := by
  cases w with
  | nil =>
    rcases h with rfl | ⟨r, hr, rfl⟩
    · exact ⟨parens, by simp [glues], [], rfl, rfl⟩
    · exact ⟨parens ++ ['\x7b'], by simp [glues], r, hr, rfl⟩
  | cons c w =>
    obtain ⟨hc, -⟩ := List.forall_mem_cons.1 hw
    exact ⟨parens, by simp [glues], c :: (w ++ tail), hc, rfl⟩

theorem IsName.firstWord_append_glue (hn : IsName n) {glue rest : Text} (hg : glue ∈ glues)
    (hr : startsBlank rest = true) : firstWord (n ++ (glue ++ rest)) = n ++ glue := by
  rw [← List.append_assoc]
  refine firstWord_append (by simp [hn.ne_nil]) (fun c hc => ?_) hr
  rcases List.mem_append.1 hc with hc | hc
  · exact (hn.nameOnly c hc).1
  · have hall : glues.all (fun glue => glue.all fun c => !isBlank c) = true := by decide
    simpa using List.all_eq_true.1 (List.all_eq_true.1 hall glue hg) c hc

/-- `headerName` cuts the brace off first and `parens` after it, which leaves `n`: the name itself
has nothing of either. -/
theorem IsName.strip_glue (hn : IsName n) {glue : Text} (hg : glue ∈ glues) :
    stripSuffix parens (stripSuffix ['\x7b'] (n ++ glue)) = n := by
  have hbrace : '\x7b' ∉ n := fun h => (hn.nameOnly _ h).2.2.2 rfl
  have hclose : ')' ∉ n := fun h => (hn.nameOnly _ h).2.2.1 rfl
  have hname : stripSuffix parens n = n := stripSuffix_of_not_mem (by decide) hclose
  have hparens : stripSuffix ['\x7b'] (n ++ parens) = n ++ parens :=
    stripSuffix_of_not_mem List.mem_cons_self (by simp [hbrace, parens])
  simp only [glues, List.mem_cons, List.not_mem_nil, or_false] at hg
  rcases hg with rfl | rfl | rfl | rfl
  · rw [List.append_nil, stripSuffix_of_not_mem List.mem_cons_self hbrace, hname]
  · rw [stripSuffix_append, hname]
  · rw [hparens, stripSuffix_append]
  · rw [← List.append_assoc, stripSuffix_append, stripSuffix_append]

/-- A word that begins with a name is not `keyword`. -/
theorem IsName.append_glue_ne_keyword (hn : IsName n) {glue : Text} (hg : glue ∈ glues) :
    n ++ glue ≠ keyword := by
  intro h
  have hmem : ∀ c ∈ glue, c ∈ keyword := fun c hc => h ▸ List.mem_append_right n hc
  simp only [glues, List.mem_cons, List.not_mem_nil, or_false] at hg
  rcases hg with rfl | rfl | rfl | rfl
  · exact hn.ne_keyword (by simpa using h)
  · exact absurd (hmem '\x7b' (by decide)) (by decide)
  · exact absurd (hmem '(' (by decide)) (by decide)
  · exact absurd (hmem '(' (by decide)) (by decide)

/-! ## What each spelling is -/

/-- A header `head ++ tail` begins with `n` and has `parens` behind it, or `n` follows `keyword`; in
both cases what comes behind `n` is `Glued`. -/
theorem Declares.exists_append_eq (hd : Declares n head) (ht : BraceOrEnd tail) :
    ∃ text, Glued text ∧
      ((∃ w, AllBlank w ∧ containsText Line.parens text = true ∧ head ++ tail = w ++ (n ++ text)) ∨
        ∃ w w₀, AllBlank w ∧ AllBlank w₀ ∧ w₀ ≠ [] ∧
          head ++ tail = w ++ Line.keyword ++ w₀ ++ (n ++ text)) := by
  cases hd with
  | @parens w w₁ w₂ hw hw₁ hw₂ =>
    refine ⟨w₁ ++ (Line.parens ++ (w₂ ++ tail)), (ht.glued_parens hw₂).blank_append hw₁,
      .inl ⟨w, hw, ?_, by simp⟩⟩
    exact containsText_iff.2 ⟨w₁, w₂ ++ tail, by simp⟩
  | @keyword w w₀ w₁ hw hw₀ hne hw₁ =>
    exact ⟨w₁ ++ tail, ht.glued.blank_append hw₁, .inr ⟨w, w₀, hw, hw₀, hne, by simp⟩⟩
  | @keywordParens w w₀ w₁ w₂ hw hw₀ hne hw₁ hw₂ =>
    exact ⟨w₁ ++ (Line.parens ++ (w₂ ++ tail)), (ht.glued_parens hw₂).blank_append hw₁,
      .inr ⟨w, w₀, hw, hw₀, hne, by simp⟩⟩

/-- `afterKeyword?` finds nothing in a text whose `firstWord` is not `keyword`. -/
theorem afterKeyword?_eq_none (h : firstWord text ≠ keyword) : afterKeyword? text = none := by
  rw [Option.eq_none_iff_forall_ne_some]
  intro body hbody
  obtain ⟨-, w, w₁, hw, hw₁, hne, rfl⟩ := afterKeyword?_eq_some_iff.1 hbody
  apply h
  rw [List.append_assoc, List.append_assoc, firstWord_blank_append hw]
  exact firstWord_append (by decide) not_isBlank_of_mem_keyword (hw₁.startsBlank_append hne body)

/-- Every spelling of a header of `n` is one, and `headerName` gives `n` back. -/
theorem Declares.isHeader_and_headerName (hn : IsName n) (hd : Declares n head)
    (ht : BraceOrEnd tail) :
    isHeader (head ++ tail) = true ∧ headerName (head ++ tail) = n := by
  obtain ⟨text, ⟨glue, hglue, rest, hr, rfl⟩, hline⟩ := hd.exists_append_eq ht
  have hfirst := hn.firstWord_append_glue hglue hr
  rcases hline with ⟨w, hw, hparens, hline⟩ | ⟨w, w₀, hw, hw₀, hne, hline⟩
  · have hword : firstWord (head ++ tail) = n ++ glue := by
      rw [hline, firstWord_blank_append hw, hfirst]
    have hk : afterKeyword? (head ++ tail) = none :=
      afterKeyword?_eq_none (hword ▸ hn.append_glue_ne_keyword hglue)
    have hc : containsText Line.parens (head ++ tail) = true := by
      obtain ⟨u, r, h⟩ := containsText_iff.1 hparens
      exact containsText_iff.2 ⟨w ++ n ++ u, r, by simp [hline, h]⟩
    refine ⟨by simp [isHeader, hc], ?_⟩
    simp only [headerName, nameWord, hk, hc, ↓reduceIte, hword, hn.strip_glue hglue]
  · have hk : afterKeyword? (head ++ tail) = some (n ++ (glue ++ rest)) :=
      afterKeyword?_eq_some_iff.2
        ⟨hn.nameOnly.not_startsBlank hn.ne_nil _, w, w₀, hw, hw₀, hne, hline⟩
    refine ⟨by simp [isHeader, hk], ?_⟩
    simp only [headerName, nameWord, hk, hfirst, hn.strip_glue hglue]

theorem Declares.not_isComment (hn : IsName n) (hd : Declares n head) (ht : BraceOrEnd tail) :
    isComment (head ++ tail) = false := by
  obtain ⟨text, -, hline⟩ := hd.exists_append_eq ht
  rcases hline with ⟨w, hw, -, hline⟩ | ⟨w, w₀, hw, -, -, hline⟩
  · obtain ⟨c, rest, rfl⟩ := List.exists_cons_of_ne_nil hn.ne_nil
    have hc : isBlank c = false := (hn.nameOnly c List.mem_cons_self).1
    have htrim : trimStart (head ++ tail) = c :: (rest ++ text) :=
      trimStart_eq_cons_iff.2 ⟨hc, w, hw, hline⟩
    simpa [isComment, htrim] using hn.not_comment
  · rw [hline, List.append_assoc, List.append_assoc, isComment, trimStart_blank_append_keyword hw]
    rfl

theorem Declares.opensBody_append_brace (hn : IsName n) (hd : Declares n head) {r : Text}
    (hr : startsBlank r = true) : opensBody (head ++ '\x7b' :: r) = true := by
  rw [opensBody_iff]
  cases hd with
  | parens hw hw₁ hw₂ => exact .parens _ hw₂ hr
  | keyword hw hw₀ hne hw₁ => exact .keyword hw hw₀ hne hn.nameOnly hn.ne_nil hw₁ hr
  | keywordParens hw hw₀ hne hw₁ hw₂ => exact .parens _ hw₂ hr

theorem Grammar.Opened.brace_mem {line : Text} (h : Grammar.Opened line) : '\x7b' ∈ line := by
  cases h <;> simp

theorem Declares.not_opensBody (hn : IsName n) (hd : Declares n head) :
    opensBody head = false := by
  -- every form of an opened body has a brace in it, and no part of the spelling has one
  have hname : '\x7b' ∉ n := fun h => (hn.nameOnly _ h).2.2.2 rfl
  have hkeyword : '\x7b' ∉ Line.keyword := by decide
  have hparens : '\x7b' ∉ Line.parens := by decide
  have hb : isBlank '\x7b' = false := by decide
  have hhead : '\x7b' ∉ head := by
    cases hd with
    | parens hw hw₁ hw₂ =>
      simp [hname, hparens, hw.not_mem hb, hw₁.not_mem hb, hw₂.not_mem hb]
    | keyword hw hw₀ hne hw₁ =>
      simp [hname, hkeyword, hw.not_mem hb, hw₀.not_mem hb, hw₁.not_mem hb]
    | keywordParens hw hw₀ hne hw₁ hw₂ =>
      simp [hname, hkeyword, hparens, hw.not_mem hb, hw₀.not_mem hb, hw₁.not_mem hb,
        hw₂.not_mem hb]
  rw [Bool.eq_false_iff, Ne, opensBody_iff]
  exact fun h => hhead h.brace_mem

/-- `classify` tells whether the brace is on the line, as `tail`, or still to come. -/
theorem Declares.classify_eq (hn : IsName n) (hd : Declares n head) (ht : BraceOrEnd tail) :
    classify (head ++ tail) = if tail = [] then .bareHeader else .inlineHeader := by
  have hc := hd.not_isComment hn ht
  have hh := (hd.isHeader_and_headerName hn ht).1
  rcases ht with rfl | ⟨r, hr, rfl⟩
  · rw [List.append_nil] at hc hh ⊢
    simp [classify, hc, hh, hd.not_opensBody hn]
  · simp [classify, hc, hh, hd.opensBody_append_brace hn hr]

end Line

namespace Scanner

variable {n head : Text} {s : Scanner}

theorem record?_all_of_isName {block header : Text} (hn : Line.IsName n)
    (h : Line.headerName header = n) : record? .all block header = some ⟨n, block⟩ := by
  rw [record?_all, h]
  simp [hn.ne_nil]

/-- From a scanner without a pending header, `push` gives the function `n` with the block above it,
in any spelling of the header: at once if the brace is on the line, else at the brace on the next
line. Either way the scanner is back at `start`. -/
theorem push_declares (hn : Line.IsName n) (hd : Line.Declares n head) (hs : s.pending = none) :
    (∀ r, startsBlank r = true →
      push .all s (head ++ '\x7b' :: r) = (start, some ⟨n, s.block⟩)) ∧
      (push .all s head).2 = none ∧
      ∀ brace, trim brace = ['\x7b'] →
        push .all (push .all s head).1 brace = (start, some ⟨n, s.block⟩) := by
  have hend : Line.BraceOrEnd [] := .inl rfl
  have hbare : Line.classify head = .bareHeader := by simpa using hd.classify_eq hn hend
  have hname : Line.headerName head = n := by
    simpa using (hd.isHeader_and_headerName hn hend).2
  refine ⟨fun r hr => ?_, ?_, fun brace hb => ?_⟩
  · have hopen : Line.BraceOrEnd ('\x7b' :: r) := .inr ⟨r, hr, rfl⟩
    rw [push_inlineHeader hs (hd.classify_eq hn hopen),
      record?_all_of_isName hn (hd.isHeader_and_headerName hn hopen).2]
  · rw [push_bareHeader hs hbare]
  · rw [push_bareHeader hs hbare, push_awaiting rfl,
      if_pos (Line.classify_eq_openBrace_iff.2 hb), record?_all_of_isName hn hname]

/-- A name that merely begins like `keyword`. -/
def longName : Text := "functional"

/-- The header of `longName` behind a tab, with a no-break space in front of the parentheses. -/
def longHead : Text := ['\t'] ++ longName ++ ['\u00A0'] ++ Line.parens ++ []

theorem push_longHead :
    Line.IsName longName ∧ Line.Declares longName longHead ∧
      push .all ⟨"Says hi.".toList, none⟩ (longHead ++ '\x7b' :: (" g() \x7b" : String)) =
        (start, some ⟨longName, "Says hi.".toList⟩) ∧
      push .all (push .all ⟨"Says hi.".toList, none⟩ longHead).1 ['\u2028', '\x7b', ' '] =
        (start, some ⟨longName, "Says hi.".toList⟩) := by
  have hn : Line.IsName longName := ⟨by decide, by decide, by decide, by decide⟩
  have hd : Line.Declares longName longHead := .parens (by decide) (by decide) (by decide)
  obtain ⟨hopen, -, hnext⟩ :=
    push_declares hn hd (show (⟨"Says hi.".toList, none⟩ : Scanner).pending = none from rfl)
  exact ⟨hn, hd, hopen _ (by decide), hnext _ (by decide)⟩

end Scanner

end ShellDoc
