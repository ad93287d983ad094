import ShellDoc.Proofs.LineBlank

/-!
# The grammar of lines

Which texts are comments, headers, headers with their brace, and lone braces, said by how they are
put together and not by how they are searched.

* `Line.Grammar.Comment`, `Header`, `Opened`, `Brace`: the forms.
* `Line.HasKind`: the kind of a line, by the first of the forms that it has.
* `Line.isComment_iff`, `isHeader_iff`, `opensBody_iff`, `isOpenBrace_iff`: each test finds its form
  wherever there is one, whichever parentheses or blanks it has to try.
* `Line.classify_eq_iff_hasKind`: hence the whole classification.
-/

namespace ShellDoc.Line

open Text

variable {line text body w : Text}

/-! ## The forms -/

/-- `n` is a name as far as `opensAfterKeyword` looks for one: it has no blank, parenthesis or
opening brace. -/
def NameOnly (n : Text) : Prop :=
  ∀ c ∈ n, isBlank c = false ∧ c ≠ '(' ∧ c ≠ ')' ∧ c ≠ '\x7b'

instance : DecidablePred NameOnly := fun n =>
  List.decidableBAll (fun c => isBlank c = false ∧ c ≠ '(' ∧ c ≠ ')' ∧ c ≠ '\x7b') n

namespace Grammar

/-- `^\s*#`: blanks, `#`, and anything. -/
def Comment (line : Text) : Prop := ∃ w r, AllBlank w ∧ line = w ++ '#' :: r

/-- A header has `()` somewhere, or `function`, blanks and something behind them. -/
inductive Header : Text → Prop where
  | parens (u r : Text) : Header (u ++ parens ++ r)
  | keyword {w w₁ : Text} {x : Char} (hw : AllBlank w) (hw₁ : AllBlank w₁) (hne : w₁ ≠ [])
      (hx : isBlank x = false) (r : Text) : Header (w ++ keyword ++ w₁ ++ x :: r)

/-- A header is `Opened` if its brace comes last, or if it comes behind `()` or behind `function`
and a name, with a blank or nothing after it. -/
inductive Opened : Text → Prop where
  | last (u : Text) {w : Text} (hw : AllBlank w) : Opened (u ++ '\x7b' :: w)
  | parens (u : Text) {w r : Text} (hw : AllBlank w) (hr : startsBlank r = true) :
      Opened (u ++ parens ++ w ++ '\x7b' :: r)
  | keyword {w w₁ n w' r : Text} (hw : AllBlank w) (hw₁ : AllBlank w₁) (hne : w₁ ≠ [])
      (hn : NameOnly n) (hn₀ : n ≠ []) (hw' : AllBlank w') (hr : startsBlank r = true) :
      Opened (w ++ keyword ++ w₁ ++ n ++ w' ++ '\x7b' :: r)

/-- A brace between blanks. -/
def Brace (line : Text) : Prop := ∃ w w', AllBlank w ∧ AllBlank w' ∧ line = w ++ '\x7b' :: w'

end Grammar

/-- `HasKind line kind`: the forms of `line` give it this kind. A comment is nothing else, and a
header is no lone brace. -/
inductive HasKind (line : Text) : LineKind → Prop where
  | comment (hc : Grammar.Comment line) : HasKind line .comment
  | inlineHeader (hc : ¬Grammar.Comment line) (hh : Grammar.Header line)
      (ho : Grammar.Opened line) : HasKind line .inlineHeader
  | bareHeader (hc : ¬Grammar.Comment line) (hh : Grammar.Header line)
      (ho : ¬Grammar.Opened line) : HasKind line .bareHeader
  | openBrace (hc : ¬Grammar.Comment line) (hh : ¬Grammar.Header line)
      (hb : Grammar.Brace line) : HasKind line .openBrace
  | other (hc : ¬Grammar.Comment line) (hh : ¬Grammar.Header line)
      (hb : ¬Grammar.Brace line) : HasKind line .other

/-! ## Comments and headers -/

theorem isComment_iff : isComment line = true ↔ Grammar.Comment line := by
  rw [isComment, beq_iff_eq, List.head?_eq_some_iff]
  constructor
  · rintro ⟨r, h⟩
    obtain ⟨-, w, hw, hline⟩ := trimStart_eq_cons_iff.1 h
    exact ⟨w, r, hw, hline⟩
  · rintro ⟨w, r, hw, hline⟩
    exact ⟨r, trimStart_eq_cons_iff.2 ⟨by decide, w, hw, hline⟩⟩

theorem trimStart_blank_append_keyword (hw : AllBlank w) (text : Text) :
    trimStart (w ++ (keyword ++ text)) = keyword ++ text :=
  (trimStart_blank_append hw).trans (trimStart_of_not_startsBlank rfl)

/-- `afterKeyword? line` is `body` exactly if `line` is blanks, `function`, blanks and `body`. -/
theorem afterKeyword?_eq_some_iff :
    afterKeyword? line = some body ↔ startsBlank body = false ∧
      ∃ w w₁, AllBlank w ∧ AllBlank w₁ ∧ w₁ ≠ [] ∧ line = w ++ keyword ++ w₁ ++ body := by
  constructor
  · intro h
    unfold afterKeyword? at h
    split at h
    · next c rest hk =>
      obtain ⟨w, hw, hline⟩ := exists_eq_append_trimStart line
      rw [stripPrefix?_eq_some_iff.1 hk] at hline
      obtain ⟨w₁, hw₁, hrest⟩ := exists_eq_append_trimStart rest
      cases hb : trimStart rest with
      | nil => simp [hb] at h
      | cons d tail =>
        obtain ⟨hc, hbody⟩ : isBlank c = true ∧ d :: tail = body := by simpa [hb] using h
        refine ⟨?_, w, c :: w₁, hw, List.forall_mem_cons.2 ⟨hc, hw₁⟩, List.cons_ne_nil _ _, ?_⟩
        · rw [← hbody]
          exact (trimStart_eq_cons_iff.1 hb).1
        · rw [hline, ← hbody, ← hb, List.append_assoc, List.append_assoc, List.cons_append, ← hrest]
    · cases h
  · rintro ⟨hb, w, w₁, hw, hw₁, hne, rfl⟩
    obtain ⟨c, w₁, rfl⟩ := List.exists_cons_of_ne_nil hne
    obtain ⟨hc, hw₁⟩ := List.forall_mem_cons.1 hw₁
    have hbody : trimStart (w₁ ++ body) = body :=
      (trimStart_blank_append hw₁).trans (trimStart_of_not_startsBlank hb)
    have hstrip : stripPrefix? keyword (keyword ++ (c :: w₁ ++ body)) = some (c :: w₁ ++ body) :=
      stripPrefix?_eq_some_iff.2 rfl
    have hbody₀ : body.isEmpty = false := by
      cases body with
      | nil => cases hb
      | cons d body => rfl
    unfold afterKeyword?
    rw [List.append_assoc, List.append_assoc, trimStart_blank_append_keyword hw, hstrip]
    simp [hc, hbody, hbody₀]

theorem isHeader_iff : isHeader line = true ↔ Grammar.Header line := by
  rw [isHeader, Bool.or_eq_true, Option.isSome_iff_exists]
  constructor
  · rintro (⟨body, h⟩ | h)
    · obtain ⟨hb, w, w₁, hw, hw₁, hne, rfl⟩ := afterKeyword?_eq_some_iff.1 h
      cases body with
      | nil => cases hb
      | cons x r => exact .keyword hw hw₁ hne hb r
    · obtain ⟨u, r, rfl⟩ := containsText_iff.1 h
      exact .parens u r
  · rintro (⟨u, r⟩ | @⟨w, w₁, x, hw, hw₁, hne, hx, r⟩)
    · exact .inr (containsText_iff.2 ⟨u, r, rfl⟩)
    · exact .inl ⟨x :: r, afterKeyword?_eq_some_iff.2 ⟨hx, w, w₁, hw, hw₁, hne, rfl⟩⟩

/-! ## Braces -/

theorem opensBrace_iff :
    opensBrace text = true ↔
      ∃ w r, AllBlank w ∧ startsBlank r = true ∧ text = w ++ '\x7b' :: r := by
  unfold opensBrace
  constructor
  · intro h
    split at h
    · next r hr =>
      obtain ⟨-, w, hw, htext⟩ := trimStart_eq_cons_iff.1 hr
      exact ⟨w, r, hw, h, htext⟩
    · cases h
  · rintro ⟨w, r, hw, hr, rfl⟩
    rw [trimStart_eq_cons_iff.2 ⟨by decide, w, hw, rfl⟩]
    exact hr

/-- `anySuffix opensAfterParens` finds a brace behind any `()` of `line`, not only the first one. -/
theorem anySuffix_opensAfterParens_iff :
    anySuffix opensAfterParens line = true ↔
      ∃ u w r, AllBlank w ∧ startsBlank r = true ∧ line = u ++ parens ++ w ++ '\x7b' :: r := by
  rw [anySuffix_iff]
  constructor
  · rintro ⟨u, rest, rfl, h⟩
    unfold opensAfterParens at h
    split at h
    · next tail htail =>
      obtain ⟨w, r, hw, hr, rfl⟩ := opensBrace_iff.1 h
      exact ⟨u, w, r, hw, hr, by simp [stripPrefix?_eq_some_iff.1 htail]⟩
    · cases h
  · rintro ⟨u, w, r, hw, hr, rfl⟩
    refine ⟨u, parens ++ (w ++ '\x7b' :: r), by simp, ?_⟩
    rw [opensAfterParens, stripPrefix?_eq_some_iff.2 rfl]
    exact opensBrace_iff.2 ⟨w, r, hw, hr, rfl⟩

theorem isNameChar_iff {c : Char} :
    isNameChar c = true ↔ isBlank c = false ∧ c ≠ '(' ∧ c ≠ ')' ∧ c ≠ '\x7b' := by
  simp [isNameChar, and_assoc]

theorem NameOnly.not_startsBlank {n : Text} (hn : NameOnly n) (hn₀ : n ≠ []) (text : Text) :
    startsBlank (n ++ text) = false := by
  obtain ⟨c, n, rfl⟩ := List.exists_cons_of_ne_nil hn₀
  exact (hn c List.mem_cons_self).1

/-- `isNameChar` ends the name `n` at the blanks or the brace behind it. -/
theorem span_nameOnly {n w' : Text} (hn : NameOnly n) (hw' : AllBlank w') (r : Text) :
    (n ++ (w' ++ '\x7b' :: r)).takeWhile isNameChar = n ∧
      (n ++ (w' ++ '\x7b' :: r)).dropWhile isNameChar = w' ++ '\x7b' :: r := by
  have hstop : ∃ c tail, w' ++ '\x7b' :: r = c :: tail ∧ isNameChar c = false := by
    cases w' with
    | nil => exact ⟨'\x7b', r, rfl, by decide⟩
    | cons b w' =>
      exact ⟨b, _, rfl, not_isNameChar_of_isBlank b (hw' b List.mem_cons_self)⟩
  obtain ⟨c, tail, htail, hc⟩ := hstop
  have hall : ∀ c ∈ n, isNameChar c = true := fun c hc => isNameChar_iff.2 (hn c hc)
  rw [htail, List.takeWhile_append_of_pos hall, List.dropWhile_append_of_pos hall]
  simp [hc]

theorem opensAfterKeyword_iff :
    opensAfterKeyword line = true ↔
      ∃ w w₁ n w' r, AllBlank w ∧ AllBlank w₁ ∧ w₁ ≠ [] ∧ NameOnly n ∧ n ≠ [] ∧ AllBlank w' ∧
        startsBlank r = true ∧ line = w ++ keyword ++ w₁ ++ n ++ w' ++ '\x7b' :: r := by
  unfold opensAfterKeyword
  constructor
  · intro h
    split at h
    · next body hbody =>
      obtain ⟨-, w, w₁, hw, hw₁, hne, rfl⟩ := afterKeyword?_eq_some_iff.1 hbody
      obtain ⟨hn₀, hopen⟩ : body.takeWhile isNameChar ≠ [] ∧
          opensBrace (body.dropWhile isNameChar) = true := by simpa using h
      obtain ⟨w', r, hw', hr, hdrop⟩ := opensBrace_iff.1 hopen
      have hn : NameOnly (body.takeWhile isNameChar) := fun c hc =>
        isNameChar_iff.1 (List.mem_takeWhile_imp hc)
      refine ⟨w, w₁, _, w', r, hw, hw₁, hne, hn, hn₀, hw', hr, ?_⟩
      have hsplit := (List.takeWhile_append_dropWhile (p := isNameChar) (l := body)).symm
      rw [hdrop] at hsplit
      simpa using hsplit
    · cases h
  · rintro ⟨w, w₁, n, w', r, hw, hw₁, hne, hn, hn₀, hw', hr, rfl⟩
    have hbody : afterKeyword? (w ++ keyword ++ w₁ ++ n ++ w' ++ '\x7b' :: r) =
        some (n ++ (w' ++ '\x7b' :: r)) :=
      afterKeyword?_eq_some_iff.2
        ⟨hn.not_startsBlank hn₀ _, w, w₁, hw, hw₁, hne, by simp⟩
    obtain ⟨htake, hdrop⟩ := span_nameOnly hn hw' r
    simp only [hbody, htake, hdrop, opensBrace_iff.2 ⟨w', r, hw', hr, rfl⟩, Bool.and_true]
    simpa using hn₀

theorem opensBody_iff : opensBody line = true ↔ Grammar.Opened line := by
  rw [opensBody, Bool.or_eq_true, Bool.or_eq_true, beq_iff_eq,
    getLast?_trimEnd_eq_some_iff (by decide), anySuffix_opensAfterParens_iff, opensAfterKeyword_iff]
  constructor
  · rintro ((⟨u, w, hw, rfl⟩ | ⟨u, w, r, hw, hr, rfl⟩) |
      ⟨w, w₁, n, w', r, hw, hw₁, hne, hn, hn₀, hw', hr, rfl⟩)
    · exact .last u hw
    · exact .parens u hw hr
    · exact .keyword hw hw₁ hne hn hn₀ hw' hr
  · rintro (⟨u, hw⟩ | ⟨u, hw, hr⟩ | ⟨hw, hw₁, hne, hn, hn₀, hw', hr⟩)
    · exact .inl (.inl ⟨u, _, hw, rfl⟩)
    · exact .inl (.inr ⟨u, _, _, hw, hr, rfl⟩)
    · exact .inr ⟨_, _, _, _, _, hw, hw₁, hne, hn, hn₀, hw', hr, rfl⟩

theorem isOpenBrace_iff : isOpenBrace line = true ↔ Grammar.Brace line := by
  rw [isOpenBrace, beq_iff_eq]
  constructor
  · intro h
    obtain ⟨w, w', hw, hw', hline⟩ := exists_eq_append_trim line
    exact ⟨w, w', hw, hw', by rw [hline, h]; simp⟩
  · rintro ⟨w, w', hw, hw', rfl⟩
    have happ : w ++ '\x7b' :: w' = w ++ ['\x7b'] ++ w' := by simp
    rw [happ, trim_append_blank hw', trim_blank_append hw]
    decide

/-! ## Kinds -/

theorem hasKind_classify (line : Text) : HasKind line (classify line) := by
  unfold classify
  split
  · next hc => exact .comment (isComment_iff.1 hc)
  · next hc =>
    rw [isComment_iff] at hc
    split
    · next hh =>
      rw [isHeader_iff] at hh
      split
      · next ho => exact .inlineHeader hc hh (opensBody_iff.1 ho)
      · next ho => exact .bareHeader hc hh (mt opensBody_iff.2 ho)
    · next hh =>
      rw [isHeader_iff] at hh
      split
      · next hb => exact .openBrace hc hh (isOpenBrace_iff.1 hb)
      · next hb => exact .other hc hh (mt isOpenBrace_iff.2 hb)

theorem HasKind.classify_eq {kind : LineKind} (h : HasKind line kind) : classify line = kind := by
  cases h with
  | comment hc => simp [classify, isComment_iff.2 hc]
  | inlineHeader hc hh ho =>
    simp [classify, mt isComment_iff.1 hc, isHeader_iff.2 hh, opensBody_iff.2 ho]
  | bareHeader hc hh ho =>
    simp [classify, mt isComment_iff.1 hc, isHeader_iff.2 hh, mt opensBody_iff.1 ho]
  | openBrace hc hh hb =>
    simp [classify, mt isComment_iff.1 hc, mt isHeader_iff.1 hh, isOpenBrace_iff.2 hb]
  | other hc hh hb =>
    simp [classify, mt isComment_iff.1 hc, mt isHeader_iff.1 hh, mt isOpenBrace_iff.1 hb]

theorem isHeader_of_classify (h : classify line = .inlineHeader ∨ classify line = .bareHeader) :
    isHeader line = true := by
  have hform := hasKind_classify line
  rw [isHeader_iff]
  rcases h with h | h
  · rw [h] at hform
    cases hform with
    | inlineHeader _ hh _ => exact hh
  · rw [h] at hform
    cases hform with
    | bareHeader _ hh _ => exact hh

/-- `classify` accepts exactly the grammar: it gives `line` the kind of `HasKind`, and no other. -/
theorem classify_eq_iff_hasKind (line : Text) (kind : LineKind) :
    classify line = kind ↔ HasKind line kind :=
  ⟨fun h => h ▸ hasKind_classify line, HasKind.classify_eq⟩

-- the first `()` has no brace behind it; the second one has, with more of the body after it
example : classify ("f() : g()\u2003\x7b :; \x7d" : String) = .inlineHeader := by decide

end ShellDoc.Line
