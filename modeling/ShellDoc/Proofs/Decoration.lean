import ShellDoc.Proofs.CommentBlock
import ShellDoc.Proofs.LineGrammar

/-!
# Decoration in comments

Which texts document nothing, said by how they are written, and that a block leaves out these and
nothing else.

* `Comment.Decoration`: blanks, or a rule between blanks; `Comment.isDecorative_iff`: the test
  finds exactly these.
* `Comment.Remark`: a comment line in its parts; `Comment.Remark.said`: what it says, which is its
  fragment (`Comment.fragment_line`). The marker is no part of it and does not count for a rule.
* `Comment.SameButDecoration`: decorative comment lines put in and taken out anywhere.
* `Comment.blocks_lose_only_decoration`: what comment lines make of a block.
-/

namespace ShellDoc.Comment

open Text

variable {text w w' : Text} {c : Char} {n : Nat}

/-! ## Decoration -/

/-- A text that documents nothing: blanks, or one of `#`, `=` and `-` three times or more between
blanks. -/
inductive Decoration : Text → Prop where
  | blank {w : Text} (hw : AllBlank w) : Decoration w
  | rule {w w' : Text} {c : Char} {n : Nat} (hw : AllBlank w) (hc : c = '#' ∨ c = '=' ∨ c = '-')
      (hn : 3 ≤ n) (hw' : AllBlank w') : Decoration (w ++ List.replicate n c ++ w')

theorem isRuleChar_iff : isRuleChar c = true ↔ c = '#' ∨ c = '=' ∨ c = '-' := by
  simp [isRuleChar, or_assoc]

theorem not_isBlank_of_isRuleChar (hc : isRuleChar c = true) : isBlank c = false := by
  rcases isRuleChar_iff.1 hc with rfl | rfl | rfl <;> decide

/-- `isRule` holds of a run of one mark `c` if it is long enough. -/
theorem isRule_replicate (hc : isRuleChar c = true) (hn : 3 ≤ n) :
    isRule (List.replicate n c) = true := by
  obtain ⟨k, rfl⟩ : ∃ k, n = k + 1 := ⟨n - 1, by omega⟩
  have hk : 2 ≤ k := by omega
  unfold isRule
  rw [trim_replicate (not_isBlank_of_isRuleChar hc), List.replicate_succ]
  simp [hc, hk]

theorem isRule_blank_append_blank (hw : AllBlank w) (hw' : AllBlank w') :
    isRule (w ++ text ++ w') = isRule text := by
  unfold isRule
  rw [trim_append_blank hw', trim_blank_append hw]

theorem isRule_iff :
    isRule text = true ↔ ∃ w c n w', AllBlank w ∧ (c = '#' ∨ c = '=' ∨ c = '-') ∧ 3 ≤ n ∧
      AllBlank w' ∧ text = w ++ List.replicate n c ++ w' := by
  constructor
  · intro h
    obtain ⟨w, w', hw, hw', htext⟩ := exists_eq_append_trim text
    unfold isRule at h
    split at h
    · next c rest htrim =>
      simp only [Bool.and_eq_true, decide_eq_true_eq, List.all_eq_true, beq_iff_eq] at h
      obtain ⟨⟨hc, hlen⟩, hall⟩ := h
      -- what trimming leaves is the first mark and its repetitions
      have hrun : c :: rest = List.replicate (rest.length + 1) c := by
        rw [List.replicate_succ, ← List.eq_replicate_of_mem hall]
      refine ⟨w, c, rest.length + 1, w', hw, isRuleChar_iff.1 hc, by omega, hw', ?_⟩
      rw [← hrun, ← htrim]
      exact htext
    · cases h
  · rintro ⟨w, c, n, w', hw, hc, hn, hw', rfl⟩
    rw [isRule_blank_append_blank hw hw']
    exact isRule_replicate (isRuleChar_iff.2 hc) hn

/-- `isDecorative` decides `Decoration`. -/
theorem isDecorative_iff : isDecorative text = true ↔ Decoration text := by
  rw [isDecorative, Bool.or_eq_true, List.isEmpty_iff]
  constructor
  · rintro (h | h)
    · obtain ⟨w, w', hw, hw', htext⟩ := exists_eq_append_trim text
      rw [h, List.append_nil] at htext
      have hall : AllBlank (w ++ w') := List.forall_mem_append.2 ⟨hw, hw'⟩
      exact .blank (htext ▸ hall)
    · obtain ⟨w, c, n, w', hw, hc, hn, hw', rfl⟩ := isRule_iff.1 h
      exact .rule hw hc hn hw'
  · intro h
    cases h with
    | blank hw => exact .inl hw.trim_eq_nil
    | rule hw hc hn hw' => exact .inr (isRule_iff.2 ⟨_, _, _, _, hw, hc, hn, hw', rfl⟩)

instance : DecidablePred Decoration := fun _ => decidable_of_iff _ isDecorative_iff

/-! ## Comment lines -/

/-- A comment line in its parts: blanks, the marker, and the rest. -/
structure Remark where
  margin : Text
  rest : Text
  allBlank : AllBlank margin

namespace Remark

def line (r : Remark) : Text := r.margin ++ '#' :: r.rest

/-- What the comment line `r` says: the rest, without one space or tab in front. -/
def said (r : Remark) : Text :=
  match r.rest with
  | ' ' :: text => text
  | '\t' :: text => text
  | text => text

end Remark

/-- `classify` gives `comment` exactly for the lines of a `Remark`. -/
theorem classify_eq_comment_iff_exists {line : Text} :
    Line.classify line = .comment ↔ ∃ r : Remark, r.line = line := by
  rw [Line.classify_eq_comment_iff, Line.isComment_iff]
  constructor
  · rintro ⟨w, rest, hw, rfl⟩
    exact ⟨⟨w, rest, hw⟩, rfl⟩
  · rintro ⟨r, rfl⟩
    exact ⟨r.margin, r.rest, r.allBlank, rfl⟩

theorem fragment_line (r : Remark) : fragment r.line = r.said := by
  have htrim : trimStart r.line = '#' :: r.rest :=
    trimStart_eq_cons_iff.2 ⟨by decide, r.margin, r.allBlank, rfl⟩
  simp only [fragment, htrim, Remark.said]
  split
  · next text h => simp [h, dropSpace]
  · next text h => simp [h, dropSpace]
  · next hspace htab =>
    cases hrest : r.rest with
    | nil => rfl
    | cons c text =>
      have hc : ¬(c = ' ' ∨ c = '\t') := by
        rintro (rfl | rfl)
        · exact hspace text hrest
        · exact htab text hrest
      simp only [dropSpace, hc, ↓reduceIte]

-- the marker does not count, so a line of markers needs four of them to be a rule
example : isDecorative (fragment ("###" : String)) = false ∧
    isDecorative (fragment ("####" : String)) = true := by decide

/-! ## Blocks -/

/-- What `remarks` say, in order, without `Decoration`. -/
def documented (remarks : List Remark) : List Text :=
  (remarks.map Remark.said).filter (¬Decoration ·)

theorem kept_map_line (remarks : List Remark) :
    kept (remarks.map Remark.line) = documented remarks := by
  have hsaid : (remarks.map Remark.line).map fragment = remarks.map Remark.said := by
    rw [List.map_map]
    exact List.map_congr_left fun r _ => fragment_line r
  unfold kept documented
  rw [hsaid]
  refine List.filter_congr fun text _ => ?_
  simp [← isDecorative_iff]

/-! ## Decoration put in and taken out -/

/-- The lists hold the same comment lines in the same order, but for decorative ones that stand
anywhere in one of them only. -/
inductive SameButDecoration : List Remark → List Remark → Prop where
  | nil : SameButDecoration [] []
  | keep (r : Remark) {rs rs' : List Remark} (h : SameButDecoration rs rs') :
      SameButDecoration (r :: rs) (r :: rs')
  | insert {r : Remark} {rs rs' : List Remark} (hr : Decoration r.said)
      (h : SameButDecoration rs rs') : SameButDecoration rs (r :: rs')
  | delete {r : Remark} {rs rs' : List Remark} (hr : Decoration r.said)
      (h : SameButDecoration rs rs') : SameButDecoration (r :: rs) rs'

theorem documented_cons_of_decoration {r : Remark} (hr : Decoration r.said) (rs : List Remark) :
    documented (r :: rs) = documented rs := by
  simp [documented, hr]

theorem SameButDecoration.documented_eq {rs rs' : List Remark} (h : SameButDecoration rs rs') :
    documented rs' = documented rs := by
  induction h with
  | nil => rfl
  | keep r _ ih =>
    unfold documented at ih ⊢
    rw [List.map_cons, List.map_cons, List.filter_cons, List.filter_cons, ih]
  | insert hr _ ih => rw [documented_cons_of_decoration hr, ih]
  | delete hr _ ih => rw [documented_cons_of_decoration hr, ih]

/-- `isDecorative` is exact, and a block loses nothing but `Decoration`. Whatever `block` holds,
`append` over any list of comment lines turns it into the `join` of `block`, if it is not empty, and
of what the lines say, in order and without `Decoration`. So the block stays the same when
decorative comment lines are put in or taken out anywhere in the list. -/
theorem blocks_lose_only_decoration :
    (∀ text, isDecorative text = true ↔ Decoration text) ∧
      (∀ line, Line.classify line = .comment ↔ ∃ r : Remark, r.line = line) ∧
      (∀ (block : Text) (remarks : List Remark),
        (remarks.map Remark.line).foldl append block =
          join ([block].filter (· ≠ []) ++ (remarks.map Remark.said).filter (¬Decoration ·))) ∧
      ∀ (block : Text) (remarks remarks' : List Remark), SameButDecoration remarks remarks' →
        (remarks'.map Remark.line).foldl append block =
          (remarks.map Remark.line).foldl append block := by
  have hfold : ∀ (block : Text) (remarks : List Remark),
      (remarks.map Remark.line).foldl append block =
        join ([block].filter (· ≠ []) ++ documented remarks) := by
    intro block remarks
    rw [foldl_append, kept_map_line]
  refine ⟨fun _ => isDecorative_iff, fun _ => classify_eq_comment_iff_exists, hfold, ?_⟩
  intro block remarks remarks' h
  rw [hfold, hfold, h.documented_eq]

/-- Two comment lines. -/
def plainRemarks : List Remark :=
  [⟨[], (" one" : String), by decide⟩, ⟨['\t'], ("two" : String), by decide⟩]

/-- The same two with a rule, a blank comment and a rule of markers around them. -/
def ruledRemarks : List Remark :=
  [⟨[], (" ---- " : String), by decide⟩, ⟨[], (" one" : String), by decide⟩, ⟨[' '], [], by decide⟩,
    ⟨['\t'], ("two" : String), by decide⟩, ⟨[], ("###" : String), by decide⟩]

theorem append_ruledRemarks :
    SameButDecoration plainRemarks ruledRemarks ∧
      (ruledRemarks.map Remark.line).foldl append ['b'] = ("b\n    one\n    two" : String) := by
  have h : SameButDecoration plainRemarks ruledRemarks :=
    .insert (by decide) (.keep _ (.insert (by decide) (.keep _ (.insert (by decide) .nil))))
  obtain ⟨-, -, -, hsame⟩ := blocks_lose_only_decoration
  refine ⟨h, ?_⟩
  rw [hsame ['b'] plainRemarks ruledRemarks h]
  decide

end ShellDoc.Comment
