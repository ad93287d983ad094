import Mathlib.Data.List.DropRight
import ShellDoc.Proofs.CommentBlock
import ShellDoc.Proofs.LineBlank
import ShellDoc.Proofs.ScannerRun

/-!
# The scanner by line numbers

The records of a list of lines, said without a scanner. A line is *live* unless it comes right after
a live header that has not opened its body: that line is only looked at for the brace. A live header
counts when its brace is there, and its documentation is the run of live comment lines directly
above it.

* `IsLive`, `IsConfirmed`, `runAbove`, `commentAbove`: the description.
* `Scanner.before`: the scanner in front of a line, in terms of the description; `push_before_live`
  and `push_before_dead` are its steps.
* `scan_eq_entries`: every run of the scanner gives the entries of the description, in order.
-/

namespace ShellDoc

/-! ## The description -/

/-- The kind of the line at index `i`, if there is one. -/
def kindAt (lines : List Text) (i : Nat) : Option LineKind := lines[i]?.map Line.classify

/-- The line at an index is taken for what it is: no header in front of it waits for a brace. -/
def IsLive (lines : List Text) : Nat → Prop
  | 0 => True
  | i + 1 => ¬(IsLive lines i ∧ kindAt lines i = some .bareHeader)

instance IsLive.decidable (lines : List Text) : DecidablePred (IsLive lines)
  | 0 => inferInstanceAs (Decidable True)
  | i + 1 =>
    have := IsLive.decidable lines i
    inferInstanceAs (Decidable (¬(IsLive lines i ∧ kindAt lines i = some .bareHeader)))

/-- The line at index `i` is a live header, and its brace is on it or alone on the next line. -/
def IsConfirmed (lines : List Text) (i : Nat) : Prop :=
  IsLive lines i ∧ (kindAt lines i = some .inlineHeader ∨
    kindAt lines i = some .bareHeader ∧ lines[i + 1]?.map Text.trim = some ['\x7b'])

instance (lines : List Text) : DecidablePred (IsConfirmed lines) := fun i =>
  inferInstanceAs (Decidable (IsLive lines i ∧ (kindAt lines i = some .inlineHeader ∨
    kindAt lines i = some .bareHeader ∧ lines[i + 1]?.map Text.trim = some ['\x7b'])))

/-- The function name in the line at index `i`. -/
def nameAt (lines : List Text) (i : Nat) : Text := Line.headerName (lines.getD i [])

/-- The indices of the longest run of live comment lines that ends directly above `i`. -/
def runAbove (lines : List Text) (i : Nat) : List Nat :=
  (List.range i).rtakeWhile fun j => IsLive lines j ∧ kindAt lines j = some .comment

/-- The block of the run above `i`. -/
def commentAbove (lines : List Text) (i : Nat) : Text :=
  Comment.join (Comment.kept ((runAbove lines i).map fun j => lines.getD j []))

/-! ## Laws of the description -/

variable {c : Criterion} {lines : List Text} {line : Text} {i : Nat}

theorem isLive_zero : IsLive lines 0 := trivial

theorem isLive_succ_iff :
    IsLive lines (i + 1) ↔ ¬(IsLive lines i ∧ kindAt lines i = some .bareHeader) := Iff.rfl

/-- A line is not live only behind a live `bareHeader`. -/
theorem exists_header_of_not_isLive (h : ¬IsLive lines i) :
    ∃ k, i = k + 1 ∧ IsLive lines k ∧
      ∃ header, lines[k]? = some header ∧ Line.classify header = .bareHeader := by
  cases i with
  | zero => exact absurd trivial h
  | succ k =>
    obtain ⟨hk, hb⟩ := not_not.1 h
    obtain ⟨header, hh, hc⟩ := Option.map_eq_some_iff.1 hb
    exact ⟨k, rfl, hk, header, hh, hc⟩

theorem kindAt_eq (hi : lines[i]? = some line) : kindAt lines i = some (Line.classify line) := by
  simp [kindAt, hi]

theorem getD_eq (hi : lines[i]? = some line) : lines.getD i [] = line := by
  simp [hi]

/-- `append` takes a live comment line at `i` into the block above `i + 1`. -/
theorem commentAbove_succ_of_comment (hl : IsLive lines i) (hi : lines[i]? = some line)
    (hk : Line.classify line = .comment) :
    commentAbove lines (i + 1) = Comment.append (commentAbove lines i) line := by
  have hrun : runAbove lines (i + 1) = runAbove lines i ++ [i] := by
    unfold runAbove
    rw [List.range_succ]
    exact List.rtakeWhile_concat_pos _ _ _ (by simp [hl, kindAt_eq hi, hk])
  unfold commentAbove
  rw [Comment.append_join fun _ => Comment.ne_nil_of_mem_kept, hrun, List.map_append,
    Comment.kept_append, List.map_singleton, getD_eq hi]

/-- Any other line at `i` leaves no block above `i + 1`. -/
theorem commentAbove_succ_of_not_comment
    (h : ¬(IsLive lines i ∧ kindAt lines i = some .comment)) : commentAbove lines (i + 1) = [] := by
  have hrun : runAbove lines (i + 1) = [] := by
    unfold runAbove
    rw [List.range_succ]
    exact List.rtakeWhile_concat_neg _ _ _ (by simpa using h)
  simp [commentAbove, hrun]

/-- The record of the line at index `i`, if it is a confirmed header that `c` shows. -/
def entryAt (c : Criterion) (lines : List Text) (i : Nat) : Option Record :=
  if IsConfirmed lines i then Scanner.record? c (commentAbove lines i) (lines.getD i []) else none

theorem entryAt_of_not_isConfirmed (h : ¬IsConfirmed lines i) : entryAt c lines i = none := by
  simp [entryAt, h]

/-- The entries from index `i` on. -/
def entriesFrom (c : Criterion) (lines : List Text) (i : Nat) : List Record :=
  (List.range' i (lines.length - i)).filterMap (entryAt c lines)

theorem entriesFrom_of_length_le (h : lines.length ≤ i) : entriesFrom c lines i = [] := by
  simp [entriesFrom, Nat.sub_eq_zero_of_le h]

theorem entriesFrom_eq (h : i < lines.length) :
    entriesFrom c lines i = (entryAt c lines i).toList ++ entriesFrom c lines (i + 1) := by
  have hn : lines.length - i = lines.length - (i + 1) + 1 := by omega
  unfold entriesFrom
  rw [hn, List.range'_succ, List.filterMap_cons]
  cases entryAt c lines i <;> rfl

namespace Scanner

/-! ## The scanner in front of a line -/

/-- The scanner when the next line is the one at index `i`. In front of a line that is not live it
still has the block of the header above, which waits. -/
def before (lines : List Text) (i : Nat) : Scanner :=
  if IsLive lines i then ⟨commentAbove lines i, none⟩
  else ⟨commentAbove lines (i - 1), lines[i - 1]?⟩

theorem before_of_isLive (h : IsLive lines i) : before lines i = ⟨commentAbove lines i, none⟩ := by
  simp [before, h]

theorem before_succ_of_not_isLive (h : ¬IsLive lines (i + 1)) :
    before lines (i + 1) = ⟨commentAbove lines i, lines[i]?⟩ := by
  simp [before, h]

/-- Behind a line that neither is a live comment nor begins to wait, the scanner is at `start`. -/
theorem before_succ_eq_start (hb : ¬(IsLive lines i ∧ kindAt lines i = some .bareHeader))
    (hc : ¬(IsLive lines i ∧ kindAt lines i = some .comment)) : before lines (i + 1) = start := by
  rw [before_of_isLive (isLive_succ_iff.2 hb), commentAbove_succ_of_not_comment hc]
  rfl

/-- `push` at a live line `i`: the scanner in front of `i + 1`, and a record if the line is an
`inlineHeader`. -/
theorem push_before_live (hl : IsLive lines i) (hi : lines[i]? = some line) :
    push c (before lines i) line = (before lines (i + 1),
      if Line.classify line = .inlineHeader then record? c (commentAbove lines i) line
      else none) := by
  have hkind := kindAt_eq hi
  rw [before_of_isLive hl]
  cases hk : Line.classify line with
  | comment =>
    have hn : IsLive lines (i + 1) := isLive_succ_iff.2 (by simp [hkind, hk])
    rw [push_comment rfl hk, before_of_isLive hn, commentAbove_succ_of_comment hl hi hk]
    rfl
  | inlineHeader =>
    rw [push_inlineHeader rfl hk, before_succ_eq_start (by simp [hkind, hk]) (by simp [hkind, hk])]
    rfl
  | bareHeader =>
    have hn : ¬IsLive lines (i + 1) := fun h => isLive_succ_iff.1 h ⟨hl, by rw [hkind, hk]⟩
    rw [push_bareHeader rfl hk, before_succ_of_not_isLive hn, hi]
    rfl
  | openBrace =>
    rw [push_openBrace rfl hk, before_succ_eq_start (by simp [hkind, hk]) (by simp [hkind, hk])]
    rfl
  | other =>
    rw [push_other _ hk, before_succ_eq_start (by simp [hkind, hk]) (by simp [hkind, hk])]
    rfl

/-- `push` at the line `i + 1` for which `header` at `i` waits: a record of `header` if the line is
an `openBrace`. -/
theorem push_before_dead {header : Text} (hd : ¬IsLive lines (i + 1))
    (hh : lines[i]? = some header) :
    push c (before lines (i + 1)) line = (before lines (i + 2),
      if Line.classify line = .openBrace then record? c (commentAbove lines i) header
      else none) := by
  rw [before_succ_of_not_isLive hd, hh, push_awaiting rfl,
    before_succ_eq_start (fun h => hd h.1) (fun h => hd h.1)]

/-! ## Runs -/

/-- A live line that is no `bareHeader` has an entry exactly if `push` completes a record at it. -/
theorem entryAt_of_isLive (hl : IsLive lines i) (hi : lines[i]? = some line)
    (hb : Line.classify line ≠ .bareHeader) :
    entryAt c lines i =
      if Line.classify line = .inlineHeader then record? c (commentAbove lines i) line
      else none := by
  have hiff : IsConfirmed lines i ↔ Line.classify line = .inlineHeader := by
    simp [IsConfirmed, hl, kindAt_eq hi, hb]
  simp only [entryAt, hiff, getD_eq hi]

/-- A live `bareHeader` at `i` has its entry if the line at `i + 1` is an `openBrace`. -/
theorem entryAt_of_next {header : Text} (hl : IsLive lines i) (hh : lines[i]? = some header)
    (hb : Line.classify header = .bareHeader) (hn : lines[i + 1]? = some line) :
    entryAt c lines i =
      if Line.classify line = .openBrace then record? c (commentAbove lines i) header
      else none := by
  have hiff : IsConfirmed lines i ↔ Line.classify line = .openBrace := by
    simp [IsConfirmed, hl, kindAt_eq hh, hb, hn, Line.classify_eq_openBrace_iff]
  simp only [entryAt, hiff, getD_eq hh]

/-- A `bareHeader` at the very end has no entry. -/
theorem entryAt_of_last {header : Text} (hh : lines[i]? = some header)
    (hb : Line.classify header = .bareHeader) (hn : lines[i + 1]? = none) :
    entryAt c lines i = none :=
  entryAt_of_not_isConfirmed (by simp [IsConfirmed, kindAt_eq hh, hb, hn])

/-- From `before lines i` on, `records` are the entries from `i` on; if `i` is not live, the entry
of the header above is still to come. The induction is on the lines that are left. -/
theorem records_before (c : Criterion) (lines rest : List Text) (i : Nat)
    (h : lines.drop i = rest) :
    records c (before lines i) rest =
      entriesFrom c lines (if IsLive lines i then i else i - 1) := by
  induction rest generalizing i with
  | nil =>
    have hlen : lines.length ≤ i := List.drop_eq_nil_iff.1 h
    by_cases hl : IsLive lines i
    · simp only [hl, ↓reduceIte, records_nil, entriesFrom_of_length_le hlen]
    · obtain ⟨k, rfl, -, header, hh, hb⟩ := exists_header_of_not_isLive hl
      obtain ⟨hk, -⟩ := List.getElem?_eq_some_iff.1 hh
      have hn : lines[k + 1]? = none := List.getElem?_eq_none hlen
      simp only [hl, ↓reduceIte, records_nil, Nat.add_sub_cancel, entriesFrom_eq hk,
        entryAt_of_last hh hb hn, entriesFrom_of_length_le hlen, Option.toList_none,
        List.append_nil]
  | cons line rest ih =>
    have hi : lines[i]? = some line := by
      rw [← List.head?_drop, h, List.head?_cons]
    have hrest : lines.drop (i + 1) = rest := by
      rw [← List.tail_drop, h, List.tail_cons]
    obtain ⟨hlen, -⟩ := List.getElem?_eq_some_iff.1 hi
    have hnext := ih (i + 1) hrest
    by_cases hl : IsLive lines i
    · rw [records_cons, push_before_live hl hi, hnext, if_pos hl]
      by_cases hb : Line.classify line = .bareHeader
      · -- nothing yet: the entry of this line comes with the next one
        have hn : ¬IsLive lines (i + 1) := fun hn =>
          isLive_succ_iff.1 hn ⟨hl, by rw [kindAt_eq hi, hb]⟩
        simp only [hb, hn, ↓reduceIte, reduceCtorEq, Option.toList_none, List.nil_append,
          Nat.add_sub_cancel]
      · have hn : IsLive lines (i + 1) := isLive_succ_iff.2 fun hn => hb (by
          simpa [kindAt_eq hi] using hn.2)
        rw [if_pos hn, entriesFrom_eq hlen, entryAt_of_isLive hl hi hb]
    · obtain ⟨k, rfl, hk, header, hh, hb⟩ := exists_header_of_not_isLive hl
      have hn : IsLive lines (k + 2) := isLive_succ_iff.2 fun hn => hl hn.1
      have hdead : entryAt c lines (k + 1) = none :=
        entryAt_of_not_isConfirmed fun hc => hl hc.1
      rw [records_cons, push_before_dead hl hh, hnext, if_pos hn, if_neg hl, Nat.add_sub_cancel,
        entriesFrom_eq (Nat.lt_of_succ_lt hlen), entriesFrom_eq hlen, hdead,
        entryAt_of_next hk hh hb hi]
      rfl

end Scanner

/-- `scan` gives the entries of all lines, in order. -/
theorem scan_eq_entries (c : Criterion) (lines : List Text) :
    scan c lines = (List.range lines.length).filterMap (entryAt c lines) := by
  have h := Scanner.records_before c lines lines 0 rfl
  rw [Scanner.before_of_isLive isLive_zero, if_pos isLive_zero] at h
  rw [List.range_eq_range']
  exact h

/-- Every record of `scan` comes from a header in `lines` and has the `commentAbove` it. -/
theorem exists_of_mem_scan {r : Record} (h : r ∈ scan c lines) :
    ∃ i header, header ∈ lines ∧ Scanner.record? c (commentAbove lines i) header = some r := by
  rw [scan_eq_entries, List.mem_filterMap] at h
  obtain ⟨i, hi, hr⟩ := h
  rw [List.mem_range] at hi
  unfold entryAt at hr
  split at hr
  · exact ⟨i, lines.getD i [], by simp [hi], hr⟩
  · cases hr

theorem entryAt_all (lines : List Text) (i : Nat) :
    entryAt .all lines i =
      if IsConfirmed lines i ∧ nameAt lines i ≠ [] then
        some ⟨nameAt lines i, commentAbove lines i⟩
      else none := by
  unfold entryAt Scanner.record? nameAt
  by_cases hc : IsConfirmed lines i
  · by_cases hn : Line.headerName (lines.getD i []) = []
    · simp only [hc, hn, ↓reduceIte, List.isEmpty_nil, ne_eq, not_true_eq_false, and_false]
    · simp only [hc, hn, ↓reduceIte, List.isEmpty_iff, ne_eq, not_false_eq_true, and_self]
      rfl
  · simp only [hc, ↓reduceIte, false_and]

/-- `scan .all` has exactly one record for each confirmed header with a name, in the order of the
lines, and its comment is `commentAbove`: that of the run of live comment lines directly above. -/
theorem scan_all_eq_map_confirmed (lines : List Text) :
    scan .all lines =
      ((List.range lines.length).filter fun i => IsConfirmed lines i ∧ nameAt lines i ≠ []).map
        fun i => ⟨nameAt lines i, commentAbove lines i⟩ := by
  rw [scan_eq_entries, ← List.filterMap_eq_map, List.filterMap_filter]
  refine List.filterMap_congr fun i _ => ?_
  rw [entryAt_all]
  simp only [decide_eq_true_eq]
  rfl

-- `g` is the line that `f` waits for, so it is no header, and the comment above `f` is lost with it
example :
    scan .all [("# one" : String), ("f()" : String), ("g() \x7b" : String), ("h() \x7b" : String)] =
      [⟨['h'], []⟩] := by decide

end ShellDoc
