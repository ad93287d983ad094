import Mathlib.Data.List.Forall2
import ShellDoc.Proofs.ScannerRun

/-!
# What comments say

What a comment says never decides which functions are found, whatever it looks like.

* `Line.SameButComment`: two lines are the same or both comments.
* `Scanner.push_pending_eq`: one step of two scanners side by side. They may have different blocks,
  but the same header waits in both, and they complete records of the same name.
* `Scanner.after_pending_eq`, `Scanner.map_name_records_eq`: the same for a list of lines.
-/

namespace ShellDoc

/-- `line` and `line'` are the same, or both are comments. -/
def Line.SameButComment (line line' : Text) : Prop :=
  line' = line ∨ Line.classify line = .comment ∧ Line.classify line' = .comment

theorem Line.SameButComment.classify_eq {line line' : Text} (h : Line.SameButComment line line') :
    Line.classify line' = Line.classify line := by
  rcases h with rfl | ⟨hk, hk'⟩
  · rfl
  · rw [hk, hk']

theorem Line.SameButComment.eq_of_ne_comment {line line' : Text}
    (h : Line.SameButComment line line') (hk : Line.classify line ≠ .comment) : line' = line :=
  h.resolve_right fun hc => hk hc.1

namespace Scanner

variable {c : Criterion} {s s' : Scanner} {line line' : Text} {lines lines' : List Text}

/-- The `block` of a record shows neither in its name nor in whether there is one. -/
theorem map_name_record? (block block' header : Text) :
    (record? c block' header).map Record.name = (record? c block header).map Record.name := by
  simp only [record?]
  split
  · rfl
  · simp only [Option.map_map]
    rfl

/-- If the same header waits in `s` and `s'`, the same one waits after `push`, and a record that it
completes has the same name, though perhaps another comment. -/
theorem push_pending_eq (hs : s'.pending = s.pending) (hl : Line.SameButComment line line') :
    (push c s' line').1.pending = (push c s line).1.pending ∧
      (push c s' line').2.map Record.name = (push c s line).2.map Record.name := by
  cases hp : s.pending with
  | some header =>
    rw [push_awaiting hp, push_awaiting (hs.trans hp), hl.classify_eq]
    refine ⟨rfl, ?_⟩
    split
    · exact map_name_record? s.block s'.block header
    · rfl
  | none =>
    have hp' := hs.trans hp
    cases hk : Line.classify line with
    | comment =>
      rw [push_comment hp hk, push_comment hp' (hl.classify_eq.trans hk)]
      exact ⟨rfl, rfl⟩
    | inlineHeader =>
      obtain rfl := hl.eq_of_ne_comment (by simp [hk])
      rw [push_inlineHeader hp hk, push_inlineHeader hp' hk]
      exact ⟨rfl, map_name_record? s.block s'.block line'⟩
    | bareHeader =>
      obtain rfl := hl.eq_of_ne_comment (by simp [hk])
      rw [push_bareHeader hp hk, push_bareHeader hp' hk]
      exact ⟨rfl, rfl⟩
    | openBrace =>
      obtain rfl := hl.eq_of_ne_comment (by simp [hk])
      rw [push_openBrace hp hk, push_openBrace hp' hk]
      exact ⟨rfl, rfl⟩
    | other =>
      obtain rfl := hl.eq_of_ne_comment (by simp [hk])
      rw [push_other s hk, push_other s' hk]
      exact ⟨rfl, rfl⟩

theorem after_pending_eq (h : List.Forall₂ Line.SameButComment lines lines')
    (hs : s'.pending = s.pending) :
    (after c s' lines').pending = (after c s lines).pending := by
  induction h generalizing s s' with
  | nil => exact hs
  | cons hl _ ih => exact ih (push_pending_eq hs hl).1

theorem map_name_records_eq (h : List.Forall₂ Line.SameButComment lines lines')
    (hs : s'.pending = s.pending) :
    (records c s' lines').map Record.name = (records c s lines).map Record.name := by
  induction h generalizing s s' with
  | nil => rfl
  | cons hl _ ih =>
    obtain ⟨hnext, hname⟩ := push_pending_eq (c := c) hs hl
    rw [records_cons, records_cons, List.map_append, List.map_append, ih hnext,
      ← Option.toList_map, ← Option.toList_map, hname]

end Scanner

/-- What comments say never decides which functions `scan` finds. If `lines'` are `lines` with some
comment lines replaced by other comment lines, whatever these mention, then under every criterion
there are as many records, of the same names in the same order, and after every `n` lines a header
waits for its brace in the one run exactly if one waits in the other. -/
theorem scan_names_eq_of_sameButComment (c : Criterion) {lines lines' : List Text}
    (h : List.Forall₂ Line.SameButComment lines lines') :
    (scan c lines').length = (scan c lines).length ∧
      (scan c lines').map Record.name = (scan c lines).map Record.name ∧
      ∀ n, (Scanner.after c .start (lines'.take n)).isAwaiting =
        (Scanner.after c .start (lines.take n)).isAwaiting := by
  have hnames : (scan c lines').map Record.name = (scan c lines).map Record.name :=
    Scanner.map_name_records_eq h rfl
  refine ⟨?_, hnames, fun n => ?_⟩
  · simpa using congrArg List.length hnames
  · have hpending : (Scanner.after c .start (lines'.take n)).pending =
        (Scanner.after c .start (lines.take n)).pending :=
      Scanner.after_pending_eq (List.forall₂_take n h) rfl
    rw [Scanner.isAwaiting, Scanner.isAwaiting, hpending]

/-- A documented function, and a header that waits in vain because a comment follows it. -/
def quietLines : List Text :=
  [("# one" : String), ("f() \x7b" : String), ("g()" : String), ("# two" : String), ['\x7b'],
    ("h() \x7b" : String)]

/-- `quietLines` with comments that read like headers and braces. -/
def loudLines : List Text :=
  [("# g() \x7b" : String), ("f() \x7b" : String), ("g()" : String), ("#\x7b" : String), ['\x7b'],
    ("h() \x7b" : String)]

theorem scan_names_loudLines :
    List.Forall₂ Line.SameButComment quietLines loudLines ∧
      (scan .all loudLines).map Record.name = [['f'], ['h']] ∧
      (Scanner.after .all .start (loudLines.take 3)).isAwaiting = true ∧
      (Scanner.after .all .start (loudLines.take 4)).isAwaiting = false := by
  have h : List.Forall₂ Line.SameButComment quietLines loudLines :=
    .cons (.inr (by decide)) (.cons (.inl rfl) (.cons (.inl rfl) (.cons (.inr (by decide))
      (.cons (.inl rfl) (.cons (.inl rfl) .nil)))))
  obtain ⟨-, hnames, hstate⟩ := scan_names_eq_of_sameButComment .all h
  refine ⟨h, ?_, ?_, ?_⟩
  · rw [hnames]
    decide
  · rw [hstate]
    decide
  · rw [hstate]
    decide

end ShellDoc
