import Mathlib.Data.List.Forall2
import ShellDoc.Proofs.LineBlank
import ShellDoc.Proofs.ScannerRun

/-!
# Indentation

Blanks in front of a line, and behind a line that is no comment, change nothing that is extracted.

* `Line.LooksLike`: the scanner sees no difference between two lines.
* `Scanner.Agrees`: no later line shows a difference between two scanners. `push_agrees` is one step
  of two scanners side by side, `records_agrees` a whole run.
* `Line.Reindents`: one line is another with blanks around it; `Line.Reindents.looksLike`.
-/

namespace ShellDoc

open Text

/-! ## Two scanners side by side -/

/-- What the scanner takes from a line is the same for `line` and `line'`: its kind, the
`headerName` in it, and the `fragment` if it is a comment. -/
structure Line.LooksLike (line line' : Text) : Prop where
  kind : Line.classify line' = Line.classify line
  name : Line.headerName line' = Line.headerName line
  fragment : Line.classify line = .comment → Comment.fragment line' = Comment.fragment line

namespace Scanner

variable {c : Criterion} {s s' : Scanner} {line line' : Text}

/-- `s` and `s'` have the same block, and both wait for the brace of the same function or neither
waits. -/
structure Agrees (s s' : Scanner) : Prop where
  block : s'.block = s.block
  pending : s'.pending.map Line.headerName = s.pending.map Line.headerName

theorem Agrees.refl (s : Scanner) : Agrees s s := ⟨rfl, rfl⟩

theorem record?_eq_of_headerName_eq {header header' : Text} (block : Text)
    (h : Line.headerName header' = Line.headerName header) :
    record? c block header' = record? c block header := by
  simp only [record?, h]

/-- `push` of lines that look alike keeps `s` and `s'` in agreement and completes the same
record. -/
theorem push_agrees (hs : Agrees s s') (hl : Line.LooksLike line line') :
    Agrees (push c s line).1 (push c s' line').1 ∧
      (push c s' line').2 = (push c s line).2 := by
  have hpending := hs.pending
  cases hp : s.pending with
  | some header =>
    rw [hp, Option.map_some, Option.map_eq_some_iff] at hpending
    obtain ⟨header', hp', hname⟩ := hpending
    rw [push_awaiting hp, push_awaiting hp', hl.kind, hs.block]
    refine ⟨.refl _, ?_⟩
    simp only [record?_eq_of_headerName_eq s.block hname]
  | none =>
    have hp' : s'.pending = none := by simpa [hp] using hpending
    cases hk : Line.classify line with
    | comment =>
      have hk' := hl.kind.trans hk
      rw [push_comment hp hk, push_comment hp' hk']
      refine ⟨⟨?_, rfl⟩, rfl⟩
      simp only [Comment.append, hs.block, hl.fragment hk]
    | inlineHeader =>
      have hk' := hl.kind.trans hk
      rw [push_inlineHeader hp hk, push_inlineHeader hp' hk', hs.block]
      exact ⟨.refl _, record?_eq_of_headerName_eq s.block hl.name⟩
    | bareHeader =>
      have hk' := hl.kind.trans hk
      rw [push_bareHeader hp hk, push_bareHeader hp' hk']
      exact ⟨⟨hs.block, by simp [hl.name]⟩, rfl⟩
    | openBrace =>
      have hk' := hl.kind.trans hk
      rw [push_openBrace hp hk, push_openBrace hp' hk']
      exact ⟨.refl _, rfl⟩
    | other =>
      have hk' := hl.kind.trans hk
      rw [push_other s hk, push_other s' hk']
      exact ⟨.refl _, rfl⟩

/-- `records` of lines that look alike are the same from scanners that agree. -/
theorem records_agrees {lines lines' : List Text} (h : List.Forall₂ Line.LooksLike lines lines')
    (hs : Agrees s s') : records c s' lines' = records c s lines := by
  induction h generalizing s s' with
  | nil => rfl
  | cons hl _ ih =>
    obtain ⟨hnext, hrecord⟩ := push_agrees hs hl
    rw [records_cons, records_cons, hrecord, ih hnext]

end Scanner

/-! ## Blanks around the lines -/

/-- `line'` is `line` with blanks in front and, unless that is a comment, blanks behind. -/
def Line.Reindents (line line' : Text) : Prop :=
  ∃ w w', AllBlank w ∧ AllBlank w' ∧ (Line.classify line = .comment → w' = []) ∧
    line' = w ++ line ++ w'

theorem Line.Reindents.looksLike {line line' : Text} (h : Line.Reindents line line') :
    Line.LooksLike line line' := by
  obtain ⟨w, w', hw, hw', hc, rfl⟩ := h
  refine ⟨Line.classify_blank_append_blank hw hw', Line.headerName_blank_append_blank hw hw', ?_⟩
  intro hk
  rw [hc hk, List.append_nil]
  exact Comment.fragment_blank_append hw (Line.classify_eq_comment_iff.1 hk)

/-- Indentation does not matter to `scan`: if `lines'` are `lines` with blanks put in front, and
behind those that are no comments, the records are the same under every criterion. -/
theorem scan_eq_of_reindents (c : Criterion) {lines lines' : List Text}
    (h : List.Forall₂ Line.Reindents lines lines') : scan c lines' = scan c lines :=
  Scanner.records_agrees (h.imp fun _ _ => Line.Reindents.looksLike) (.refl _)

/-- A comment, a header and its brace. -/
def plainLines : List Text := [("# Says hi. " : String), ("function f()" : String), ['\x7b']]

/-- `plainLines` indented with a tab, an ideographic space and a no-break space, with a byte order
mark behind the header and a carriage return behind the brace. -/
def indentedLines : List Text :=
  [("\t# Says hi. " : String), ("\u3000function f()\uFEFF" : String), ['\u00A0', '\x7b', '\r']]

theorem scan_indentedLines :
    List.Forall₂ Line.Reindents plainLines indentedLines ∧
      scan .all indentedLines = [⟨['f'], ("Says hi. " : String)⟩] := by
  have h : List.Forall₂ Line.Reindents plainLines indentedLines :=
    .cons ⟨['\t'], [], by decide, by decide, fun _ => rfl, by decide⟩
      (.cons ⟨['\u3000'], ['\uFEFF'], by decide, by decide, by decide, by decide⟩
        (.cons ⟨['\u00A0'], ['\r'], by decide, by decide, by decide, by decide⟩ .nil))
  refine ⟨h, ?_⟩
  rw [scan_eq_of_reindents .all h]
  decide

end ShellDoc
