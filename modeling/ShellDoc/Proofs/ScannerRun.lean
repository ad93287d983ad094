import ShellDoc.Scanner

/-!
# Runs of the scanner

What one line does to a scanner, by what the line is, and what a list of lines does.

* `Scanner.after`: the scanner after some lines.
* `Scanner.records_append`: a run over two lists of lines is the run over the first and then, from
  the scanner it leaves, the run over the second.
* `Scanner.push_other`: a line that is nothing in particular resets the scanner from every state.
* `Scanner.trace`: the scanners that a sequence of lines and ends of input goes through;
  `Scanner.performAll`, `Scanner.answers`: the one it leads to, and what it gives back.
-/

namespace ShellDoc

namespace Scanner

variable {c : Criterion} {s : Scanner} {line header : Text}

/-! ## One line -/

/-- While a header waits, `line` only decides whether there is a record: the scanner is at `start`
either way. -/
theorem push_awaiting (hs : s.pending = some header) :
    push c s line =
      (start, if Line.classify line = .openBrace then record? c s.block header else none) := by
  simp only [push, hs]

theorem push_comment (hs : s.pending = none) (hl : Line.classify line = .comment) :
    push c s line = (⟨Comment.append s.block line, none⟩, none) := by
  simp only [push, hs, hl]

theorem push_inlineHeader (hs : s.pending = none) (hl : Line.classify line = .inlineHeader) :
    push c s line = (start, record? c s.block line) := by
  simp only [push, hs, hl]

theorem push_bareHeader (hs : s.pending = none) (hl : Line.classify line = .bareHeader) :
    push c s line = (⟨s.block, some line⟩, none) := by
  simp only [push, hs, hl]

theorem push_openBrace (hs : s.pending = none) (hl : Line.classify line = .openBrace) :
    push c s line = (start, none) := by
  simp only [push, hs, hl]

/-- A line of kind `other` ends a block and drops a header that waits. -/
theorem push_other (s : Scanner) (hl : Line.classify line = .other) :
    push c s line = (start, none) := by
  cases hs : s.pending with
  | none => simp only [push, hs, hl]
  | some header => simp only [push_awaiting hs, hl, reduceCtorEq, ↓reduceIte]

/-- The empty line is of kind `other`. -/
theorem push_nil (s : Scanner) : push c s [] = (start, none) := push_other s rfl

/-! ## Many lines -/

/-- The scanner after `lines`, from `s` on. -/
def after (c : Criterion) (s : Scanner) (lines : List Text) : Scanner :=
  lines.foldl (fun s line => (push c s line).1) s

@[simp] theorem after_nil : after c s [] = s := rfl

@[simp] theorem after_cons (lines : List Text) :
    after c s (line :: lines) = after c (push c s line).1 lines := rfl

@[simp] theorem after_append (a b : List Text) :
    after c s (a ++ b) = after c (after c s a) b := by
  simp [after]

@[simp] theorem records_nil : records c s [] = [] := rfl

@[simp] theorem records_cons (lines : List Text) :
    records c s (line :: lines) =
      (push c s line).2.toList ++ records c (push c s line).1 lines := by
  rw [records]
  cases h : push c s line with
  | mk next r => cases r <;> rfl

/-- `records` of `a ++ b` are those of `a`, and those of `b` from the scanner that `a` leaves. -/
theorem records_append (a b : List Text) :
    records c s (a ++ b) = records c s a ++ records c (after c s a) b := by
  induction a generalizing s with
  | nil => rfl
  | cons line a ih => simp only [List.cons_append, records_cons, after_cons, ih, List.append_assoc]

/-- An empty line at the end completes no record. -/
theorem records_concat_nil (lines : List Text) :
    records c s (lines ++ [[]]) = records c s lines := by
  simp [records_append, push_nil]

theorem after_concat_nil (lines : List Text) : after c s (lines ++ [[]]) = start := by
  simp [push_nil]

/-! ## Operations -/

/-- What can be done to a scanner: `push` a line, or `finish`. -/
inductive Op where
  | push (line : Text)
  | finish
deriving DecidableEq, Repr

/-- The scanner after an operation. -/
def perform (c : Criterion) (s : Scanner) : Op → Scanner
  | .push line => (push c s line).1
  | .finish => finish s

/-- The scanners after each of some operations, in order. -/
def trace (c : Criterion) (s : Scanner) : List Op → List Scanner
  | [] => []
  | op :: ops => perform c s op :: trace c (perform c s op) ops

/-- The scanner after all of `ops`. -/
def performAll (c : Criterion) (s : Scanner) (ops : List Op) : Scanner := ops.foldl (perform c) s

/-- The record that an operation gives back, if any. `finish` gives none. -/
def answer (c : Criterion) (s : Scanner) : Op → Option Record
  | .push line => (push c s line).2
  | .finish => none

/-- What each of some operations gives back, in order. -/
def answers (c : Criterion) (s : Scanner) : List Op → List (Option Record)
  | [] => []
  | op :: ops => answer c s op :: answers c (perform c s op) ops

@[simp] theorem performAll_nil : performAll c s [] = s := rfl

@[simp] theorem performAll_cons (op : Op) (ops : List Op) :
    performAll c s (op :: ops) = performAll c (perform c s op) ops := rfl

@[simp] theorem performAll_append (a b : List Op) :
    performAll c s (a ++ b) = performAll c (performAll c s a) b :=
  List.foldl_append

theorem answers_append (a b : List Op) :
    answers c s (a ++ b) = answers c s a ++ answers c (performAll c s a) b := by
  induction a generalizing s with
  | nil => rfl
  | cons op a ih => simp only [List.cons_append, answers, performAll_cons, ih]

theorem trace_append (a b : List Op) :
    trace c s (a ++ b) = trace c s a ++ trace c (performAll c s a) b := by
  induction a generalizing s with
  | nil => rfl
  | cons op a ih => simp only [List.cons_append, trace, performAll_cons, ih]

end Scanner

end ShellDoc
