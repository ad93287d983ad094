import ShellDoc.Proofs.ScannerRun

/-!
# Criteria

A criterion decides what is shown of what the scanner finds, and nothing else.

* `Criterion.displayName?_eq_some_iff`: the name under which a function is shown.
* `Criterion.shown?`: what a criterion makes of a record.
* `Scanner.push_eq_push_all`: one line under a criterion is the line without one, and then the
  criterion on the record. `scan_eq_filterMap` is the same for a list of lines.
-/

namespace ShellDoc

theorem Text.getD_given (t : Option Text) : (Text.given t).getD [] = t.getD [] := by
  cases t with
  | none => rfl
  | some s => cases s <;> rfl

namespace Criterion

variable {c : Criterion} {name shown : Text}

/-- `displayName?` shows the function `name` if it is the `target`, should there be one, and takes
the `namePrefix` off. -/
theorem displayName?_eq_some_iff :
    c.displayName? name = some shown ↔
      (∀ target, Text.given c.target = some target → name = target) ∧
        name = c.namePrefix.getD [] ++ shown := by
  have htarget : (Text.given c.target).all (· == name) = true ↔
      ∀ target, Text.given c.target = some target → name = target := by
    cases Text.given c.target with
    | none => simp
    | some target =>
      simp only [Option.all_some, beq_iff_eq, Option.some.injEq, forall_eq']
      exact eq_comm
  unfold displayName?
  rw [← htarget, ← Text.getD_given]
  by_cases h : (Text.given c.target).all (· == name) = true
  · rw [if_pos h, and_iff_right h]
    cases Text.given c.namePrefix with
    | none => simp
    | some start => exact Text.stripPrefix?_eq_some_iff
  · rw [if_neg h]
    simp [h]

/-- Without a `target`, `namePrefix` alone decides. -/
theorem displayName?_of_no_target (h : c.target = none) :
    c.displayName? name = some shown ↔ name = c.namePrefix.getD [] ++ shown := by
  rw [displayName?_eq_some_iff]
  refine and_iff_right fun target ht => ?_
  rw [h] at ht
  cases ht

/-- What the criterion `c` makes of a record: nothing, or the record under the name of
`displayName?`. -/
def shown? (c : Criterion) (r : Record) : Option Record :=
  (c.displayName? r.name).map fun name => ⟨name, r.comment⟩

theorem shown?_eq_some_iff {r r' : Record} :
    c.shown? r = some r' ↔
      c.displayName? r.name = some r'.name ∧ r'.comment = r.comment := by
  unfold shown?
  rw [Option.map_eq_some_iff]
  constructor
  · rintro ⟨name, h, rfl⟩
    exact ⟨h, rfl⟩
  · rintro ⟨h, hcomment⟩
    exact ⟨r'.name, h, by rw [← hcomment]⟩

end Criterion

namespace Scanner

variable {c : Criterion} {s : Scanner} {line : Text}

theorem record?_all (block header : Text) :
    record? .all block header =
      if (Line.headerName header).isEmpty then none
      else some ⟨Line.headerName header, block⟩ := rfl

theorem record?_eq_bind_shown? (c : Criterion) (block header : Text) :
    record? c block header = (record? .all block header).bind c.shown? := by
  rw [record?_all]
  simp only [record?]
  cases (Line.headerName header).isEmpty <;> rfl

theorem record?_eq_some_iff {block header : Text} {r : Record} :
    record? c block header = some r ↔
      Line.headerName header ≠ [] ∧ c.displayName? (Line.headerName header) = some r.name ∧
        r.comment = block := by
  rw [record?_eq_bind_shown?, record?_all]
  by_cases h : Line.headerName header = []
  · simp [h]
  · simp [h, Criterion.shown?_eq_some_iff]

/-- `push` under `c` differs from `push` under `.all` in the record and not in the scanner. In
particular a function that `c` leaves out takes its comment block with it. -/
theorem push_eq_push_all (c : Criterion) (s : Scanner) (line : Text) :
    push c s line = ((push .all s line).1, (push .all s line).2.bind c.shown?) := by
  cases hs : s.pending with
  | some header =>
    rw [push_awaiting hs, push_awaiting hs, record?_eq_bind_shown? c]
    by_cases hl : Line.classify line = .openBrace
    · simp only [hl, ↓reduceIte]
    · simp only [hl, ↓reduceIte, Option.bind_none]
  | none =>
    cases hl : Line.classify line with
    | comment => rw [push_comment hs hl, push_comment hs hl]; rfl
    | inlineHeader =>
      rw [push_inlineHeader hs hl, push_inlineHeader hs hl, record?_eq_bind_shown? c]
    | bareHeader => rw [push_bareHeader hs hl, push_bareHeader hs hl]; rfl
    | openBrace => rw [push_openBrace hs hl, push_openBrace hs hl]; rfl
    | other => rw [push_other s hl, push_other s hl]; rfl

/-- `records` under `c` are what `shown?` makes of the records under `.all`. -/
theorem records_eq_filterMap (c : Criterion) (s : Scanner) (lines : List Text) :
    records c s lines = (records .all s lines).filterMap c.shown? := by
  induction lines generalizing s with
  | nil => rfl
  | cons line lines ih =>
    rw [records_cons, records_cons, push_eq_push_all c, List.filterMap_append, ih]
    -- both runs go on from the same scanner, so only the record of this line is left
    cases (push .all s line).2 with
    | none => rfl
    | some r => cases h : c.shown? r <;> simp [h]

theorem perform_eq_perform_all (c : Criterion) (s : Scanner) (op : Op) :
    perform c s op = perform .all s op := by
  cases op with
  | push line => rw [perform, push_eq_push_all]; rfl
  | finish => rfl

/-- `trace` goes through the same scanners under `c` and under `.all`. -/
theorem trace_eq_trace_all (c : Criterion) (s : Scanner) (ops : List Op) :
    trace c s ops = trace .all s ops := by
  induction ops generalizing s with
  | nil => rfl
  | cons op ops ih => rw [trace, trace, perform_eq_perform_all, ih]

end Scanner

theorem scan_eq_filterMap (c : Criterion) (lines : List Text) :
    scan c lines = (scan .all lines).filterMap c.shown? :=
  Scanner.records_eq_filterMap c .start lines

/-- A criterion only filters. The records of `scan c` are those of `scan .all`, in order, each under
the name of `displayName?` and with its comment, less those that `displayName?` leaves out. And
whatever lines and ends of input come, the scanners of `trace` are the same under `c` and `c'`, with
the same block and the same header waiting. -/
theorem criterion_only_filters (c c' : Criterion) (lines : List Text) (ops : List Scanner.Op) :
    scan c lines = (scan .all lines).filterMap (fun r =>
        (c.displayName? r.name).map fun name => ⟨name, r.comment⟩) ∧
      Scanner.trace c .start ops = Scanner.trace c' .start ops := by
  refine ⟨scan_eq_filterMap c lines, ?_⟩
  rw [Scanner.trace_eq_trace_all c, Scanner.trace_eq_trace_all c']

-- `f` is not shown, and its comment does not reach `pg`
example :
    scan { namePrefix := some ['p'] }
        [("# one" : String), ("f() \x7b" : String), ("pg() \x7b" : String)] =
      [⟨['g'], []⟩] := by decide

end ShellDoc
