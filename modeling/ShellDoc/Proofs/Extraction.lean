import ShellDoc.Extract
import ShellDoc.Proofs.LineSplitting
import ShellDoc.Proofs.ScannerRun

/-!
# Laws of extraction

* `Extract.file_outcome_eq_text`: a script file gives what its text gives.
* `Extract.text_append_blank_line`: texts with a blank line between them are extracted one by one.

Both rest on an empty line being harmless wherever it comes: at the end of the input it completes
nothing (`Scanner.records_concat_nil`), and anywhere else it resets the scanner
(`Scanner.after_concat_nil`).
-/

namespace ShellDoc

namespace Extract

@[simp] theorem chunks_write (records : List Record) :
    (write records).chunks = records.map Record.render := rfl

@[simp] theorem count_write (records : List Record) : (write records).count = records.length := rfl

/-- `text` writes one chunk for each record. -/
theorem count_text (c : Criterion) (source : Text) :
    (text c source).count = (text c source).chunks.length := by
  simp [text]

/-! ## Files -/

/-- `scan` finds the same records in the lines of `read` as in the pieces of `split`. -/
theorem scan_read_eq_scan_split (c : Criterion) (source : Text) :
    scan c (Lines.read source) = scan c (Lines.split source) := by
  rw [Lines.split_eq_read_append]
  unfold scan
  cases Lines.endsClosed source with
  | true => exact (Scanner.records_concat_nil _).symm
  | false => simp

variable {h : Host} {path : Text} {bytes : List UInt8} {executable : Bool}

theorem sourceLines_eq_ok_iff {lines : List Text} :
    sourceLines h path = .ok lines ↔ source h path = ⟨lines, none⟩ := by
  unfold sourceLines
  obtain ⟨lines', error⟩ := source h path
  cases error <;> simp [Source.all, Source.ending, Except.map]

theorem sourceLines_eq_error_iff {e : SourceError} :
    sourceLines h path = .error e ↔ (source h path).error = some e := by
  unfold sourceLines Source.all Source.ending
  cases (source h path).error <;> simp [Except.map]

theorem source_of_file (hf : h.stat path = .ok (.file bytes executable)) :
    source h path = ⟨Lines.read (Utf8.decode bytes), none⟩ := by
  simp only [source, Host.reading, hf]

theorem sourceLines_of_file (hf : h.stat path = .ok (.file bytes executable)) :
    sourceLines h path = .ok (Lines.read (Utf8.decode bytes)) :=
  sourceLines_eq_ok_iff.2 (source_of_file hf)

theorem outcome_file (h : Host) (verbose : Bool) (path : Text) (c : Criterion) :
    (file h verbose path c).outcome =
      (sourceLines h path).map fun lines => write (scan c lines) := by
  unfold file sourceLines Source.all
  simp only [Journaled.outcome_bind, Journaled.outcome_debug, Journaled.emit, Journaled.ofExcept]
  cases (source h path).ending with
  | error e => rfl
  | ok _ => rfl

/-- `file` writes the records of the lines that come, also when an error comes behind them. -/
theorem written_file (h : Host) (verbose : Bool) (path : Text) (c : Criterion) :
    (file h verbose path c).written = (scan c (source h path).lines).map Record.render := by
  unfold file
  rw [Journaled.written_bind_ok (Journaled.outcome_debug ..), Journaled.written_debug,
    List.nil_append, Journaled.written_bind_of_silent fun _ => ?_]
  · rfl
  · rw [Journaled.written_bind_of_silent fun _ => ?_]
    · rfl
    · rw [Journaled.written_bind_of_silent fun _ => rfl, Journaled.written_debug]

/-- What `file` counts and keeps is what it writes, if it comes to the end. -/
theorem written_file_of_ok {verbose : Bool} {c : Criterion} {output : Output}
    (ho : (file h verbose path c).outcome = .ok output) :
    (file h verbose path c).written = output.chunks := by
  rw [outcome_file] at ho
  cases hl : sourceLines h path with
  | error e =>
    rw [hl] at ho
    cases ho
  | ok lines =>
    rw [hl] at ho
    cases ho
    rw [written_file, sourceLines_eq_ok_iff.1 hl, chunks_write]

/-- `file` writes and counts for a regular file that can be read what `text` does for the text that
its bytes stand for, and the count is the number of chunks. The two take different lines:
`Lines.read` lacks the empty piece of `Lines.split` behind a terminator at the end. -/
theorem file_outcome_eq_text (hf : h.stat path = .ok (.file bytes executable)) (verbose : Bool)
    (c : Criterion) :
    (file h verbose path c).outcome = .ok (text c (Utf8.decode bytes)) ∧
      (file h verbose path c).written = (text c (Utf8.decode bytes)).chunks ∧
      (text c (Utf8.decode bytes)).count = (text c (Utf8.decode bytes)).chunks.length ∧
      sourceLines h path = .ok (Lines.read (Utf8.decode bytes)) ∧
      Lines.split (Utf8.decode bytes) = Lines.read (Utf8.decode bytes) ++
        if Lines.endsClosed (Utf8.decode bytes) then [[]] else [] := by
  refine ⟨?_, ?_, count_text _ _, sourceLines_of_file hf, Lines.split_eq_read_append _⟩
  · rw [outcome_file, sourceLines_of_file hf, Except.map, scan_read_eq_scan_split]
    rfl
  · rw [written_file, source_of_file hf, scan_read_eq_scan_split]
    rfl

/-- A comment with a byte that is no character, ended by a carriage return, and a header with its
brace on the next line, which is the last. -/
def sampleBytes : List UInt8 :=
  [0x23, 0x20, 0xFF, 0x0D, 0x66, 0x28, 0x29, 0x0A, 0x7B, 0x0D, 0x0A]

/-- A host whose root holds `sampleBytes` under the name `f`. -/
def sampleHost : Host := ⟨⟨[([['f']], .file sampleBytes false)]⟩, ⟨[]⟩, []⟩

theorem file_outcome_sample :
    sampleHost.stat ['f'] = .ok (.file sampleBytes false) ∧
      (file sampleHost false ['f'] .all).outcome =
        .ok ⟨[("  f\n    \uFFFD\n\n" : String)], 1⟩ := by
  have hf : sampleHost.stat ['f'] = .ok (.file sampleBytes false) := rfl
  exact ⟨hf, (file_outcome_eq_text hf false .all).1.trans (congrArg Except.ok (by decide))⟩

/-! ## Blank lines -/

/-- The pieces in front of a blank line give the records of `a` and leave the scanner at `start`. -/
theorem exists_front_of_blank_line (c : Criterion) (a b : Text) :
    ∃ front, Lines.split (a ++ ['\n', '\n'] ++ b) = front ++ Lines.split b ∧
      Scanner.after c .start front = .start ∧
      Scanner.records c .start front = scan c (Lines.split a) := by
  obtain ⟨front, hsplit, hfront⟩ := Lines.exists_split_append_feeds a b
  refine ⟨front ++ [[]], hsplit, Scanner.after_concat_nil front, ?_⟩
  rw [Scanner.records_concat_nil]
  rcases hfront with h | h
  · rw [h]; rfl
  · rw [h]
    exact (Scanner.records_concat_nil front).symm

theorem scan_split_append_blank_line (c : Criterion) (a b : Text) :
    scan c (Lines.split (a ++ ['\n', '\n'] ++ b)) =
      scan c (Lines.split a) ++ scan c (Lines.split b) := by
  obtain ⟨front, hsplit, hafter, hrecords⟩ := exists_front_of_blank_line c a b
  rw [hsplit, scan, Scanner.records_append, hafter, hrecords]
  rfl

/-- `text` takes `a` and `b` one by one if a blank line is between them: the chunks follow each
other, the counts add up, and the scanner is at `start` where the lines of `b` begin. -/
theorem text_append_blank_line (c : Criterion) (a b : Text) :
    (text c (a ++ ['\n', '\n'] ++ b)).chunks = (text c a).chunks ++ (text c b).chunks ∧
      (text c (a ++ ['\n', '\n'] ++ b)).count = (text c a).count + (text c b).count ∧
      ∃ front, Lines.split (a ++ ['\n', '\n'] ++ b) = front ++ Lines.split b ∧
        Scanner.after c .start front = .start := by
  obtain ⟨front, hsplit, hafter, -⟩ := exists_front_of_blank_line c a b
  refine ⟨?_, ?_, front, hsplit, hafter⟩
  · simp only [text, chunks_write, scan_split_append_blank_line, List.map_append]
  · simp only [text, count_write, scan_split_append_blank_line, List.length_append]

end Extract

end ShellDoc
