import ShellDoc.Line
import ShellDoc.Record

/-!
# The scanner

The scanner reads a script line by line and pairs each function header with the comment block
directly above it. A header without its brace is held for exactly one line: if that line is not a
lone opening brace, the header and its block are dropped, and the line itself is not looked at
again.

* `Scanner.push`: one line.
* `Scanner.finish`: the end of the input.
* `scan`: the records of a list of lines.
-/

namespace ShellDoc

/-- `FunctionScanner` between two lines: the comment block so far, and the header that waits for its
brace. -/
structure Scanner where
  block : Text
  pending : Option Text
deriving DecidableEq, Repr

namespace Scanner

/-- Nothing read, or nothing that matters any more. -/
def start : Scanner := ⟨[], none⟩

/-- The state `awaiting-brace`: a header waits for its brace. -/
def isAwaiting (s : Scanner) : Bool := s.pending.isSome

/-- `complete`: the record of a confirmed `header` under `block`. A header without a name gives
none, nor does one that `c` leaves out. -/
def record? (c : Criterion) (block header : Text) : Option Record :=
  let name := Line.headerName header
  if name.isEmpty then none
  else (c.displayName? name).map fun shown => ⟨shown, block⟩

/-- `push`: the scanner after `line`, and the record that it completes, if any. While a header
waits, this is `confirmPending`. -/
def push (c : Criterion) (s : Scanner) (line : Text) : Scanner × Option Record :=
  match s.pending with
  | some header =>
    (start, if Line.classify line = .openBrace then record? c s.block header else none)
  | none =>
    match Line.classify line with
    | .comment => (⟨Comment.append s.block line, none⟩, none)
    | .inlineHeader => (start, record? c s.block line)
    | .bareHeader => (⟨s.block, some line⟩, none)
    | .openBrace | .other => (start, none)

/-- `finish`, at the end of the input: whatever is pending is dropped. -/
def finish (_ : Scanner) : Scanner := start

/-- The records that the lines complete when the scanner goes on from `s`. -/
def records (c : Criterion) (s : Scanner) : List Text → List Record
  | [] => []
  | line :: lines =>
    match push c s line with
    | (next, none) => records c next lines
    | (next, some r) => r :: records c next lines

end Scanner

/-- `scanLines`: the records of `lines`, in order. -/
def scan (c : Criterion) (lines : List Text) : List Record :=
  Scanner.records c .start lines

end ShellDoc
