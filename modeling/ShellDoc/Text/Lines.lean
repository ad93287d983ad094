import ShellDoc.Text.Basic

/-!
# Lines

A line ends at a line feed, at a carriage return, or at a carriage return directly followed by a
line feed, which is one terminator. No other character ends a line.

* `Lines.split`: the pieces between the terminators of a text; a terminator at the very end is
  followed by an empty last piece, and the empty text is one empty piece.
* `Lines.read`: the lines of a source that is read to its end; a terminator at the very end adds no
  line, and an empty source has none.
* `Lines.completed`: the lines of a source that breaks off; the line it breaks off in is lost.
-/

namespace ShellDoc.Lines

/-! ## Pieces of a text -/

/-- The pieces of the rest of a text, and whether that rest begins with a line feed. -/
structure Pieces where
  first : Text
  others : List Text
  feedNext : Bool

/-- All pieces of `p`, in order. -/
def Pieces.toList (p : Pieces) : List Text := p.first :: p.others

/-- `p` with one character in front. A carriage return before a line feed belongs to the terminator
that the line feed has already counted. -/
def Pieces.cons (c : Char) (p : Pieces) : Pieces :=
  if c = '\n' then ⟨[], p.toList, true⟩
  else if c = '\r' then
    if p.feedNext then { p with feedNext := false } else ⟨[], p.toList, false⟩
  else ⟨c :: p.first, p.others, false⟩

/-- `splitLines`, by `\r\n|\r|\n`: the pieces of `text` between its line terminators. -/
def split (text : Text) : List Text :=
  (text.foldr Pieces.cons ⟨[], [], false⟩).toList

/-! ## Lines of a source -/

/-- A reader in the middle of a source: the finished lines, last one first, the characters of the
line it is in, last one first, and whether the previous character was a carriage return. -/
structure Reader where
  finished : List Text
  current : Text
  afterReturn : Bool

/-- Take the next character. A carriage return ends the line at once; a line feed right after it
ends nothing more. -/
def Reader.take (r : Reader) (c : Char) : Reader :=
  if c = '\n' then
    if r.afterReturn then { r with afterReturn := false }
    else ⟨r.current.reverse :: r.finished, [], false⟩
  else if c = '\r' then ⟨r.current.reverse :: r.finished, [], true⟩
  else ⟨r.finished, c :: r.current, false⟩

/-- All lines when the source ends here: an unfinished line counts unless it is empty. -/
def Reader.finish (r : Reader) : List Text :=
  (if r.current.isEmpty then r.finished else r.current.reverse :: r.finished).reverse

/-- The lines of a source that holds `text`. -/
def read (text : Text) : List Text :=
  (text.foldl Reader.take ⟨[], [], false⟩).finish

/-- The lines of a source that breaks off behind `text`: those that are finished by then. -/
def completed (text : Text) : List Text :=
  (text.foldl Reader.take ⟨[], [], false⟩).finished.reverse

end ShellDoc.Lines
