import ShellDoc.Failure
import ShellDoc.Journal
import ShellDoc.Scanner
import ShellDoc.Text.Lines

/-!
# Extraction

The documentation of a script, from a text or from a file.

* `Extract.text`: a text in memory.
* `Extract.source`: a script file as its lines come.
* `Extract.file`: a script file, with progress messages. A record is written as soon as a line
  completes it, so a file that fails later leaves the records of the lines before.
* `Extract.functionNames`: the full names of a script's functions.
-/

namespace ShellDoc

/-- What an extraction writes: one chunk per record, and how many records there were. -/
structure Output where
  chunks : List Text
  count : Nat
deriving DecidableEq, Repr

/-- The chunks taken together. -/
def Output.text (o : Output) : Text := o.chunks.flatten

/-- A script file as it is read: the lines that come, and the error that comes in place of the end,
if one does. -/
structure Source where
  lines : List Text
  error : Option SourceError

namespace Source

/-- How the reading ends. -/
def ending (s : Source) : Except SourceError Unit :=
  match s.error with
  | none => .ok ()
  | some e => .error e

/-- All lines, if there is no error. -/
def all (s : Source) : Except SourceError (List Text) := s.ending.map fun _ => s.lines

end Source

namespace Extract

/-- The output for `records`. -/
def write (records : List Record) : Output := ⟨records.map Record.render, records.length⟩

/-- `extractFromText`: the documentation in `source`. -/
def text (c : Criterion) (source : Text) : Output := write (scan c (Lines.split source))

/-- `readSourceLines`: open a script file and read its lines. -/
def source (h : Host) (file : Text) : Source :=
  match h.reading .notRegular file with
  | .error fault => ⟨[], some ⟨file, .read fault⟩⟩
  | .ok ⟨bytes, some fault⟩ => ⟨Lines.completed (Utf8.decode bytes), some ⟨file, .read fault⟩⟩
  | .ok ⟨bytes, none⟩ => ⟨Lines.read (Utf8.decode bytes), none⟩

/-- The lines of a script file that can be read to its end. -/
def sourceLines (h : Host) (file : Text) : Except SourceError (List Text) := (source h file).all

/-- `extractAllComments`: write the documentation in a script file, each record as its line
comes. -/
def file (h : Host) (verbose : Bool) (path : Text) (c : Criterion) :
    Journaled SourceError Output := do
  Journaled.debug verbose ("Scanning " ++ path)
  let script := source h path
  let output := write (scan c script.lines)
  Journaled.emit output.chunks
  Journaled.ofExcept script.ending
  Journaled.debug verbose
    ("Found " ++ Text.ofNat output.count ++ " matching function(s) in " ++ path)
  return output

/-- `listFunctions`: the full names of the functions in a script file. With a prefix only those that
begin with it. -/
def functionNames (h : Host) (path : Text) (namePrefix : Option Text) :
    Except SourceError (List Text) := do
  let lines ← sourceLines h path
  let names := (scan .all lines).map Record.name
  match Text.given namePrefix with
  | none => return names
  | some start => return names.filter start.isPrefixOf

end Extract

end ShellDoc
