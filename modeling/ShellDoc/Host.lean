import ShellDoc.FileTree.Lookup
import ShellDoc.Text.Quoted

/-!
# The host

What a program sees of the system it runs on: the files, the working directory and the home
directory.

* `Host.stat`, `Host.statLink`: what a path leads to.
* `Host.reading`: the bytes of a file as they come, with the fault that breaks the reading off.
* `Host.readText`: the whole text of a file, or the reason why there is none.
-/

namespace ShellDoc

/-- The surroundings of a run. -/
structure Host where
  files : FileTree
  cwd : AbsPath
  home : Text

/-- Why a file cannot be read. -/
inductive ReadFault where
  | path (fault : PathFault) (path : Text)
  | notRegular
  | isDirectory
  | inputOutput
deriving DecidableEq, Repr

namespace ReadFault

/-- The wording for a `path` that leads nowhere, when it was to be opened. -/
def pathMessage (path : Text) : PathFault → Text
  | .nulCharacter =>
    "The argument 'path' must be a string, Uint8Array, or URL without null bytes. Received " ++
      Quoted.quoteShort path
  | .noEntry => "ENOENT: no such file or directory, open '" ++ path ++ ['\'']
  | .notDirectory => "ENOTDIR: not a directory, open '" ++ path ++ ['\'']
  | .tooManyLinks => "ELOOP: too many symbolic links encountered, open '" ++ path ++ ['\'']
  | .nameTooLong => "ENAMETOOLONG: name too long, open '" ++ path ++ ['\'']

/-- The wording of a fault. -/
def message : ReadFault → Text
  | .path fault target => pathMessage target fault
  | .notRegular => "not a regular file"
  | .isDirectory => "EISDIR: illegal operation on a directory, read"
  | .inputOutput => "EIO: i/o error, read"

end ReadFault

/-- What the reading of an opened file gives: the bytes that come, and the fault that comes in place
of the file's end, if one does. -/
structure Reading where
  bytes : List UInt8
  fault : Option ReadFault
deriving DecidableEq, Repr

namespace Host

/-- What `path` leads to, links followed. -/
def stat (h : Host) (path : Text) : Except PathFault FileEntry :=
  h.files.find true h.cwd.parts path

/-- What `path` leads to; a link at its end is not followed. -/
def statLink (h : Host) (path : Text) : Except PathFault FileEntry :=
  h.files.find false h.cwd.parts path

/-- `path` leads somewhere. -/
def pathExists (h : Host) (path : Text) : Bool :=
  match h.stat path with
  | .ok _ => true
  | .error _ => false

/-- Open the file at `path` and read it. A directory is refused with `directoryFault`. -/
def reading (h : Host) (directoryFault : ReadFault) (path : Text) : Except ReadFault Reading :=
  match h.stat path with
  | .error fault => .error (.path fault path)
  | .ok (.file bytes _) => .ok ⟨bytes, none⟩
  | .ok (.unreadable before) => .ok ⟨before, some .inputOutput⟩
  | .ok .directory => .error directoryFault
  | .ok (.link _) => .error .notRegular

/-- The text of the file at `path`, all at once: what came before a fault is lost. -/
def readText (h : Host) (directoryFault : ReadFault) (path : Text) : Except ReadFault Text :=
  match h.reading directoryFault path with
  | .error fault => .error fault
  | .ok ⟨_, some fault⟩ => .error fault
  | .ok ⟨bytes, none⟩ => .ok (Utf8.decode bytes)

/-- The directory that `path` leads to, as a working directory: the links on the way are gone from
it. A path that leads nowhere is taken by its text. -/
def enter (files : FileTree) (path : AbsPath) : AbsPath :=
  match files.lookup true [] path.render with
  | .ok place => ⟨place⟩
  | .error _ => path

end Host

end ShellDoc
