import ShellDoc.Path

/-!
# File trees

A file tree says what is at each place. A place is the list of names from the root down, without
links on the way.
-/

namespace ShellDoc

/-- What is at a place.

* `unreadable before`: a file that can be opened, whose reading fails behind the bytes `before`;
* `link`: a symbolic link with the path it points to. -/
inductive FileEntry where
  | directory
  | file (bytes : List UInt8) (executable : Bool)
  | unreadable (before : List UInt8 := [])
  | link (target : Text)
deriving DecidableEq, Repr

/-- What is at each place, the latest first. -/
structure FileTree where
  entries : List (List Text × FileEntry)

namespace FileTree

/-- The tree with nothing but the root. -/
def empty : FileTree := ⟨[]⟩

/-- What is at `place`. The root is always a directory. -/
def entry? (t : FileTree) (place : List Text) : Option FileEntry :=
  if place.isEmpty then some .directory
  else (t.entries.find? fun e => e.1 == place).map Prod.snd

/-- `place` holds a directory. -/
def isDirectory (t : FileTree) (place : List Text) : Bool := t.entry? place == some .directory

/-- The tree with a directory at `place`, unless something is there. -/
def makeDirectory (t : FileTree) (place : List Text) : FileTree :=
  if (t.entry? place).isSome then t else ⟨(place, .directory) :: t.entries⟩

/-- The tree with `entry` at `place`, and the directories above it. -/
def insert (t : FileTree) (place : List Text) (entry : FileEntry) : FileTree :=
  let above := (AbsPath.shortened place.dropLast).reverse.foldl makeDirectory t
  if entry = .directory then above.makeDirectory place else ⟨(place, entry) :: above.entries⟩

end FileTree

end ShellDoc
