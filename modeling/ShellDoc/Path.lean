import ShellDoc.Text.Basic

/-!
# Paths

Paths are read by their text alone. An absolute path is the list of its names; `.` and `..` are gone
from it, and there is nothing above the root.

* `Path.dirname`, `Path.basename`: the directory and the last name of a path, by its text.
* `AbsPath.resolve`: a path, taken relative to a directory.
* `AbsPath.render`: the text of an absolute path.
* `AbsPath.ancestors`: the path itself and all directories above it, up to the root.
-/

namespace ShellDoc

namespace Path

/-- `path` begins at the root. -/
def isAbsolute (path : Text) : Bool := path.head? == some '/'

/-- The names in `path`: the pieces between its slashes that are not empty. -/
def names (path : Text) : List Text := (path.splitOn '/').filter fun piece => !piece.isEmpty

/-- The directory that holds what the path names: the text in front of the last name and its slash.
Slashes at the end do not count. Without such a slash it is the directory that the path starts in,
and two slashes in front of a name stay two. -/
def dirname (path : Text) : Text :=
  match (path.reverse.dropWhile (· == '/')).dropWhile (· != '/') with
  | [] => if isAbsolute path then ['/'] else ['.']
  | [_] => ['/']
  | [_, '/'] => ['/', '/']
  | _ :: front => front.reverse

/-- The last name in a path. Slashes at the end do not count, and a path of slashes has no name. -/
def basename (path : Text) : Text :=
  ((path.reverse.dropWhile (· == '/')).takeWhile (· != '/')).reverse

end Path

/-- An absolute path: the names from the root down. -/
structure AbsPath where
  parts : List Text
deriving DecidableEq, Repr

namespace AbsPath

/-- The top of all paths. -/
def root : AbsPath := ⟨[]⟩

/-- One name further. `.` stays, and `..` goes up unless there is nothing above. -/
def step (parts : List Text) (name : Text) : List Text :=
  if name = ['.'] then parts
  else if name = ['.', '.'] then parts.dropLast
  else parts ++ [name]

/-- The path, relative to the directory `base` unless it begins at the root. -/
def resolve (base : AbsPath) (path : Text) : AbsPath :=
  let origin := if Path.isAbsolute path then [] else base.parts
  ⟨(Path.names path).foldl step origin⟩

/-- The text of `p`. -/
def render (p : AbsPath) : Text := '/' :: ['/'].intercalate p.parts

/-- The directory that holds `p`. The root holds itself. -/
def parent (p : AbsPath) : AbsPath := ⟨p.parts.dropLast⟩

/-- The last name of `p`, which the root does not have. -/
def name (p : AbsPath) : Text := p.parts.getLastD []

/-- The entry `name` of the directory `p`. -/
def child (p : AbsPath) (name : Text) : AbsPath := ⟨p.parts ++ [name]⟩

/-- The lists of names that are left when names are taken off the end, longest first. -/
def shortened : List Text → List (List Text)
  | [] => [[]]
  | name :: rest => (shortened rest).map (name :: ·) ++ [[]]

/-- `p` and all directories above it, the nearest first. -/
def ancestors (p : AbsPath) : List AbsPath := (shortened p.parts).map .mk

end AbsPath

end ShellDoc
