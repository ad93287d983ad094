import ShellDoc.FileTree.Basic
import ShellDoc.Text.Utf8

/-!
# Looking up paths

A path is followed name by name. Every name but the last has to lead to a directory, and so has the
last one when a slash follows it. Links on the way are followed, at most `linkLimit` of them.

* `FileTree.advance`: as far as the next link.
* `FileTree.walk`: all the way.
* `FileTree.lookup`: from a path as text, with the faults that its text alone has.
-/

namespace ShellDoc

/-- Why a path leads nowhere. -/
inductive PathFault where
  /-- The path holds the character U+0000. -/
  | nulCharacter
  | noEntry
  | notDirectory
  | tooManyLinks
  | nameTooLong
deriving DecidableEq, Repr

namespace FileTree

/-- How many links are followed on the way. -/
def linkLimit : Nat := 40

/-- How many bytes a name may have. -/
def nameLimit : Nat := 255

/-- How many bytes a path may have. -/
def pathLimit : Nat := 4095

/-- The names to follow. A slash at the end asks for a directory, as a last name `.` does. -/
def route (path : Text) : List Text :=
  if path.getLast? = some '/' then Path.names path ++ [['.']] else Path.names path

/-- The place where a path starts, for a walker at `place`. -/
def origin (place : List Text) (path : Text) : List Text :=
  if Path.isAbsolute path then [] else place

/-- How far the next link is. -/
inductive Stretch where
  | arrived (place : List Text)
  | stuck (fault : PathFault)
  | link (place : List Text) (target : Text) (rest : List Text)

/-- Follow names from a place up to the next link. A link at the very end is a place to arrive at
unless `follow` is set. -/
def advance (t : FileTree) (follow : Bool) (place : List Text) : List Text → Stretch
  | [] => .arrived place
  | name :: rest =>
    if !t.isDirectory place then .stuck .notDirectory
    else if name = ['.'] then advance t follow place rest
    else if name = ['.', '.'] then advance t follow place.dropLast rest
    else if nameLimit < Utf8.byteLength name then .stuck .nameTooLong
    else
      match t.entry? (place ++ [name]) with
      | none => .stuck .noEntry
      | some (.link target) =>
        if rest.isEmpty && !follow then .arrived (place ++ [name]) else .link place target rest
      | some _ => advance t follow (place ++ [name]) rest

/-- Follow names from a place through at most `budget` links. -/
def walk (t : FileTree) (follow : Bool) (budget : Nat) (place names : List Text) :
    Except PathFault (List Text) :=
  match t.advance follow place names with
  | .arrived place => .ok place
  | .stuck fault => .error fault
  | .link place target rest =>
    match budget with
    | 0 => .error .tooManyLinks
    | budget + 1 => walk t follow budget (origin place target) (route target ++ rest)

/-- The place that a path leads to from the place `start`. -/
def lookup (t : FileTree) (follow : Bool) (start : List Text) (path : Text) :
    Except PathFault (List Text) :=
  if path.contains '\x00' then .error .nulCharacter
  else if path.isEmpty then .error .noEntry
  else if pathLimit < Utf8.byteLength path then .error .nameTooLong
  else t.walk follow linkLimit (origin start path) (route path)

/-- What a path leads to. -/
def find (t : FileTree) (follow : Bool) (start : List Text) (path : Text) :
    Except PathFault FileEntry :=
  match t.lookup follow start path with
  | .error fault => .error fault
  | .ok place =>
    match t.entry? place with
    | none => .error .noEntry
    | some entry => .ok entry

end FileTree

end ShellDoc
