import ShellDoc.Comment

/-!
# Records

A record is a function with the comment block above it. A criterion says which functions are shown
and under which name.
-/

namespace ShellDoc

/-- A function and its documentation, which is empty when there is none. -/
structure Record where
  name : Text
  comment : Text
deriving DecidableEq, Repr

namespace Record

/-- `NAME_INDENT`, in front of a name in the output. -/
def nameIndent : Text := "  "

/-- `formatRecord`: the name on a line and, if it is documented, its comment under it and a blank
line behind. -/
def render (r : Record) : Text :=
  let nameLine := nameIndent ++ r.name ++ ['\n']
  if r.comment.isEmpty then nameLine
  else nameLine ++ Comment.indent ++ r.comment ++ ['\n', '\n']

end Record

/-- Which functions to show. An empty text counts as absent.

* `target`: only the function with this full name;
* `namePrefix`: only functions whose name begins so, shown without it. -/
structure Criterion where
  target : Option Text := none
  namePrefix : Option Text := none
deriving DecidableEq, Repr

namespace Criterion

/-- Show every function under its own name. -/
def all : Criterion := {}

/-- `selectDisplayName`: the name under which the function `name` is shown, if it is. The target is
compared with the full name, before the prefix is taken off. -/
def displayName? (c : Criterion) (name : Text) : Option Text :=
  if (Text.given c.target).all (· == name) then
    match Text.given c.namePrefix with
    | none => some name
    | some start => Text.stripPrefix? start name
  else none

end Criterion

end ShellDoc
