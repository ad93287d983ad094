import ShellDoc.Path

/-!
# Where a script is

A script's path, taken apart.
-/

namespace ShellDoc

/-- A script's path and its parts.

* `file`: the absolute path;
* `dir`: the directory that holds the script;
* `name`: its name in that directory;
* `base`: the name without the suffix of shell scripts. -/
structure ScriptInfo where
  name : Text
  dir : Text
  file : Text
  base : Text
deriving DecidableEq, Repr

namespace ScriptInfo

/-- The suffix of shell scripts. -/
def suffix : Text := ".sh"

/-- The name without the suffix. A name that is nothing else keeps it. -/
def baseName (name : Text) : Text :=
  if name = suffix then name else Text.stripSuffix suffix name

/-- The parts of a path, relative to the directory `cwd`. -/
def resolve (cwd : AbsPath) (path : Text) : ScriptInfo :=
  let file := (cwd.resolve path).render
  { name := Path.basename file
    dir := Path.dirname file
    file
    base := baseName (Path.basename file) }

end ScriptInfo

end ShellDoc
