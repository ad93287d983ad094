import ShellDoc.Failure
import ShellDoc.Journal
import ShellDoc.Toml.Document

/-!
# The config file

A config file gives a script and a prefix to use when none is given. It is searched for in a
directory and in all directories above it.

* `Config.validate`: what a document says, or everything that is wrong with it.
* `Config.findFile`: the nearest config file.
* `Config.load`: the nearest config, which is empty when there is no file.
-/

namespace ShellDoc

/-- What a config file says. -/
structure Config where
  namePrefix : Option Text := none
  script : Option Text := none
deriving DecidableEq, Repr

namespace Config

/-- `CONFIG_FILENAME`. -/
def fileName : Text := "fndoc.toml"

/-- The key for the prefix. -/
def prefixKey : Text := "prefix"

/-- The key for the script. -/
def scriptKey : Text := "script"

/-- The largest integer that is an ordinary number. -/
def maxSafe : Nat := 9007199254740991

/-- The word for the type of a value, in the wording of `FndocConfigSchema`. -/
def typeWord : Toml.Value → Text
  | .text _ => "string"
  | .boolean _ => "boolean"
  | .integer n => if n.natAbs ≤ maxSafe then "number" else "bigint"
  | .float _ | .infinity => "number"
  | .nan => "nan"
  | .moment _ => "date"
  | .array _ | .tables _ => "array"
  | .inlineTable _ | .table _ _ => "object"
  | .reserved _ => "function"

/-- What is wrong with a value under `key` that should be a text with something in it. -/
def fieldIssue? (key whenEmpty : Text) : Toml.Value → Option Text
  | .text t => if t.isEmpty then some (key ++ ": " ++ whenEmpty) else none
  | v => some (key ++ ": Expected string, received " ++ typeWord v)

/-- The keys of `fields` that `FndocConfigSchema` does not declare, in listing order. -/
def unknownKeys (fields : Toml.Fields) : List Text :=
  ((Keyed.ofList fields).ordered.map Prod.fst).filter fun key =>
    key ≠ prefixKey ∧ key ≠ scriptKey

/-- The issue that names all unknown keys. -/
def unknownIssue (keys : List Text) : Text :=
  "(root): Unrecognized key(s) in object: " ++
    (", " : Text).intercalate (keys.map fun key => ['\''] ++ key ++ ['\''])

/-- `formatIssues`: everything that is wrong with `fields`: the prefix, the script, then the unknown
keys. -/
def issues (fields : Toml.Fields) : List Text :=
  let unknown := unknownKeys fields
  ((fields.find? prefixKey).bind (fieldIssue? prefixKey "Prefix cannot be empty")).toList ++
    ((fields.find? scriptKey).bind (fieldIssue? scriptKey "Script path cannot be empty")).toList ++
    if unknown.isEmpty then [] else [unknownIssue unknown]

/-- The text under `key`. -/
def textAt (fields : Toml.Fields) (key : Text) : Option Text :=
  match fields.find? key with
  | some (.text t) => some t
  | _ => none

/-- `FndocConfigSchema`: what `fields` say, or everything that is wrong with them. -/
def validate (fields : Toml.Fields) : Except (List Text) Config :=
  match issues fields with
  | [] => .ok ⟨textAt fields prefixKey, textAt fields scriptKey⟩
  | found => .error found

/-- `reportConfigErrors`: report the issues of a config file and give up. -/
def reject {α : Type} (path : Text) (found : List Text) : Journaled ConfigError α where
  log := ⟨.error, "Invalid config in " ++ path ++ ":"⟩ ::
    found.map fun issue => ⟨.error, " - " ++ issue⟩
  written := []
  outcome := .error ⟨path, found⟩

/-- Stands for the wording that the parser has for a text that is no document. The parser's own
wordings, which differ from fault to fault, are not told apart here. -/
def notToml : Text := "<toml syntax error>"

/-- The document in a config file, or the issue with it. -/
def readDocument (h : Host) (path : Text) : Except Text Toml.Fields :=
  match h.readText .isDirectory path with
  | .error fault => .error ("(file): " ++ fault.message)
  | .ok text =>
    match Toml.parse? text with
    | none => .error ("(file): " ++ notToml)
    | some fields => .ok fields

/-- `parseConfigFile`: read a config file. A script in it is taken relative to the directory that
holds the file. -/
def read (h : Host) (path : Text) : Journaled ConfigError Config :=
  match readDocument h path with
  | .error issue => reject path [issue]
  | .ok fields =>
    match validate fields with
    | .error found => reject path found
    | .ok config =>
      let dir := h.cwd.resolve (Path.dirname path)
      .pure { config with script := config.script.map fun s => (dir.resolve s).render }

/-- The config file of `dir`. -/
def fileIn (dir : AbsPath) : Text := (dir.child fileName).render

/-- `findConfigFile`: the nearest config file of `start` or of a directory above it. -/
def findFile (h : Host) (start : Text) : Option Text :=
  ((h.cwd.resolve start).ancestors.map fileIn).find? h.pathExists

/-- A config and the file it is from, if it is from one. -/
structure Loaded where
  config : Config
  path : Option Text
deriving DecidableEq, Repr

/-- `loadConfig`: the nearest config. -/
def load (h : Host) (verbose : Bool) (start : Text) : Journaled ConfigError Loaded :=
  match findFile h start with
  | none => do
    Journaled.debug verbose ("No " ++ fileName ++ " found")
    return ⟨{}, none⟩
  | some path => do
    Journaled.debug verbose ("Using config " ++ path)
    let config ← read h path
    return ⟨config, some path⟩

end Config

end ShellDoc
