import ShellDoc.Keyed

/-!
# Options

A script declares its options in a table: a flag stands alone, a value option carries a text. What
was given on a command line is kept as parsed options.

* `OptionTable.withHelp`: the table with the help flag in front, unless it has an option `help`.
* `ParsedOptions.flag`, `ParsedOptions.value?`, `ParsedOptions.isSet`, `ParsedOptions.keys`.
-/

namespace ShellDoc

/-- Whether an option stands alone or carries a value. An option of another kind can be declared but
is never accepted. -/
inductive OptionKind where
  | flag
  | value
  | other (word : Text)
deriving DecidableEq, Repr

/-- The word for a kind. -/
def OptionKind.word : OptionKind → Text
  | .flag => "flag"
  | .value => "value"
  | .other word => word

/-- What a script declares of an option. `valueName` is the placeholder in the usage. -/
structure OptionDefinition where
  kind : OptionKind
  description : Text
  valueName : Option Text := none
deriving DecidableEq, Repr

/-- The options of a script by key. -/
abbrev OptionTable := Keyed OptionDefinition

namespace OptionTable

/-- The key of the option that asks for help. -/
def helpKey : Text := "help"

/-- `HELP_OPTION`, which every script has. -/
def help : OptionDefinition where
  kind := .flag
  description := "Show this help message and exit."

/-- `DEFAULT_OPTIONS`, which most scripts take. -/
def standard : OptionTable :=
  .ofList [
    ("verbose", ⟨.flag, "Enable verbose mode for more detailed output.", none⟩),
    ("file", ⟨.value, "Specify a file to be used by the command.", some "file"⟩)]

/-- `withHelpOption`: the table with `help` in front. A script's own declaration of it takes its
place. -/
def withHelp (table : OptionTable) : OptionTable :=
  (Keyed.empty.insert helpKey help).insertAll table.entries

end OptionTable

/-- The options that were given: `flags` in the order of their first occurrence, and the last value
of each value option, likewise in order. -/
structure ParsedOptions where
  flags : List Text
  values : Keyed Text

namespace ParsedOptions

/-- Nothing given. -/
def empty : ParsedOptions := ⟨[], .empty⟩

/-- The flag `key` was given. -/
def flag (o : ParsedOptions) (key : Text) : Bool := o.flags.contains key

/-- The last value given for `key`. -/
def value? (o : ParsedOptions) (key : Text) : Option Text := o.values.find? key

/-- `key` was given as a flag or with a value. -/
def isSet (o : ParsedOptions) (key : Text) : Bool := o.flag key || (o.value? key).isSome

/-- The keys that were given, flags first. -/
def keys (o : ParsedOptions) : List Text := o.flags ++ o.values.keys

/-- The flag `key` was given once more. -/
def setFlag (o : ParsedOptions) (key : Text) : ParsedOptions :=
  { o with flags := if o.flags.contains key then o.flags else o.flags ++ [key] }

/-- A `value` was given for `key`. -/
def setValue (o : ParsedOptions) (key value : Text) : ParsedOptions :=
  { o with values := o.values.insert key value }

end ParsedOptions

end ShellDoc
