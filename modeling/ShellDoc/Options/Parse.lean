import ShellDoc.Options.Basic

/-!
# Reading arguments

Arguments are read one by one against an option table. An argument is option-like when it begins
with two dashes and an ASCII letter or digit; any other is a positional, wherever it stands. An
option-like argument is a key, the longest run of letters, digits, dashes and underscores behind the
dashes, followed by nothing or by an equals sign and a value.

* `Event`: what one argument says; `Event.render` writes it.
* `Event.read`: an argument as an event, or the fault in it.
* `parseOptions`: a list of arguments; the first fault counts.
-/

namespace ShellDoc

/-- What is wrong with an argument. -/
inductive OptionFault where
  /-- Something other than an equals sign follows the key. -/
  | malformed
  /-- The key is not declared. -/
  | unknown (key : Text)
  /-- The option does not stand alone. -/
  | needsValue (key : Text)
  /-- The option does not carry a value. -/
  | takesNoValue (key : Text)
  /-- A command's own objection. -/
  | objection (text : Text)
deriving DecidableEq, Repr

/-- `OptionError`: a fault and the argument that has it. -/
structure OptionError where
  fault : OptionFault
  argument : Text
deriving DecidableEq, Repr

/-- The wording of a fault. -/
def OptionError.message (e : OptionError) : Text :=
  match e.fault with
  | .malformed => "Invalid argument format: " ++ e.argument
  | .unknown key => "Unknown option: --" ++ key
  | .needsValue key => "Option --" ++ key ++ " requires a value"
  | .takesNoValue key => "Option --" ++ key ++ " does not take a value"
  | .objection text => text

/-- What an argument says. -/
inductive Event where
  | positional (text : Text)
  | flag (key : Text)
  | value (key text : Text)
deriving DecidableEq, Repr

namespace Event

/-- `[a-zA-Z0-9]`: a character that a key may begin with. -/
def isKeyStart (c : Char) : Bool := c.isAlphanum

/-- `[-_a-zA-Z0-9]`: a character of a key. -/
def isKeyChar (c : Char) : Bool := c.isAlphanum || c == '-' || c == '_'

/-- `OPTION_START`, `^--[a-zA-Z0-9][-_a-zA-Z0-9]*`: the key of an option-like argument and what
follows it. -/
def splitKey? (arg : Text) : Option (Text × Text) :=
  match arg with
  | '-' :: '-' :: c :: rest =>
    if isKeyStart c then
      some (c :: rest.takeWhile isKeyChar, rest.dropWhile isKeyChar)
    else none
  | _ => none

/-- One round of the loop in `parseOptions`: what `arg` says, given the declared options, or its
fault. The key is looked up by `lookupDefinition`. -/
def read (table : OptionTable) (arg : Text) : Except OptionError Event :=
  match splitKey? arg with
  | none => .ok (.positional arg)
  | some (key, []) =>
    match table.find? key with
    | none => .error ⟨.unknown key, arg⟩
    | some d => if d.kind = .flag then .ok (.flag key) else .error ⟨.needsValue key, arg⟩
  | some (key, '=' :: text) =>
    match table.find? key with
    | none => .error ⟨.unknown key, arg⟩
    | some d =>
      if d.kind = .value then .ok (.value key text) else .error ⟨.takesNoValue key, arg⟩
  | some (_, _) => .error ⟨.malformed, arg⟩

/-- The argument that says it. -/
def render : Event → Text
  | .positional text => text
  | .flag key => "--" ++ key
  | .value key text => "--" ++ key ++ ['='] ++ text

end Event

/-- A command line that was read: the options and, in order, the positionals. -/
structure ParsedArguments where
  options : ParsedOptions
  positionals : List Text

namespace ParsedArguments

/-- No arguments. -/
def empty : ParsedArguments := ⟨.empty, []⟩

/-- `p` with one more event. -/
def add (p : ParsedArguments) : Event → ParsedArguments
  | .positional text => { p with positionals := p.positionals ++ [text] }
  | .flag key => { p with options := p.options.setFlag key }
  | .value key text => { p with options := p.options.setValue key text }

/-- The events of a command line taken together. -/
def ofEvents (events : List Event) : ParsedArguments := events.foldl add empty

end ParsedArguments

/-- `parseOptions`: `argv` read against `table`. The first argument with a fault decides. -/
def parseOptions (table : OptionTable) (argv : List Text) : Except OptionError ParsedArguments :=
  (argv.mapM (Event.read table)).map .ofEvents

end ShellDoc
