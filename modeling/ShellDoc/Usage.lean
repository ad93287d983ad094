import ShellDoc.Extract
import ShellDoc.Options.Lines
import ShellDoc.ScriptInfo

/-!
# Usage

The usage text of a script: a synopsis, a description, the documented commands, the options and
examples. Sections without text are left out, and a blank line stands between two sections.
-/

namespace ShellDoc

/-- What a usage text is made from. -/
structure UsageDefinition where
  script : Text
  namePrefix : Option Text := none
  description : Option Text := none
  options : OptionTable
  examples : List Text := []

namespace Usage

/-- Stands for the commands when there are none. -/
def noCommands : Text := "  (none documented)"

/-- `renderCommands`: what the extraction wrote, without the blanks at its end. -/
def commandsText (output : Output) : Text :=
  let body := Text.trimEnd output.text
  if body.isEmpty then noCommands else body

/-- The examples section, empty when there are no examples. -/
def examplesSection (examples : List Text) : Text :=
  if examples.isEmpty then []
  else "Examples:\n" ++ ['\n'].intercalate (examples.map fun line => "  " ++ line)

/-- All sections in order, with the text of the commands section given. -/
def sections (cwd : AbsPath) (d : UsageDefinition) (commands : Text) : List Text :=
  [ "USAGE:\n  " ++ (ScriptInfo.resolve cwd d.script).name ++
      " <command> [options] [arguments]",
    d.description.getD [],
    "Commands:\n" ++ commands,
    "Options:\n" ++ ['\n'].intercalate d.options.withHelp.lines,
    examplesSection d.examples ]

/-- The text of `sections`: empty ones are left out. -/
def assemble (sections : List Text) : Text :=
  ['\n', '\n'].intercalate (sections.filter fun s => !s.isEmpty) ++ ['\n']

/-- `renderUsage`: the usage text of a script. The documentation goes into the text, not to the
output. -/
def render (h : Host) (verbose : Bool) (d : UsageDefinition) : Journaled SourceError Text := do
  let output ← (Extract.file h verbose d.script { namePrefix := d.namePrefix }).captured
  return assemble (sections h.cwd d (commandsText output))

end Usage

end ShellDoc
