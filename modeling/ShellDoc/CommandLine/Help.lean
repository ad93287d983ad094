import ShellDoc.CommandLine.Invocation
import ShellDoc.Text.Units

/-!
# Help texts

The help of the program and of its subcommands.
-/

namespace ShellDoc.CommandLine

/-- The name of the program. -/
def programName : Text := "fndoc"

/-- Its version. -/
def programVersion : Text := "0.1.0"

/-- What the program does. -/
def programDescription : Text := "Show shell script functions with their documentation comments"

/-- Something that a help text explains. -/
structure HelpItem where
  label : Text
  text : Text

namespace Subcommand

/-- What a subcommand does. -/
def description : Subcommand → Text
  | .doc => "Print each function in a script with the comment above it"
  | .list => "List function names declared in a script, one per line"
  | .usage => "Print full usage text for a script built on the dispatcher"

/-- The positionals of a subcommand. -/
def operandItems (s : Subcommand) : List HelpItem :=
  let script : HelpItem :=
    ⟨"[script]", "Shell script to read (defaults to `script` in fndoc.toml) [optional]"⟩
  let command : HelpItem :=
    ⟨"[command]", "Only show this command (prefix is added automatically) [optional]"⟩
  match s with
  | .doc => [script, command]
  | .list | .usage => [script]

/-- The options of a subcommand that have values. -/
def optionItems (s : Subcommand) : List HelpItem :=
  let namePrefix : HelpItem :=
    ⟨"--prefix, -p <str>",
      "Only document functions with this prefix, shown without it [optional]"⟩
  let description : HelpItem :=
    ⟨"--description, -d <str>", "Paragraph shown under the synopsis [optional]"⟩
  match s with
  | .usage => [namePrefix, description]
  | .doc | .list => [namePrefix]

/-- The flags of every subcommand. -/
def flagItems : List HelpItem := [
  ⟨"--verbose, -v", "Log config lookup and scan progress"⟩,
  ⟨"--help, -h", "show help"⟩]

end Subcommand

/-- One line of a section, with the explanation behind the column of labels. -/
def HelpItem.render (column : Nat) (item : HelpItem) : Text :=
  "\n  " ++ Text.padTo column item.label ++ " - " ++ item.text

/-- A section of a help text, with the explanations in one column. -/
def helpSection (title : Text) (items : List HelpItem) : Text :=
  let column := (items.map fun i => Text.width i.label).foldr max 0
  title ++ [':'] ++ items.flatMap (HelpItem.render column)

/-- The help of a subcommand. -/
def Subcommand.help (s : Subcommand) : Text :=
  let sections : List Text := [
    helpSection "ARGUMENTS" s.operandItems,
    helpSection "OPTIONS" s.optionItems,
    helpSection "FLAGS" flagItems]
  programName ++ [' '] ++ s.name ++ "\n> " ++ s.description ++ "\n\n" ++
    ['\n', '\n'].intercalate sections ++ ['\n']

/-- The line that lists a subcommand in the help of the program. -/
def Subcommand.summary (s : Subcommand) : Text :=
  "- " ++ s.name ++ " - " ++ s.description ++ ['\n']

/-- The help of the program. -/
def programHelp : Text :=
  programName ++ " <subcommand>\n> " ++ programDescription ++
    "\n\nwhere <subcommand> can be one of:\n\n" ++ Subcommand.all.flatMap Subcommand.summary ++
    "\nFor more help, try running `" ++ programName ++ " <subcommand> --help`\n"

end ShellDoc.CommandLine
