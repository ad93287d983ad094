import ShellDoc.Options.Basic
import ShellDoc.Text.Units

/-!
# Option lines

One line per option in a usage text. The descriptions begin in one column, two past the widest
label, counted in 16-bit units.
-/

namespace ShellDoc.OptionTable

/-- `optionLabel`: a flag alone, any other option with a placeholder for its value. -/
def label (key : Text) (d : OptionDefinition) : Text :=
  match d.kind with
  | .flag => "--" ++ key
  | _ => "--" ++ key ++ "=<" ++ d.valueName.getD key ++ ['>']

/-- The width of the label column: two past the widest label. -/
def labelWidth (labels : List Text) : Nat := (labels.map Text.width).foldr max 0 + 2

/-- `renderOptionLines`: the aligned lines of `table`, in listing order. -/
def lines (table : OptionTable) : List Text :=
  let column := labelWidth (table.ordered.map fun e => label e.1 e.2)
  table.ordered.map fun e => "  " ++ Text.padTo column (label e.1 e.2) ++ e.2.description

end ShellDoc.OptionTable
