import ShellDoc.Text.Blank

/-!
# Comment blocks

Consecutive comment lines make a block of documentation. The comment marker goes, lines that are
blank or only decoration are left out, and the rest stand in order, each but the first on a line of
its own behind the indent under which the block is printed.
-/

namespace ShellDoc.Comment

/-- `COMMENT_INDENT`, in front of every line of a block in the output. -/
def indent : Text := "    "

/-- What stands between two lines of a block. -/
def separator : Text := '\n' :: indent

/-- The text without one space or tab in front. -/
def dropSpace : Text → Text
  | c :: rest => if c = ' ' ∨ c = '\t' then rest else c :: rest
  | [] => []

/-- `cleanCommentLine`: `line` without `MARKER_PATTERN`, `^\s*#[ \t]?`, which is the blanks in
front, the marker, and one space or tab behind it. A line without the marker is kept as it is. -/
def fragment (line : Text) : Text :=
  match Text.trimStart line with
  | '#' :: rest => dropSpace rest
  | _ => line

/-- The characters that rules are drawn with. -/
def isRuleChar (c : Char) : Bool := c == '#' || c == '=' || c == '-'

/-- `SEPARATOR_PATTERN`, `^\s*([#=-])\1{2,}\s*$`: one such character three times or more and nothing
else but blanks around it. -/
def isRule (text : Text) : Bool :=
  match Text.trim text with
  | c :: rest => isRuleChar c && 2 ≤ rest.length && rest.all (· == c)
  | [] => false

/-- `isDecorativeFragment`: `text` is blank or a rule. -/
def isDecorative (text : Text) : Bool :=
  (Text.trim text).isEmpty || isRule text

/-- `collectComment`: the block with one more comment line. -/
def append (block line : Text) : Text :=
  let text := fragment line
  if isDecorative text then block
  else if block.isEmpty then text
  else block ++ separator ++ text

end ShellDoc.Comment
