import ShellDoc.Text.Blank
import ShellDoc.Path

/-!
# Checks on texts and paths

An absent text counts as empty where a check takes one.
-/

namespace ShellDoc.Check

/-- There is no text. -/
def isEmpty (t : Option Text) : Bool := (Text.given t).isNone

/-- There is some text. -/
def isNotEmpty (t : Option Text) : Bool := (Text.given t).isSome

/-- There is no text but blanks. -/
def isEmptyOrBlank (t : Option Text) : Bool := (Text.trim (t.getD [])).isEmpty

/-- The texts are the same. -/
def isEqual (a b : Text) : Bool := a == b

/-- The texts differ. -/
def isNotEqual (a b : Text) : Bool := !isEqual a b

/-- The text begins with `start`. -/
def startsWith (text start : Text) : Bool := start.isPrefixOf text

/-- The text ends with `ending`. -/
def endsWith (text ending : Text) : Bool := ending.isSuffixOf text

/-- The text holds `part`. -/
def containsSubstring (text part : Text) : Bool := Text.containsText part text

/-- The path begins at the root. -/
def isAbsolutePath (path : Text) : Bool := Path.isAbsolute path

/-- The path does not begin at the root. -/
def isRelativePath (path : Text) : Bool := !Path.isAbsolute path

end ShellDoc.Check
