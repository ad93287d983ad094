import ShellDoc.Number

/-!
# Data values

Plain data, as it may come with a failure, and its text in a message.
-/

namespace ShellDoc

/-- Plain data. -/
inductive Datum where
  | null
  | boolean (b : Bool)
  | number (n : Number)
  | text (t : Text)
  | list (items : List Datum)
  | record
deriving Inhabited

namespace Datum

/-- The text of a value in a message: an item of a list that is null leaves an empty place, and a
record is not shown. -/
def toText : Datum → Text
  | .null => "null"
  | .boolean true => "true"
  | .boolean false => "false"
  | .number n => n.toText
  | .text t => t
  | .list items => [','].intercalate (itemTexts items)
  | .record => "[object Object]"
where
  /-- The texts of the items of a list. -/
  itemTexts : List Datum → List Text
    | [] => []
    | .null :: rest => [] :: itemTexts rest
    | item :: rest => toText item :: itemTexts rest

end Datum

end ShellDoc
