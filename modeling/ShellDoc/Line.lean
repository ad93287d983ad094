import ShellDoc.Text.Blank

/-!
# Lines of a shell script

What a line of a script is, decided without its neighbours, and the function name in a header.

* `Line.classify`: a comment, a header that opens its body, a header that does not, a lone opening
  brace, or anything else, tried in this order.
* `Line.headerName`: the name of the function that a header declares.
-/

namespace ShellDoc

/-- What a single line is. -/
inductive LineKind where
  | comment
  | inlineHeader
  | bareHeader
  | openBrace
  | other
deriving DecidableEq, Repr

namespace Line

/-- `COMMENT_LINE`, `^\s*#`: the first character of `line` that is not blank is `#`. -/
def isComment (line : Text) : Bool :=
  (Text.trimStart line).head? == some '#'

/-- The word that may introduce a header. -/
def keyword : Text := "function"

/-- The empty parameter list that marks a header. -/
def parens : Text := ['(', ')']

/-- `FUNCTION_KEYWORD`, `^function\s+\S`, behind blanks: what follows `keyword` and the blanks
behind it, if that is something. -/
def afterKeyword? (line : Text) : Option Text :=
  match Text.stripPrefix? keyword (Text.trimStart line) with
  | some (c :: rest) =>
    let body := Text.trimStart rest
    if isBlank c && !body.isEmpty then some body else none
  | _ => none

/-- `isFunctionStart`: `line` has `keyword` and something behind it, or `()` anywhere. -/
def isHeader (line : Text) : Bool :=
  (afterKeyword? line).isSome || Text.containsText parens line

/-- The end of `BODY_OPENER`, `\s*\{(\s|$)`: blanks, an opening brace, and then a blank or the
end. -/
def opensBrace (text : Text) : Bool :=
  match Text.trimStart text with
  | '\x7b' :: rest => Text.startsBlank rest
  | _ => false

/-- The first form of `BODY_OPENER`, `\(\)\s*\{(\s|$)`, at the front of `text`. -/
def opensAfterParens (text : Text) : Bool :=
  match Text.stripPrefix? parens text with
  | some rest => opensBrace rest
  | none => false

/-- `[^\s(){]`: a character of the name in the second form of `BODY_OPENER`. -/
def isNameChar (c : Char) : Bool :=
  !(isBlank c || c == '(' || c == ')' || c == '\x7b')

/-- The second form of `BODY_OPENER`, `^\s*function\s+[^\s(){]+\s*\{(\s|$)`: `keyword`, a name
without parentheses, and an opening brace. -/
def opensAfterKeyword (line : Text) : Bool :=
  match afterKeyword? line with
  | some body =>
    !(body.takeWhile isNameChar).isEmpty && opensBrace (body.dropWhile isNameChar)
  | none => false

/-- `opensBody`: the brace that opens the body is on `line`, at its end or where `BODY_OPENER` finds
it, which is behind `()` or behind `keyword` and a name, with more of the body after it. -/
def opensBody (line : Text) : Bool :=
  (Text.trimEnd line).getLast? == some '\x7b' ||
    Text.anySuffix opensAfterParens line || opensAfterKeyword line

/-- `isOpenBraceLine`: `line` is an opening brace and nothing else. -/
def isOpenBrace (line : Text) : Bool := Text.trim line == ['\x7b']

/-- `classifyLine`: the kind of `line`. A comment that mentions a header is still a comment. -/
def classify (line : Text) : LineKind :=
  if isComment line then .comment
  else if isHeader line then if opensBody line then .inlineHeader else .bareHeader
  else if isOpenBrace line then .openBrace
  else .other

/-- The word that `HEADER_FORMS` find the name in: the one behind `keyword`, or else the first word
of a line with `()`. Other lines have none. -/
def nameWord (line : Text) : Text :=
  match afterKeyword? line with
  | some body => Text.firstWord body
  | none => if Text.containsText parens line then Text.firstWord line else []

/-- `resolveFunctionName`: the name in a header, which is the `nameWord` without `\{$` and then
without `\(\)$`; empty when `line` is no header or the word is nothing but these. -/
def headerName (line : Text) : Text :=
  Text.stripSuffix parens (Text.stripSuffix ['\x7b'] (nameWord line))

end Line

end ShellDoc
