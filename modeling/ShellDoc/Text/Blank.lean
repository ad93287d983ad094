import ShellDoc.Text.Basic

/-!
# White space

The blank characters are the 25 that separate words in this library: the ASCII controls from tab
to carriage return, the space, the no-break spaces, the Unicode space separators and the two
Unicode line separators.

* `Text.trimStart`, `Text.trimEnd`, `Text.trim`: without the blanks at an end.
* `Text.firstWord`, `Text.afterWord`: the text read as words between blanks.
-/

namespace ShellDoc

/-- `\s`: the character separates words. -/
def isBlank (c : Char) : Bool :=
  let n := c.toNat
  (0x09 ≤ n && n ≤ 0x0D) || n == 0x20 || n == 0xA0 || n == 0x1680 ||
    (0x2000 ≤ n && n ≤ 0x200A) || n == 0x2028 || n == 0x2029 || n == 0x202F || n == 0x205F ||
    n == 0x3000 || n == 0xFEFF

namespace Text

/-- `text` is empty or begins with a blank. -/
def startsBlank : Text → Bool
  | [] => true
  | c :: _ => isBlank c

/-- `text` without the blanks in front. -/
def trimStart (text : Text) : Text := text.dropWhile isBlank

/-- `text` without the blanks at the end. -/
def trimEnd (text : Text) : Text := (text.reverse.dropWhile isBlank).reverse

/-- `text` without the blanks on either side. -/
def trim (text : Text) : Text := trimEnd (trimStart text)

/-- The first run of characters of `text` that are not blank. -/
def firstWord (text : Text) : Text := (trimStart text).takeWhile fun c => !isBlank c

/-- What follows the `firstWord`. -/
def afterWord (text : Text) : Text := (trimStart text).dropWhile fun c => !isBlank c

end Text

end ShellDoc
