import ShellDoc.Text.Basic

/-!
# UTF-8

`Utf8.decode` reads bytes as UTF-8. Bytes that are not UTF-8 do not stop it: each longest run of
bytes that begins a character without completing it, and each byte that can begin none, gives one
replacement character. A byte order mark is a character like any other.
-/

namespace ShellDoc.Utf8

/-- U+FFFD, which stands for bytes that are no character. -/
def replacement : Char := '�'

/-- A character of which some bytes are missing: the bits so far, how many bytes are to come, and
the range the next one has to lie in. -/
structure Partial where
  bits : Nat
  missing : Nat
  low : Nat
  high : Nat

/-- The decoder: the character it is in, if any, and the characters so far, last one first. -/
structure Decoder where
  open? : Option Partial
  done : Text

/-- Begin a character with byte `b`. The ranges of the second byte keep out overlong forms,
surrogates and numbers beyond U+10FFFF. -/
def Decoder.start (done : Text) (b : Nat) : Decoder :=
  if b < 0x80 then ⟨none, Char.ofNat b :: done⟩
  else if b < 0xC2 then ⟨none, replacement :: done⟩
  else if b < 0xE0 then ⟨some ⟨b - 0xC0, 1, 0x80, 0xBF⟩, done⟩
  else if b < 0xF0 then
    let low := if b = 0xE0 then 0xA0 else 0x80
    let high := if b = 0xED then 0x9F else 0xBF
    ⟨some ⟨b - 0xE0, 2, low, high⟩, done⟩
  else if b < 0xF5 then
    let low := if b = 0xF0 then 0x90 else 0x80
    let high := if b = 0xF4 then 0x8F else 0xBF
    ⟨some ⟨b - 0xF0, 3, low, high⟩, done⟩
  else ⟨none, replacement :: done⟩

/-- Take the next byte. One that cannot continue the open character replaces it and begins anew. -/
def Decoder.take (d : Decoder) (byte : UInt8) : Decoder :=
  let b := byte.toNat
  match d.open? with
  | none => .start d.done b
  | some p =>
    if p.low ≤ b ∧ b ≤ p.high then
      let bits := p.bits * 64 + (b - 0x80)
      if p.missing ≤ 1 then ⟨none, Char.ofNat bits :: d.done⟩
      else ⟨some ⟨bits, p.missing - 1, 0x80, 0xBF⟩, d.done⟩
    else .start (replacement :: d.done) b

/-- The text when the bytes end here. -/
def Decoder.finish (d : Decoder) : Text :=
  (if d.open?.isSome then replacement :: d.done else d.done).reverse

/-- The text that the bytes stand for. -/
def decode (bytes : List UInt8) : Text :=
  (bytes.foldl Decoder.take ⟨none, []⟩).finish

/-- How many bytes a text takes. -/
def byteLength : Text → Nat
  | [] => 0
  | c :: rest => c.utf8Size + byteLength rest

end ShellDoc.Utf8
