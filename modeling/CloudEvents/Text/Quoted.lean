import CloudEvents.Bytes
import CloudEvents.Text.Printable

/-!
# Quoted texts and byte strings

A text is quoted between single marks, or between double ones if it holds single marks and no double
ones. Inside, the mark and the backslash stand behind a backslash, and characters that are not
printable are written as escapes: a letter for tab, line feed and carriage return, the code for all
others. A byte string is quoted like the text of its bytes as character codes, but no byte beyond
ASCII stands for itself.

## Main definitions

* `quotedText`, `quotedBytes`, `quotedByteArray`
-/

namespace CloudEvents

/-! ### Escapes -/

/-- The last `width` hexadecimal digits of a number. -/
def hexDigits : (width n : Nat) → List Char
  | 0, _ => []
  | width + 1, n => hexDigits width (n / 16) ++ [Nat.digitChar (n % 16)]

/-- A character by its code: two hexadecimal digits, or four, or eight. -/
def codeEscape (c : Char) : List Char :=
  if c.toNat < 0x100 then '\\' :: 'x' :: hexDigits 2 c.toNat
  else if c.toNat < 0x10000 then '\\' :: 'u' :: hexDigits 4 c.toNat
  else '\\' :: 'U' :: hexDigits 8 c.toNat

/-- A character inside quotation marks. The mark and the backslash are escaped, and so are the
characters that do not stand for themselves, three of them by a letter. -/
def escaped (keeps : Char → Bool) (mark c : Char) : List Char :=
  if c = mark ∨ c = '\\' then ['\\', c]
  else if c = '\n' then ['\\', 'n']
  else if c = '\r' then ['\\', 'r']
  else if c = '\t' then ['\\', 't']
  else if keeps c then [c]
  else codeEscape c

/-! ### Quotation -/

/-- Single quotation marks, unless only double ones spare an escape. -/
def markFor (cs : List Char) : Char := if '\'' ∈ cs ∧ '"' ∉ cs then '"' else '\''

/-- A text in quotation marks. -/
def quotedText (text : String) : String :=
  let mark := markFor text.toList
  .ofList (mark :: text.toList.flatMap (escaped Text.isPrintable mark) ++ [mark])

/-- The characters whose codes are the bytes. -/
private def byteChars (bytes : Bytes) : List Char := bytes.map fun b => Char.ofNat b.toNat

/-- The characters that stand for themselves in a byte string. -/
private def isPrintableByte (c : Char) : Bool := c.toNat < 128 && Text.isPrintable c

/-- A byte string in quotation marks. -/
def quotedBytes (bytes : Bytes) : String :=
  let cs := byteChars bytes
  let mark := markFor cs
  .ofList ('b' :: mark :: cs.flatMap (escaped isPrintableByte mark) ++ [mark])

/-- A byte string that may change. Single marks are escaped in it even between double ones. -/
def quotedByteArray (bytes : Bytes) : String :=
  let cs := byteChars bytes
  let mark := markFor cs
  let quoted := 'b' :: mark :: cs.flatMap (escaped isPrintableByte '\'') ++ [mark]
  "bytearray(" ++ .ofList quoted ++ ")"

end CloudEvents
