import Abacus.Text.Printable

/-!
# Quoted text

How a message shows a piece of input: between single quotes, or between double quotes when the
text holds a single quote and no double quote. A backslash and the quote in use are escaped by a
backslash; line feed, carriage return and tab have short escapes; every other unprintable
character is written by its code point in two, four or eight hexadecimal digits.
-/

namespace Abacus.Text

/-- The last `width` hexadecimal digits of `n`, in lower case. -/
def hexDigits : (width n : Nat) → List Char
  | 0, _ => []
  | width + 1, n => hexDigits width (n / 16) ++ [Nat.digitChar (n % 16)]

/-- How one character is written between quotes of the kind `quote`. -/
def escape (quote c : Char) : List Char :=
  if c = quote ∨ c = '\\' then ['\\', c]
  else if c = '\n' then ['\\', 'n']
  else if c = '\r' then ['\\', 'r']
  else if c = '\t' then ['\\', 't']
  else if isPrintable c then [c]
  else if c.toNat < 0x100 then '\\' :: 'x' :: hexDigits 2 c.toNat
  else if c.toNat < 0x10000 then '\\' :: 'u' :: hexDigits 4 c.toNat
  else '\\' :: 'U' :: hexDigits 8 c.toNat

/-- The kind of quote that `chars` is written between. -/
def quoteFor (chars : List Char) : Char :=
  if chars.contains '\'' && !chars.contains '"' then '"' else '\''

/-- The text between quotes. -/
def quote (text : String) : String :=
  let mark := quoteFor text.toList
  String.ofList (mark :: text.toList.flatMap (escape mark) ++ [mark])

end Abacus.Text
