import Regen.Text.Cut
import Regen.Text.Printable

/-! Quoted text, as values are shown in messages. The quotation mark is the
apostrophe unless the text has apostrophes and no double quotation mark; that
mark, the backslash and every character without a picture are escaped. -/
namespace Regen.Text

/-- The digit of a number below sixteen, in lower case. -/
def hexDigit (n : Nat) : Char :=
  if n < 10 then Char.ofNat (48 + n) else Char.ofNat (87 + n)

/-- The last `width` hexadecimal digits of a number. -/
def hexDigits : (width : Nat) → Nat → Text
  | 0, _ => []
  | width + 1, n => hexDigits width (n / 16) ++ [hexDigit (n % 16)]

/-- A character in quoted text, `mark` being the quotation mark around it. -/
def escapeChar (mark c : Char) : Text :=
  if c == mark || c == '\\' then ['\\', c]
  else if c == '\n' then ['\\', 'n']
  else if c == '\r' then ['\\', 'r']
  else if c == '\t' then ['\\', 't']
  else if isPrintable c then [c]
  else if c.toNat < 0x100 then '\\' :: 'x' :: hexDigits 2 c.toNat
  else if c.toNat < 0x10000 then '\\' :: 'u' :: hexDigits 4 c.toNat
  else '\\' :: 'U' :: hexDigits 8 c.toNat

/-- The quotation mark for a text. -/
def quotationMark (text : Text) : Char :=
  if text.contains '\x27' && !text.contains '\x22' then '\x22' else '\x27'

/-- The text between quotation marks, with escapes. -/
def quoted (text : Text) : Text :=
  quotationMark text :: text.flatMap (escapeChar (quotationMark text)) ++ [quotationMark text]

end Regen.Text

/-- A string between quotation marks, with escapes. -/
def Regen.quote (s : String) : String :=
  String.ofList (Text.quoted s.toList)
