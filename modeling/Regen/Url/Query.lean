import Regen.Text.Utf8
import Regen.Url

/-! Queries: fields `name=value` between ampersands, in which a plus sign stands
for a space and a percent sign with two hexadecimal digits for a byte. -/
namespace Regen.Url.Query

/-- The value of a hexadecimal digit. -/
def hexValue (c : Char) : Nat :=
  if Text.isAsciiDigit c then c.toNat - 48
  else if 'a' ≤ c && c ≤ 'f' then c.toNat - 87
  else c.toNat - 55

/-- The bytes that an ASCII text stands for. -/
def bytesOf : Text → List UInt8
  | '%' :: high :: low :: rest =>
    if isHexDigit high && isHexDigit low then
      UInt8.ofNat (hexValue high * 16 + hexValue low) :: bytesOf rest
    else UInt8.ofNat '%'.toNat :: bytesOf (high :: low :: rest)
  | c :: rest => UInt8.ofNat c.toNat :: bytesOf rest
  | [] => []

/-- An ASCII character. -/
def isAscii (c : Char) : Bool := c.toNat < 128

/-- The text that percent signs stand for; `run` is the ASCII text read before,
in reverse order. Bytes that spell no text in such a run are replaced. -/
def decodeFrom (run : Text) : Text → Text
  | [] => Utf8.decodeLenient (bytesOf run.reverse)
  | c :: rest =>
    if isAscii c then decodeFrom (c :: run) rest
    else Utf8.decodeLenient (bytesOf run.reverse) ++ c :: decodeFrom [] rest

/-- The text a name or value stands for. -/
def decode (text : Text) : Text :=
  decodeFrom [] (text.map fun c => if c = '+' then ' ' else c)

/-- The fields of a query that have a value, in order. -/
def fields (query : Text) : List (Text × Text) :=
  (Text.splitOn '&' query).filterMap fun field =>
    match Text.cutAt '=' field with
    | (name, some value) => if value.isEmpty then none else some (decode name, decode value)
    | (_, none) => none

/-- A character that a query holds as itself. -/
def isUnreserved (c : Char) : Bool :=
  isLetter c || Text.isAsciiDigit c || c == '_' || c == '.' || c == '-' || c == '~'

/-- A hexadecimal digit in upper case. -/
def upperDigit (n : Nat) : Char :=
  if n < 10 then Char.ofNat (48 + n) else Char.ofNat (55 + n)

/-- A byte behind a percent sign. -/
def encodeByte (b : UInt8) : Text :=
  ['%', upperDigit (b.toNat / 16), upperDigit (b.toNat % 16)]

/-- A character as a query holds it. -/
def encodeChar (c : Char) : Text :=
  if c = ' ' then ['+']
  else if isUnreserved c then [c]
  else (Utf8.encode [c]).flatMap encodeByte

/-- A text as a query holds it. -/
def encode (text : Text) : Text :=
  text.flatMap encodeChar

end Regen.Url.Query
