import Regen.Text.Quoted

/-! UTF-8. Reading either gives every character or names the first bytes that
cannot be read and why; a lenient reading puts one replacement character for
each such stretch instead. -/
namespace Regen.Utf8

/-- Why bytes are no character: the first cannot begin one, a later one cannot
continue it, or the bytes end inside it. -/
inductive Defect where
  | start
  | continuation
  | truncated
deriving DecidableEq, Repr

/-- The outcome of reading one character: it and its width, or a defect and
the number of bytes it takes up. -/
inductive Reading where
  | char (c : Char) (width : Nat)
  | defect (d : Defect) (width : Nat)
deriving DecidableEq, Repr

private def isTail (b : UInt8) : Bool := 0x80 ≤ b && b ≤ 0xBF

/-- The bounds of the byte after a leading byte: they leave out overlong
forms, surrogates and everything above the last code point. -/
def secondBounds (lead : UInt8) : UInt8 × UInt8 :=
  if lead == 0xE0 then (0xA0, 0xBF)
  else if lead == 0xED then (0x80, 0x9F)
  else if lead == 0xF0 then (0x90, 0xBF)
  else if lead == 0xF4 then (0x80, 0x8F)
  else (0x80, 0xBF)

private def isSecond (lead b : UInt8) : Bool :=
  (secondBounds lead).1 ≤ b && b ≤ (secondBounds lead).2

private def low (b : UInt8) : Nat := b.toNat % 64

/-- Reads the character that begins with `lead`. -/
def readChar (lead : UInt8) (rest : List UInt8) : Reading :=
  if lead < 0x80 then .char (Char.ofNat lead.toNat) 1
  else if lead < 0xC2 || 0xF4 < lead then .defect .start 1
  else match rest with
    | [] => .defect .truncated 1
    | b :: rest =>
      if !isSecond lead b then .defect .continuation 1
      else if lead < 0xE0 then .char (Char.ofNat (lead.toNat % 32 * 64 + low b)) 2
      else match rest with
        | [] => .defect .truncated 2
        | c :: rest =>
          if !isTail c then .defect .continuation 2
          else if lead < 0xF0 then
            .char (Char.ofNat ((lead.toNat % 16 * 64 + low b) * 64 + low c)) 3
          else match rest with
            | [] => .defect .truncated 3
            | d :: _ =>
              if !isTail d then .defect .continuation 3
              else .char (Char.ofNat (((lead.toNat % 8 * 64 + low b) * 64 + low c) * 64 + low d)) 4

/-- Where reading stopped: the offset of the first byte, the number of bytes
and the byte itself. -/
structure Fault where
  offset : Nat
  width : Nat
  byte : UInt8
  defect : Defect
deriving DecidableEq, Repr

/-- Reads on from `offset`; `skip` bytes belong to a character read already. -/
def decodeFrom (offset skip : Nat) : List UInt8 → Except Fault Text
  | [] => .ok []
  | b :: rest =>
    match skip with
    | skip + 1 => decodeFrom (offset + 1) skip rest
    | 0 =>
      match readChar b rest with
      | .char c width => (decodeFrom (offset + 1) (width - 1) rest).map (c :: ·)
      | .defect d width => .error ⟨offset, width, b, d⟩

/-- The characters the bytes spell. -/
def decode (bytes : List UInt8) : Except Fault Text :=
  decodeFrom 0 0 bytes

/-- Reads on leniently; `skip` bytes belong to what was read already. -/
def decodeLenientFrom (skip : Nat) : List UInt8 → Text
  | [] => []
  | b :: rest =>
    match skip with
    | skip + 1 => decodeLenientFrom skip rest
    | 0 =>
      match readChar b rest with
      | .char c width => c :: decodeLenientFrom (width - 1) rest
      | .defect _ width => '\uFFFD' :: decodeLenientFrom (width - 1) rest

/-- The characters the bytes spell, with U+FFFD for each stretch that spells none. -/
def decodeLenient (bytes : List UInt8) : Text :=
  decodeLenientFrom 0 bytes

/-- The bytes that spell a text. -/
def encode (text : Text) : List UInt8 :=
  text.flatMap String.utf8EncodeChar

/-- The complaint about bytes that cannot be read. -/
def Fault.message (fault : Fault) : String :=
  let reason := match fault.defect with
    | .start => "invalid start byte"
    | .continuation => "invalid continuation byte"
    | .truncated => "unexpected end of data"
  if fault.width = 1 then
    let hex := String.ofList (Text.hexDigits 2 fault.byte.toNat)
    s!"'utf-8' codec can't decode byte 0x{hex} in position {fault.offset}: {reason}"
  else
    let last := fault.offset + fault.width - 1
    s!"'utf-8' codec can't decode bytes in position {fault.offset}-{last}: {reason}"

end Regen.Utf8
