import Regen.Text.Utf8

/-! UTF-8 read in pieces. Bytes at the end of a piece that may begin a character
go before the next piece, so the characters are those of the whole; but where a
piece cannot be read, the place is counted from the first byte at hand. -/
namespace Regen.Utf8

/-- The number of bytes in a piece. -/
def pieceSize : Nat := 8192

/-- The pieces of bytes, all but the last one full. -/
def pieces (bytes : List UInt8) : List (List UInt8) :=
  if bytes.length ≤ pieceSize then [bytes]
  else bytes.take pieceSize :: pieces (bytes.drop pieceSize)
termination_by bytes.length
decreasing_by
  simp only [List.length_drop, pieceSize] at *
  omega

/-- The pieces make up the bytes. -/
theorem flatten_pieces (bytes : List UInt8) : (pieces bytes).flatten = bytes := by
  fun_induction pieces bytes with
  | case1 bytes short => simp
  | case2 bytes long ih => rw [List.flatten_cons, ih, List.take_append_drop]

/-- Whether a fault is one of bytes that end too early. The first two bytes of a
surrogate, which is no character, are told only from a third. -/
def awaitsMore (bytes : List UInt8) (fault : Fault) : Bool :=
  match fault.defect, bytes.drop fault.offset with
  | .truncated, _ => true
  | .continuation, [lead, second] => lead == 0xED && 0xA0 ≤ second && second ≤ 0xBF
  | _, _ => false

/-- The fault of the first piece that cannot be read, where `left` is what the
piece before left over; in the end nothing is waited for. -/
def pieceFault? (left : List UInt8) : List (List UInt8) → Option Fault
  | [] =>
    match decode left with
    | .ok _ => none
    | .error fault => some fault
  | piece :: more =>
    match decode (left ++ piece) with
    | .ok _ => pieceFault? [] more
    | .error fault =>
      if awaitsMore (left ++ piece) fault then pieceFault? ((left ++ piece).drop fault.offset) more
      else some fault

/-- The characters the bytes spell, read in pieces. -/
def decodeInPieces (bytes : List UInt8) : Except Fault Text :=
  (decode bytes).mapError fun fault => (pieceFault? [] (pieces bytes)).getD fault

end Regen.Utf8
