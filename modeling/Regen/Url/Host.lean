import Regen.Text.Digit
import Regen.Text.Quoted

/-! Hosts in square brackets: addresses of internet protocol version six or of a
later version. -/
namespace Regen.Url

/-- Why the host part of an address is refused. -/
inductive HostFault where
  | brackets
  | noAddress (host : Text)
  | versionFour
  | laterVersion
deriving DecidableEq, Repr

/-- The complaint about a host. -/
def HostFault.message : HostFault → String
  | .brackets => "Invalid IPv6 URL"
  | .noAddress host =>
    String.ofList (Text.quoted host) ++ " does not appear to be an IPv4 or IPv6 address"
  | .versionFour => "An IPv4 address cannot be in brackets"
  | .laterVersion => "IPvFuture address is invalid"

/-- A hexadecimal digit. -/
def isHexDigit (c : Char) : Bool :=
  Text.isAsciiDigit c || ('a' ≤ c && c ≤ 'f') || ('A' ≤ c && c ≤ 'F')

/-- A number up to 255 without leading zeros. -/
def isOctet (text : Text) : Bool :=
  !text.isEmpty && text.all Text.isAsciiDigit && text.length ≤ 3 &&
    (text == ['0'] || text.head? != some '0') &&
    text.foldl (fun n c => n * 10 + (c.toNat - 48)) 0 ≤ 255

/-- Four octets between dots. -/
def isVersionFour (text : Text) : Bool :=
  let octets := Text.splitOn '.' text
  octets.length == 4 && octets.all isOctet

/-- One to four hexadecimal digits. -/
def isGroup (text : Text) : Bool :=
  !text.isEmpty && text.all isHexDigit && text.length ≤ 4

/-- The groups of an address; an address of version four at the end stands for two. -/
def groups (text : Text) : Option (List Text) :=
  let fields := Text.splitOn ':' text
  let last := fields.getLastD []
  if fields.length < 3 then none
  else if last.contains '.' then
    if isVersionFour last then some (fields.dropLast ++ [['0'], ['0']]) else none
  else some fields

/-- Whether groups make an address: eight of them, or fewer with one gap, which
is an empty group inside and may touch either end. -/
def areGroups (fields : List Text) : Bool :=
  let inner := (fields.drop 1).dropLast
  let gaps := inner.countP List.isEmpty
  if 9 < fields.length || 1 < gaps then false
  else if gaps = 0 then fields.length = 8 && fields.all isGroup
  else
    let gap := (inner.takeWhile fun field => !field.isEmpty).length + 1
    let high := if (fields.headD []).isEmpty then gap - 1 else gap
    let low := fields.length - gap - 1 - if (fields.getLastD []).isEmpty then 1 else 0
    (!(fields.headD []).isEmpty || high = 0) && (!(fields.getLastD []).isEmpty || low = 0) &&
      high + low < 8 && (fields.filter fun field => !field.isEmpty).all isGroup

/-- An address of version six, with or without a zone after a percent sign. -/
def isVersionSix (text : Text) : Bool :=
  let (address, zone) := Text.cutAt '%' text
  let hasZone := match zone with
    | none => true
    | some zone => !zone.isEmpty && !zone.contains '%'
  hasZone && ((groups address).map areGroups).getD false

/-- An address of a later version: the letter v, its number, a dot and anything. -/
def isLaterVersion (text : Text) : Bool :=
  let version := text.drop 1
  let number := version.takeWhile isHexDigit
  !number.isEmpty && match version.drop number.length with
    | '.' :: rest => !rest.isEmpty && !rest.contains '\n'
    | _ => false

/-- What is wrong with a host that stood in brackets. -/
def hostFault? (host : Text) : Option HostFault :=
  if host.head? = some 'v' then if isLaterVersion host then none else some .laterVersion
  else if isVersionFour host then some .versionFour
  else if isVersionSix host then none
  else some (.noAddress host)

/-- What is wrong with the brackets of an authority. Nothing may stand between
the user and the opening bracket, and after the closing one only what a colon begins. -/
def authorityFault? (authority : Text) : Option HostFault :=
  let host := ((Text.splitOn '@' authority).getLast?).getD []
  if authority.contains '[' != authority.contains ']' then some .brackets
  else if !authority.contains '[' then none
  else match Text.cutAt '[' host with
    | (before, some bracketed) =>
      let (inside, after) := Text.cutAt ']' bracketed
      let rest := after.getD []
      if !before.isEmpty then some .brackets
      else if !rest.isEmpty && rest.head? != some ':' then some .brackets
      else hostFault? inside
    | (before, none) => hostFault? (Text.cutAt ':' before).1

end Regen.Url
