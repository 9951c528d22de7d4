import Regen.Url.Host

/-! Addresses of documents: reading them, writing them, and joining a reference
to the address it is relative to. -/
namespace Regen

/-- An address: `scheme://authority/path?query#fragment`, parts that are absent
being empty. -/
structure Url where
  scheme : Text
  authority : Text
  path : Text
  query : Text
  fragment : Text
deriving DecidableEq, Repr

namespace Url

/-- Why a text is no address. -/
inductive Fault where
  | host (fault : HostFault)
  | expands (authority : Text)
deriving DecidableEq, Repr

/-- The complaint about a text that is no address. -/
def Fault.message : Fault → String
  | .host fault => fault.message
  | .expands authority =>
    "netloc '" ++ String.ofList authority ++
      "' contains invalid characters under NFKC normalization"

/-- A character that may begin an address without belonging to it: controls and
the space. -/
def isMargin (c : Char) : Bool := c.toNat ≤ 32

/-- A character that is left out wherever it stands. -/
def isDropped (c : Char) : Bool := c == '\t' || c == '\r' || c == '\n'

/-- An ASCII letter. -/
def isLetter (c : Char) : Bool := ('a' ≤ c && c ≤ 'z') || ('A' ≤ c && c ≤ 'Z')

/-- A character of a scheme. -/
def isSchemeChar (c : Char) : Bool :=
  isLetter c || Text.isAsciiDigit c || c == '+' || c == '-' || c == '.'

/-- A character that ends an authority. -/
def endsAuthority (c : Char) : Bool := c == '/' || c == '?' || c == '#'

/-- The characters, by code point, whose compatibility forms contain a
character that separates the parts of an address. -/
def expanding : List Nat :=
  [0x2047, 0x2048, 0x2049, 0x2100, 0x2101, 0x2105, 0x2106, 0x2A74, 0xFE13, 0xFE16, 0xFE55, 0xFE56,
   0xFE5F, 0xFE6B, 0xFF03, 0xFF0F, 0xFF1A, 0xFF1F, 0xFF20]

/-- The scheme in front of a text, in lower case, and the text after its colon. -/
def readScheme (text : Text) : Option (Text × Text) :=
  match Text.cutAt ':' text with
  | (first :: name, some rest) =>
    if isLetter first && name.all isSchemeChar then some ((first :: name).map Char.toLower, rest)
    else none
  | _ => none

/-- The authority after two slashes, and the text after it. -/
def readAuthority : Text → Text × Text
  | '/' :: '/' :: rest =>
    (rest.takeWhile fun c => !endsAuthority c, rest.dropWhile fun c => !endsAuthority c)
  | text => ([], text)

/-- Reads an address; `scheme` is the one it has where it states none. -/
def read (scheme text : Text) : Except Fault Url :=
  let text := (text.dropWhile isMargin).filter fun c => !isDropped c
  let (scheme, text) := (readScheme text).getD (scheme, text)
  let (authority, text) := readAuthority text
  match authorityFault? authority with
  | some fault => .error (.host fault)
  | none =>
    let (text, fragment) := Text.cutAt '#' text
    let (path, query) := Text.cutAt '?' text
    if authority.any fun c => expanding.contains c.toNat then .error (.expands authority)
    else .ok ⟨scheme, authority, path, query.getD [], fragment.getD []⟩

/-- Writes an address; between an authority and a path stands a slash, and a
query or fragment that is empty is left out. -/
def write (url : Url) : Text :=
  let path := if url.path.isEmpty || url.path.head? = some '/' then url.path else '/' :: url.path
  url.scheme ++ ':' :: '/' :: '/' :: url.authority ++ path ++
    (if url.query.isEmpty then [] else '?' :: url.query) ++
    (if url.fragment.isEmpty then [] else '#' :: url.fragment)

/-- A path without the parameters of its last segment, and these. -/
def cutParameters (path : Text) : Text × Text :=
  let segment := (path.reverse.takeWhile (· ≠ '/')).reverse
  let (name, parameters) := Text.cutAt ';' segment
  (path.take (path.length - segment.length) ++ name, parameters.getD [])

/-- The segments that remain when single dots are left out and two dots take
away the segment before them. -/
def resolveDots (segments : List Text) : List Text :=
  segments.foldl
    (fun kept segment =>
      if segment = ['.', '.'] then kept.dropLast
      else if segment = ['.'] then kept
      else kept ++ [segment])
    []

/-- The segments of a base path that a relative path continues. -/
def directory (path : Text) : List Text :=
  let segments := Text.splitOn '/' path
  if segments.getLastD [] = [] then segments else segments.dropLast

/-- The path that a path leads to from a base path. -/
def joinPath (base path : Text) : Text :=
  let segments :=
    if path.head? = some '/' then Text.splitOn '/' path
    else Text.dropEmptyInner (directory base ++ Text.splitOn '/' path)
  let last := segments.getLastD []
  let kept := resolveDots segments ++ if last = ['.'] || last = ['.', '.'] then [[]] else []
  let joined := Text.joinWith ['/'] kept
  if joined.isEmpty then ['/'] else joined

/-- A path with parameters after its last segment. -/
def withParameters (path parameters : Text) : Text :=
  if parameters.isEmpty then path else path ++ ';' :: parameters

/-- The address of a reference that was read with the scheme of its base. -/
def joinUrl (base reference : Url) : Url :=
  let (path, parameters) := cutParameters reference.path
  if !reference.authority.isEmpty then
    { reference with path := withParameters path parameters }
  else if path.isEmpty && parameters.isEmpty then
    { base with
      query := if reference.query.isEmpty then base.query else reference.query
      fragment := reference.fragment }
  else
    { base with
      path := withParameters (joinPath (cutParameters base.path).1 path) parameters
      query := reference.query
      fragment := reference.fragment }

/-- The address a reference denotes on the page at `base`; a reference with a
scheme of its own stands as it is. -/
def join (base : Url) (reference : Text) : Except Fault Text :=
  if reference.isEmpty then .ok base.write
  else match read base.scheme reference with
    | .error fault => .error fault
    | .ok url => .ok (if url.scheme = base.scheme then (joinUrl base url).write else reference)

end Url
end Regen
