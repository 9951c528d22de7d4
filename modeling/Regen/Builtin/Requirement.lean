import Regen.Generator
import Regen.Text.Digit

/-! Requirements: the snippet that declares a package as a dependency, with a
specifier compatible with a version. -/
namespace Regen

/-- A distribution that is installed. -/
structure Distribution where
  name : String
  version : String
deriving DecidableEq, Repr

namespace Requirement

/-- A version cut into its leading numbers and what follows them. -/
structure Release where
  major : Text
  minor : Option Text
  micro : Option Text
  rest : Text
deriving DecidableEq, Repr

/-- The number after a dot at the beginning of a text, and what follows it. -/
def takeComponent (text : Text) : Option Text × Text :=
  match text with
  | '.' :: rest =>
    let digits := rest.takeWhile Text.isDecimalDigit
    if digits.isEmpty then (none, text) else (some digits, rest.drop digits.length)
  | text => (none, text)

/-- Reads a version, which begins with a number and is on one line. -/
def readRelease (version : Text) : Option Release :=
  let major := version.takeWhile Text.isDecimalDigit
  if major.isEmpty || version.contains '\n' then none
  else
    let (minor, rest) := takeComponent (version.drop major.length)
    let (micro, rest) := takeComponent rest
    some ⟨major, minor, micro, rest⟩

/-- The version as a specifier has it: at least two numbers, and no more than
two unless the patch is wanted. -/
def Release.trim (release : Release) (patch : Bool) : Text :=
  let base := release.major ++ '.' :: release.minor.getD ['0']
  if patch then base ++ (release.micro.elim [] ('.' :: ·)) ++ release.rest else base

/-- The version of a specifier from a version as given. -/
def trimVersion (version : Text) (patch : Bool) : Option Text :=
  (readRelease (Text.strip version)).map (·.trim patch)

/-- The complaint about a text that is no version. -/
def invalidVersion (version : String) : String :=
  "invalid version " ++ quote version

/-- The names between commas, blank ones left out. -/
def names (listed : String) : List Text :=
  ((Text.splitOn ',' listed.toList).map Text.strip).filter fun name => !name.isEmpty

/-- The requirement of a package in a version, with extras. -/
def write (package version extras : String) : Text :=
  let listed := names extras
  let bracketed :=
    if listed.isEmpty then [] else '[' :: Text.joinWith [','] listed ++ [']']
  package.toList ++ bracketed ++ '~' :: '=' :: version.toList

/-- A character that joins the words of a name. -/
def isJoint (c : Char) : Bool := c == '-' || c == '_' || c == '.'

/-- A name of a distribution in the form in which names are compared: in lower
case, with one underscore for each run of joints. -/
def normalName (name : String) : Text :=
  let words := (Text.splitWhere isJoint name.toList).map fun word => word.map Char.toLower
  Text.joinWith ['_'] (Text.dropEmptyInner words)

/-- The version installed of a package; none where it is not installed. -/
def installedVersion (installed : List Distribution) (package : Value) :
    Except Escape (Option String) :=
  if !package.isTruthy then .error ⟨.badValue, "A distribution name is required."⟩
  else match package with
    | .text name =>
      .ok ((installed.find? fun found => normalName found.name = normalName name).map
        Distribution.version)
    | other =>
      .error ⟨.badType, s!"expected string or bytes-like object, got '{other.kindName}'"⟩

/-- A text parameter, empty where it is not given. -/
def textParam (params : Table) (key : String) : String :=
  match params.at? key with
  | some (.text s) => s
  | _ => ""

/-- A switch among the parameters. -/
def switchParam (params : Table) (key : String) (standard : Bool) : Bool :=
  match params.at? key with
  | some value => value.isTruthy
  | none => standard

/-- The lines that list an entry under a key. -/
def listing (key entry : Text) : Text :=
  key ++ " = [\n".toList ++ entry ++ "]\n".toList

/-- The snippet with an entry, in optional groups if some are named. -/
def snippet (groups : List Text) (entry : Text) : Text :=
  let body :=
    if groups.isEmpty then "[project]\n".toList ++ listing "dependencies".toList entry
    else "[project.optional-dependencies]\n".toList ++ groups.flatMap (listing · entry)
  "```toml\n".toList ++ body ++ "```\n".toList

/-- The answer for a package in a version as given. -/
def replyFor (params : Table) (package : Value) (version : String) : Reply :=
  match trimVersion version.toList (switchParam params "patch" false) with
  | none => .failure (.tuple [.text "invalid_version", .text (invalidVersion version)])
  | some trimmed =>
    match package.write with
    | .error found => .escape found
    | .ok name =>
      let requirement := write name (String.ofList trimmed) (textParam params "extras")
      let comma := if switchParam params "comma" true then [','] else []
      let entry := "    \"".toList ++ requirement ++ '\x22' :: comma ++ ['\n']
      .content (snippet (names (textParam params "only")) entry)

/-- The package that is meant: the one given, or the one that the variable of
the project names. -/
def package? (params vars : Table) : Option Value :=
  match params.at? "package" with
  | some package => if package.isNone then vars.at? "package_name" else some package
  | none => vars.at? "package_name"

/-- The answer to a request for a requirement. -/
def reply (installed : List Distribution) (params vars : Table) : Reply :=
  match package? params vars with
  | none => .undefined (.text "package_name")
  | some package =>
    match params.at? "vsn" with
    | some (.text version) => replyFor params package version
    | _ =>
      match installedVersion installed package with
      | .error found => .escape found
      | .ok none => .failure (.tuple [.text "package_not_found", package])
      | .ok (some version) => replyFor params package version

end Requirement
end Regen
