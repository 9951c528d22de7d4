import Regen.Text.Cut

/-! Paths. A path is the names on the way from where it starts; empty names and
single dots are left out when it is read, two dots are kept. -/
namespace Regen

/-- A path starts at `root`: nowhere in particular when that is empty, at one
slash, or at exactly two, which is a root of its own. -/
structure Path where
  root : String
  parts : List String
deriving DecidableEq, Repr

namespace Path

/-- The root that a text with some leading slashes starts at. -/
def rootOf (text : Text) : String :=
  match (text.takeWhile (· == '/')).length with
  | 0 => ""
  | 2 => "//"
  | _ => "/"

/-- The names in a text between its slashes. -/
def namesOf (text : Text) : List String :=
  ((Text.splitOn '/' text).map String.ofList).filter fun name => name ≠ "" && name ≠ "."

/-- Reads a path. -/
def ofString (s : String) : Path :=
  ⟨rootOf s.toList, namesOf s.toList⟩

/-- The text of a path; a single dot where nothing else would stand. -/
def text (path : Path) : String :=
  if path.root = "" && path.parts.isEmpty then "."
  else path.root ++ "/".intercalate path.parts

/-- Whether the path starts at a root. -/
def isAbsolute (path : Path) : Bool := path.root ≠ ""

/-- The path from nowhere in particular with the same names. -/
def relative (path : Path) : Path := ⟨"", path.parts⟩

/-- The path that continues one with another; one that starts at a root
replaces what it continues. -/
def join (path other : Path) : Path :=
  if other.isAbsolute then other else ⟨path.root, path.parts ++ other.parts⟩

/-- The path without its last name; a path without names is its own parent. -/
def parent (path : Path) : Path := ⟨path.root, path.parts.dropLast⟩

/-- Whether the path goes up somewhere. -/
def climbs (path : Path) : Bool := path.parts.contains ".."

@[simp] theorem isAbsolute_relative (path : Path) : path.relative.isAbsolute = false := by
  simp [relative, isAbsolute]

theorem join_relative (path other : Path) :
    path.join other.relative = ⟨path.root, path.parts ++ other.parts⟩ := by
  simp [join, relative, isAbsolute]

end Path
end Regen
