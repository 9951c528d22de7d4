import Regen.Scope

/-! References to objects, written as a module and a name in it with a
colon between them. Importing a module and making an object run code of the
project; what comes of it is an outside matter and enters as a function. -/
namespace Regen

/-- Objects by name. Looking one up, and making it if it has to be made, may fail. -/
abbrev Objects := Assoc String (Except Escape Supplied)

/-- What becomes of importing a module. -/
inductive Import where
  | objects (objects : Objects)
  /-- The module, or one that it needs, cannot be imported. -/
  | refused (why : String)
  /-- Another failure on the way. -/
  | escape (escape : Escape)

/-- What becomes of importing the module of a name. -/
abbrev Modules := String → Import

/-- A named object of a module. -/
structure Reference where
  home : String
  name : String
deriving DecidableEq, Repr

namespace Reference

/-- Reads a reference; both of its parts have to be there. -/
def read? (text : String) : Option Reference :=
  match Text.cutAt ':' text.toList with
  | (_, none) => none
  | (home, some name) =>
    if home.isEmpty || name.isEmpty then none
    else some ⟨String.ofList home, String.ofList name⟩

/-- The written form. -/
def text (reference : Reference) : String := reference.home ++ ":" ++ reference.name

/-- A reference is its two parts with a colon between them. -/
theorem text_of_read? {text : String} {reference : Reference}
    (found : read? text = some reference) : reference.text = text := by
  have whole := Text.cutAt_restores ':' text.toList
  unfold read? at found
  split at found
  · cases found
  · rename_i home name cut
    split at found
    · cases found
    · cases found
      rw [cut] at whole
      simp only [Option.elim_some] at whole
      apply String.toList_inj.1
      simp [Reference.text, ← whole]

end Reference

/-- Why a reference leads to nothing. -/
inductive ReferenceFault where
  | malformed (text : String)
  | noModule (reference : Reference) (why : String)
  | noObject (reference : Reference)
deriving DecidableEq, Repr

/-- The complaint about a reference. -/
def ReferenceFault.message : ReferenceFault → String
  | .malformed text => s!"invalid reference {quote text}, expected 'module:attr'"
  | .noModule reference why =>
    s!"cannot import {quote reference.home} for {quote reference.text}: {why}"
  | .noObject reference => s!"{quote reference.home} has no attribute {quote reference.name}"

/-- Why no object comes of a reference: it leads to nothing, or following it fails. -/
inductive ReferenceStop where
  | fault (fault : ReferenceFault)
  | escape (escape : Escape)
deriving Repr

namespace Modules

/-- The modules of a table, which hold no further modules. What is missing is the
module before the first dot, or the one that would have to lie inside it. -/
def flat (table : Assoc String Objects) : Modules := fun home =>
  match Text.cutAt '.' home.toList with
  | (_, none) =>
    match table.get? home with
    | some objects => .objects objects
    | none => .refused s!"No module named {quote home}"
  | (first, some rest) =>
    let outer := String.ofList first
    if table.has outer then
      let inner := String.ofList (first ++ '.' :: (Text.cutAt '.' rest).1)
      .refused s!"No module named {quote inner}; {quote outer} is not a package"
    else .refused s!"No module named {quote outer}"

/-- What becomes of importing a module. One that is named relative to another has
none to start from. -/
def load (modules : Modules) (home : String) : Import :=
  if home.toList.head? = some '.' then
    .escape ⟨.badType,
      s!"the 'package' argument is required to perform a relative import for {quote home}"⟩
  else modules home

/-- The object that a text refers to. -/
def resolve (modules : Modules) (text : String) : Except ReferenceStop Supplied :=
  match Reference.read? text with
  | none => .error (.fault (.malformed text))
  | some reference =>
    match modules.load reference.home with
    | .refused why => .error (.fault (.noModule reference why))
    | .escape found => .error (.escape found)
    | .objects objects =>
      match objects.get? reference.name with
      | none => .error (.fault (.noObject reference))
      | some made => made.mapError .escape

end Modules
end Regen
