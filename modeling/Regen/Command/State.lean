import Regen.Command.Options
import Regen.Pipeline
import Regen.Project

/-! The state of a run of the command: the options it was given and what its
stages have found out so far. A stage takes a state to the next one, or stops
the run. -/
namespace Regen

namespace Run

/-- A run through stages, each taking up where the one before it ended. -/
def through {ε σ : Type} (state : σ) : List (σ → Run ε σ) → Run ε σ
  | [] => .pure state
  | stage :: more => (stage state).bind fun next => through next more

/-- A run through two lists of stages is one through the first, then one
through the second. -/
theorem through_append {ε σ : Type} (state : σ) (first second : List (σ → Run ε σ)) :
    through state (first ++ second) = (through state first).bind fun next => through next second := by
  induction first generalizing state with
  | nil => simp [through, Run.bind, Run.pure, Run.ofExcept]
  | cons stage more ih =>
    simp only [List.cons_append, through, ih]
    exact (bind_assoc ..).symm

end Run

namespace Command

/-- What a run of the command knows. -/
structure State extends Options where
  environmentOk : Bool := false
  project : Option Project := none
  vars : Entries := []
  pipeline : Option Pipeline := none
  /-- The report on each file, none for a file that was updated. -/
  results : Assoc String (Option String) := []
  exitCode : Int := 0

/-- Why a run of the command stops before its end. -/
inductive Stop where
  | complaint (text : String)
  | escape (escape : Escape)
deriving Repr

/-- The state in which a run with some options begins. -/
def State.ofOptions (options : Options) : State := { options with }

end Command
end Regen
