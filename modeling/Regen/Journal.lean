import Regen.Fault
import Regen.Header.Grammar

/-! The journal of a run: events, each with the verbosity from which on it is
written down, and runs as values, which are the events they caused and how they
ended. -/
namespace Regen

/-- What happens during a run. -/
inductive Event where
  | title
  | checking
  | configured (shown : String)
  | defined (names : List String)
  | registered (shown namespaceName : String) (actions : Nat)
  | built (shown : String)
  | noMetadata (path : String)
  | reading (path : String)
  | scanned (chunks : Nat) (file : String)
  | resolved (blocks : Nat)
  | rendering (name : Header.ActionName) (file : String) (loc : Position)
  | backupSkipped (path : String)
  | backedUp (path target : String)
  | updated (path : String)
  | finished (succeeded all : Nat)
  | sinkMissing
  | note (level : Int) (message : String)
deriving DecidableEq, Repr

namespace Event

/-- The banner of the command line. -/
def banner : String :=
  "\n                    _           _\n" ++
  "   _ __ ___  __ _  __| |_ __ ___ (_)_  __\n" ++
  "  | '__/ _ \\/ _` |/ _` | '_ ` _ \\| \\ \\/ /\n" ++
  "  | | |  __/ (_| | (_| | | | | | | |>  <\n" ++
  "  |_|  \\___|\\__,_|\\__,_|_| |_| |_|_/_/\\_\\\n" ++
  "\n  Regenerate marked regions of text documents\n"

/-- The least verbosity at which the event is written down. -/
def level : Event → Int
  | .title => 3
  | .checking => 2
  | .configured _ => 2
  | .defined _ => 2
  | .registered .. => 3
  | .built _ => 2
  | .noMetadata _ => 3
  | .reading _ => 2
  | .scanned .. => 3
  | .resolved _ => 3
  | .rendering .. => 3
  | .backupSkipped _ => 3
  | .backedUp .. => 1
  | .updated _ => 1
  | .finished .. => 1
  | .sinkMissing => 3
  | .note level _ => level

/-- The event in words. -/
def message : Event → String
  | .title => banner
  | .checking => "Checking environment..."
  | .configured shown => s!"Project configuration: {shown}"
  | .defined names =>
    let listed := ", ".intercalate names
    "Defined variables: " ++ if listed = "" then "none" else listed
  | .registered shown namespaceName actions =>
    s!"Registered {shown} as {namespaceName} with {actions} actions"
  | .built shown => s!"Built {shown}"
  | .noMetadata path => s!"No {path} found, default variables are empty"
  | .reading path => s!"Reading {path}"
  | .scanned chunks file => s!"Scanned {chunks} chunks from {file}"
  | .resolved blocks => s!"Resolved {blocks} top-level blocks"
  | .rendering name file loc =>
    s!"Rendering {name.namespaceName}:{name.action} at {file}:{loc.text}"
  | .backupSkipped path => s!"Backup disabled, not saving {path}"
  | .backedUp path target => s!"Wrote backup of {path} in {target}"
  | .updated path => s!"Updated {path}"
  | .finished succeeded all => s!"Updated {succeeded} of {all} files"
  | .sinkMissing => "Default loguru handler already removed"
  | .note _ message => message

end Event

/-- Who listens to events: nobody, or a reader at some verbosity. A journal
that has lost its first sink before one was installed says so. -/
structure Journal where
  verbosity : Option Int
  sinkLost : Bool
deriving DecidableEq, Repr

namespace Journal

/-- The journal that nobody reads yet. -/
def idle : Journal := ⟨none, false⟩

/-- Whether an event is written down. -/
def admits (journal : Journal) (event : Event) : Bool :=
  match journal.verbosity with
  | none => false
  | some verbosity => event.level ≤ verbosity

/-- What is written down of some events. -/
def messages (journal : Journal) (events : List Event) : List String :=
  (events.filter journal.admits).map Event.message

/-- The events of installing a sink, and the journal with it. -/
def install (journal : Journal) : List Event × Journal :=
  (if journal.sinkLost then [.sinkMissing] else [], { journal with sinkLost := false })

end Journal

/-- A run: the events it caused, in order, and how it ended. -/
structure Run (ε α : Type) where
  events : List Event
  outcome : Except ε α
deriving Repr

theorem map_eq_ok_iff {ε α β : Type} {f : α → β} {outcome : Except ε α} {b : β} :
    outcome.map f = .ok b ↔ ∃ a, outcome = .ok a ∧ f a = b := by
  cases outcome <;> simp [Except.map]

theorem map_eq_error_iff {ε α β : Type} {f : α → β} {outcome : Except ε α} {e : ε} :
    outcome.map f = .error e ↔ outcome = .error e := by
  cases outcome <;> simp [Except.map]

theorem mapError_ok {ε δ α : Type} (f : ε → δ) (a : α) :
    (Except.ok a : Except ε α).mapError f = .ok a := rfl

theorem mapError_error {ε δ α : Type} (f : ε → δ) (e : ε) :
    (Except.error e : Except ε α).mapError f = .error (f e) := rfl

theorem mapError_eq_ok_iff {ε δ α : Type} {f : ε → δ} {outcome : Except ε α} {a : α} :
    outcome.mapError f = .ok a ↔ outcome = .ok a := by
  cases outcome with
  | error stop => exact iff_of_false nofun nofun
  | ok b =>
    constructor
    · intro same
      cases same
      rfl
    · intro same
      cases same
      rfl

theorem ok_of_toOption {ε α : Type} {outcome : Except ε α} {a : α}
    (found : outcome.toOption = some a) : outcome = .ok a := by
  cases outcome with
  | error e => cases found
  | ok b => exact congrArg Except.ok (Option.some.inj found)

theorem exists_ok_of_toBool {ε α : Type} {outcome : Except ε α} (fine : outcome.toBool = true) :
    ∃ a, outcome = .ok a := by
  cases outcome with
  | error e => cases fine
  | ok a => exact ⟨a, rfl⟩

/-- What does not fail has a value, and no other one is needed in its place. -/
theorem ok_getD_of_toBool {ε α : Type} {outcome : Except ε α} (fine : outcome.toBool = true) (other : α) :
    outcome = .ok (outcome.toOption.getD other) := by
  obtain ⟨a, rfl⟩ := exists_ok_of_toBool fine
  rfl

namespace Run

/-- The run without events that ends as given. -/
def ofExcept {ε α : Type} (outcome : Except ε α) : Run ε α := ⟨[], outcome⟩

/-- The run that ends well at once. -/
def pure {ε α : Type} (a : α) : Run ε α := ofExcept (.ok a)

/-- The run that fails at once. -/
def fail {ε α : Type} (e : ε) : Run ε α := ofExcept (.error e)

/-- The run that causes one event. -/
def record {ε : Type} (event : Event) : Run ε Unit := ⟨[event], .ok ()⟩

/-- A run and, if it ends well, another after it. -/
def bind {ε α β : Type} (run : Run ε α) (next : α → Run ε β) : Run ε β :=
  match run.outcome with
  | .error e => ⟨run.events, .error e⟩
  | .ok a => ⟨run.events ++ (next a).events, (next a).outcome⟩

instance {ε : Type} : Monad (Run ε) where
  pure := Run.pure
  bind := Run.bind

/-- The run with its failure put differently. -/
def mapError {ε δ α : Type} (f : ε → δ) (run : Run ε α) : Run δ α :=
  ⟨run.events, run.outcome.mapError f⟩

@[simp] theorem outcome_pure {ε α : Type} (a : α) : (Run.pure a : Run ε α).outcome = .ok a := rfl

@[simp] theorem outcome_fail {ε α : Type} (e : ε) : (Run.fail e : Run ε α).outcome = .error e := rfl

/-- How a run of two parts ends depends on how its parts end only. -/
@[simp] theorem outcome_bind {ε α β : Type} (run : Run ε α) (next : α → Run ε β) :
    (run.bind next).outcome = run.outcome.bind fun a => (next a).outcome := by
  unfold bind Except.bind
  cases run.outcome <;> rfl

@[simp] theorem outcome_ofExcept {ε α : Type} (outcome : Except ε α) :
    (Run.ofExcept outcome).outcome = outcome := rfl

@[simp] theorem outcome_record {ε : Type} (event : Event) :
    (Run.record event : Run ε Unit).outcome = .ok () := rfl

@[simp] theorem outcome_mapError {ε δ α : Type} (f : ε → δ) (run : Run ε α) :
    (run.mapError f).outcome = run.outcome.mapError f := rfl

theorem outcome_seq {ε α β : Type} (run : Run ε α) (next : α → Run ε β) :
    (run >>= next).outcome = run.outcome.bind fun a => (next a).outcome := outcome_bind run next

theorem outcome_return {ε α : Type} (a : α) : (Pure.pure a : Run ε α).outcome = .ok a := rfl

/-- A run of two parts ends well when both parts do. -/
theorem bind_eq_ok_iff {ε α β : Type} {run : Run ε α} {next : α → Run ε β} {b : β} :
    (run.bind next).outcome = .ok b ↔ ∃ a, run.outcome = .ok a ∧ (next a).outcome = .ok b := by
  rw [outcome_bind]
  cases run.outcome <;> simp [Except.bind]

/-- A failing first part leaves the second one out. -/
theorem bind_of_error {ε α β : Type} {run : Run ε α} {e : ε} (failed : run.outcome = .error e)
    (next : α → Run ε β) : run.bind next = ⟨run.events, .error e⟩ := by
  simp [bind, failed]

/-- A first part that ends well hands its result on. -/
theorem bind_of_ok {ε α β : Type} {run : Run ε α} {a : α} (ended : run.outcome = .ok a)
    (next : α → Run ε β) :
    run.bind next = ⟨run.events ++ (next a).events, (next a).outcome⟩ := by
  simp [bind, ended]

/-- It does not matter how a run of three parts is taken apart. -/
theorem bind_assoc {ε α β γ : Type} (run : Run ε α) (next : α → Run ε β) (last : β → Run ε γ) :
    (run.bind next).bind last = run.bind fun a => (next a).bind last := by
  obtain ⟨events, outcome⟩ := run
  cases outcome with
  | error e => rfl
  | ok a => cases ended : (next a).outcome <;> simp [bind, ended]

end Run
end Regen
