import Regen.Command.Flag
import Regen.Fault

/-! Options of the command that updates files, read from the words of the
command line. Plain words are the files; they stand together, and words that
nothing can be made of are reported all at once. -/
namespace Regen

structure Options where
  paths : List String := []
  /-- Whether to back files up, where the command line says so. -/
  backup : Option Bool := none
  backupDirectory : Option String := none
  /-- Definitions of variables as they were written. -/
  definitions : List String := []
  config : Option String := none
  verbosity : Int := 1
deriving DecidableEq, Repr

/-- Why a command line leads to no options: it asks for a text, it is wrong at
some level, or a value cannot be taken. -/
inductive Diversion where
  | shows (text : String)
  | faulty (program : String) (fault : UsageFault)
  | escape (escape : Escape)
deriving Repr

namespace Options

/-- The name of the command. -/
def command : String := "update"

/-- The first level of the command line. -/
def outer : Level := ⟨"readmix", [.help, .version]⟩

/-- The level of the command. -/
def inner : Level :=
  ⟨outer.program ++ " " ++ command,
    [.help, .backup, .backupDirectory, .definition, .config, .verbosity]⟩

/-- The name and version of the program. -/
def versionText : String := outer.program ++ " 1.0.0\n"

/-- How the program is used. -/
def helpText : String :=
  s!"usage: {inner.program} [-h] [--backup | --no-backup] [-d BACKUPDIR] [--var KEY=VALUE]\n" ++
    "                      [-c CONFIG] [-v]\n" ++
    "                      PATH [PATH ...]\n"

/-- The value of a flag. A double dash is not counted as one. -/
def valueOf (value : Option Text) : Except Diversion String :=
  let text := String.ofList (value.getD [])
  if text = Word.dividerText then
    .error (.escape ⟨.badValue, "not enough values to unpack (expected 1, got 0)"⟩)
  else .ok text

/-- The options with one flag taken into account. -/
def take (options : Options) (spelled : Spelled) : Except Diversion Options :=
  match spelled.flag with
  | .help => .error (.shows helpText)
  | .version => .error (.shows versionText)
  | .backup => .ok { options with backup := some (spelled.spelling = "--backup") }
  | .verbosity => .ok { options with verbosity := options.verbosity + 1 }
  | .backupDirectory => do
    return { options with backupDirectory := some (← valueOf spelled.value) }
  | .config => do return { options with config := some (← valueOf spelled.value) }
  | .definition => do
    return { options with definitions := options.definitions ++ [← valueOf spelled.value] }

/-- The options with several flags taken into account. -/
def takeAll (options : Options) (all : List Spelled) : Except Diversion Options :=
  all.foldlM take options

/-- What has been made of the words so far. -/
structure Gathered where
  options : Options
  /-- Whether the files have been named and a flag came after them. -/
  closed : Bool
  unrecognized : List String
deriving DecidableEq, Repr

namespace Gathered

/-- Before any word. -/
def empty : Gathered := ⟨{}, false, []⟩

/-- A word that names no flag. -/
def addPlain (gathered : Gathered) (word : Word) : Gathered :=
  if gathered.closed then
    { gathered with unrecognized := gathered.unrecognized ++ [word.text] }
  else match word with
    | .plain text =>
      { gathered with options := { gathered.options with paths := gathered.options.paths ++ [text] } }
    | _ => gathered

/-- A word with a flag, which ends the files if there are any. -/
def close (gathered : Gathered) : Gathered :=
  { gathered with closed := gathered.closed || !gathered.options.paths.isEmpty }

/-- A word with a flag that is not known. -/
def addUnknown (gathered : Gathered) (text : String) : Gathered :=
  { gathered.close with unrecognized := gathered.unrecognized ++ [text] }

/-- A word with flags. -/
def addFlags (gathered : Gathered) (all : List Spelled) : Except Diversion Gathered :=
  (gathered.options.takeAll all).map fun options => { gathered.close with options := options }

end Gathered

/-- The last of some flags, if it still has to be given its value. -/
def lacking? (all : List Spelled) : Option Spelled :=
  match all.getLast? with
  | some spelled => if spelled.flag.takesValue && spelled.value.isNone then some spelled else none
  | none => none

/-- Some flags with the value of the last one put in. -/
def supplied (all : List Spelled) (value : String) : List Spelled :=
  match all.getLast? with
  | some spelled => all.dropLast ++ [{ spelled with value := some value.toList }]
  | none => all

/-- Gathers the options of the command from its words. -/
def gather (gathered : Gathered) : List Word → Except Diversion Gathered
  | [] => .ok gathered
  | .plain text :: more => gather (gathered.addPlain (.plain text)) more
  | .divider :: more => gather (gathered.addPlain .divider) more
  | .flag text none :: more => gather (gathered.addUnknown text) more
  | .flag _ (some spelled) :: more =>
    match inner.flagsIn spelled with
    | .error fault => .error (.faulty inner.program fault)
    | .ok all =>
      match lacking? all with
      | none =>
        match gathered.addFlags all with
        | .error diversion => .error diversion
        | .ok gathered => gather gathered more
      | some last =>
        match more with
        | .plain value :: more =>
          match gathered.addFlags (supplied all value) with
          | .error diversion => .error diversion
          | .ok gathered => gather gathered more
        | _ => .error (.faulty inner.program (.noValue last.flag))

/-- The words of the command, the command itself first, and the words before it
that nothing can be made of. -/
def findCommand (unrecognized : List String) :
    List Word → Except Diversion (List String × List String)
  | [] => .error (.faulty outer.program (.required "command"))
  | .plain text :: more => .ok (text :: more.map Word.text, unrecognized)
  | .divider :: more =>
    if more.isEmpty then .error (.faulty outer.program (.required "command"))
    else .ok (Word.dividerText :: more.map Word.text, unrecognized)
  | .flag text none :: more => findCommand (unrecognized ++ [text]) more
  | .flag _ (some spelled) :: more =>
    match outer.flagsIn spelled with
    | .error fault => .error (.faulty outer.program fault)
    | .ok all =>
      match takeAll {} all with
      | .error diversion => .error diversion
      | .ok _ => findCommand unrecognized more

/-- Gathers the options of the command from its words as given. -/
def gatherText (words : List String) : Except Diversion Gathered :=
  match inner.readAll words with
  | .error fault => .error (.faulty inner.program fault)
  | .ok words =>
    match gather .empty words with
    | .error diversion => .error diversion
    | .ok gathered =>
      if gathered.options.paths.isEmpty then .error (.faulty inner.program (.required "PATH"))
      else .ok gathered

/-- Reads a command line. -/
def read (words : List String) : Except Diversion Options :=
  match outer.readAll words with
  | .error fault => .error (.faulty outer.program fault)
  | .ok read =>
    match findCommand [] read with
    | .error diversion => .error diversion
    | .ok (found, before) =>
      if found.head? ≠ some command then
        .error (.faulty outer.program (.unknownCommand (found.headD "") [command]))
      else match gatherText found.tail with
        | .error diversion => .error diversion
        | .ok gathered =>
          let unrecognized := before ++ gathered.unrecognized
          if unrecognized.isEmpty then .ok gathered.options
          else .error (.faulty outer.program (.unrecognized unrecognized))

end Options
end Regen
