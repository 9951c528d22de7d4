import Regen.Text.Blank
import Regen.Text.Digit
import Regen.Text.Quoted

/-! Flags of the command line and the words that name them. A long flag may be
shortened as long as one flag only is meant, a short one may have its value or
further short ones glued to it, and after a double dash no word names a flag. -/
namespace Regen

inductive Flag where
  | help
  | version
  | backup
  | backupDirectory
  | definition
  | config
  | verbosity
deriving DecidableEq, Repr

namespace Flag

/-- The ways to write a flag. -/
def spellings : Flag → List String
  | .help => ["-h", "--help"]
  | .version => ["-V", "--version"]
  | .backup => ["--backup", "--no-backup"]
  | .backupDirectory => ["-d", "--backup-dir"]
  | .definition => ["--var"]
  | .config => ["-c", "--config"]
  | .verbosity => ["-v", "--verbosity"]

/-- Whether a flag comes with a value. -/
def takesValue : Flag → Bool
  | .backupDirectory => true
  | .definition => true
  | .config => true
  | _ => false

/-- A flag in complaints. -/
def label (flag : Flag) : String := "/".intercalate flag.spellings

end Flag

/-- A flag as it was written, with the value glued to it if there is one. -/
structure Spelled where
  flag : Flag
  spelling : String
  value : Option Text
deriving DecidableEq, Repr

/-- What a word of the command line is: a plain word, the double dash, or a word
that names a flag, known or not. -/
inductive Word where
  | plain (text : String)
  | divider
  | flag (text : String) (spelled : Option Spelled)
deriving DecidableEq, Repr

/-- The double dash. -/
def Word.dividerText : String := "--"

/-- A word as it was given. -/
def Word.text : Word → String
  | .plain text => text
  | .divider => dividerText
  | .flag text _ => text

/-- What is wrong with a command line. -/
inductive UsageFault where
  | ambiguous (word : String) (candidates : List String)
  | unwantedValue (flag : Flag) (value : Text)
  | noValue (flag : Flag)
  | required (what : String)
  | unknownCommand (word : String) (known : List String)
  | unrecognized (words : List String)
deriving DecidableEq, Repr

/-- The complaint about a command line. -/
def UsageFault.message : UsageFault → String
  | .ambiguous word candidates =>
    s!"ambiguous option: {word} could match " ++ ", ".intercalate candidates
  | .unwantedValue flag value =>
    s!"argument {flag.label}: ignored explicit argument " ++ String.ofList (Text.quoted value)
  | .noValue flag => s!"argument {flag.label}: expected one argument"
  | .required what => s!"the following arguments are required: {what}"
  | .unknownCommand word known =>
    s!"argument command: invalid choice: {quote word} (choose from " ++
      ", ".intercalate (known.map quote) ++ ")"
  | .unrecognized words => "unrecognized arguments: " ++ " ".intercalate words

/-- A level of the command line: the program as complaints name it, and the
flags known there. -/
structure Level where
  program : String
  flags : List Flag
deriving DecidableEq, Repr

namespace Level

/-- Every way to write a flag of the level. -/
def spelled (level : Level) : List (String × Flag) :=
  level.flags.flatMap fun flag => flag.spellings.map (·, flag)

/-- The flag of an exact spelling. -/
def flag? (level : Level) (spelling : Text) : Option Flag :=
  level.spelled.lookup (String.ofList spelling)

/-- The flags that a word may be short for. -/
def candidates (level : Level) (word : Text) : List Spelled :=
  match word with
  | '-' :: '-' :: _ =>
    let (written, value) := Text.cutAt '=' word
    level.spelled.filterMap fun entry =>
      if written.isPrefixOf entry.1.toList then some ⟨entry.2, entry.1, value⟩ else none
  | dash :: c :: rest =>
    ((level.flag? [dash, c]).map fun flag =>
      ⟨flag, String.ofList [dash, c], some rest⟩).toList
  | _ => []

/-- Whether a word is a negative number, with or without a decimal point; a line
break may end it. -/
def isNegativeNumber (word : Text) : Bool :=
  match word with
  | '-' :: rest =>
    let whole := rest.takeWhile Text.isDecimalDigit
    match rest.drop whole.length with
    | [] => !whole.isEmpty
    | ['\n'] => !whole.isEmpty
    | '.' :: decimals =>
      let places := decimals.takeWhile Text.isDecimalDigit
      let after := decimals.drop places.length
      !places.isEmpty && (after == [] || after == ['\n'])
    | _ => false
  | _ => false

/-- The flag that a word names exactly, perhaps with a value after an equals
sign. -/
def named? (level : Level) (word : Text) : Option Spelled :=
  match level.flag? word with
  | some flag => some ⟨flag, String.ofList word, none⟩
  | none =>
    match Text.cutAt '=' word with
    | (_, none) => none
    | (written, some value) =>
      (level.flag? written).map fun flag => ⟨flag, String.ofList written, some value⟩

/-- What a word is that stands before any double dash. -/
def read (level : Level) (text : String) : Except UsageFault Word :=
  let word := text.toList
  if word.head? ≠ some '-' || word = ['-'] then .ok (.plain text)
  else match level.named? word with
    | some found => .ok (.flag text (some found))
    | none =>
      match level.candidates word with
      | [found] => .ok (.flag text (some found))
      | [] =>
        if isNegativeNumber word || word.contains ' ' then .ok (.plain text)
        else .ok (.flag text none)
      | several => .error (.ambiguous text (several.map Spelled.spelling))

/-- What the words of a command line are. -/
def readAll (level : Level) : List String → Except UsageFault (List Word)
  | [] => .ok []
  | text :: more =>
    if text = Word.dividerText then .ok (.divider :: more.map .plain)
    else do
      let word ← level.read text
      let words ← readAll level more
      return word :: words

/-- The flags in a word that names a flag, given the value glued to it. The
value of a short flag that takes none holds further short flags. -/
def unfold (level : Level) (flag : Flag) (spelling : String) (value : Text) :
    Except UsageFault (List Spelled) :=
  if flag.takesValue then .ok [⟨flag, spelling, some value⟩]
  else match value with
    | [] => .error (.unwantedValue flag value)
    | c :: rest =>
      if spelling.length ≠ 2 then .error (.unwantedValue flag value)
      else match level.flag? ['-', c] with
        | none => .error (.unwantedValue flag value)
        | some next =>
          let written := String.ofList ['-', c]
          if rest.isEmpty then .ok [⟨flag, spelling, none⟩, ⟨next, written, none⟩]
          else (unfold level next written rest).map (⟨flag, spelling, none⟩ :: ·)
termination_by value.length

/-- The flags that a flag as written stands for. -/
def flagsIn (level : Level) (spelled : Spelled) : Except UsageFault (List Spelled) :=
  match spelled.value with
  | none => .ok [spelled]
  | some value => level.unfold spelled.flag spelled.spelling value

end Level
end Regen
