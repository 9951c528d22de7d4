import Regen.Text.Blank
import Regen.Text.Digit

/-! Fenced code blocks. A fence is a line of three backticks, the opening one
with the name of a language; the lines up to the closing fence are the code.
Every line of a text is a fence line or belongs to one part. -/
namespace Regen.Fence

/-- A run of lines outside fences, or the code between two. `line` is the number
of the first line. -/
inductive Part where
  | text (line : Int) (content : Text)
  | code (language : Text) (line : Int) (content : Text)
deriving DecidableEq, Repr

/-- A character that the name of a language may have. -/
def isLanguageChar (c : Char) : Bool :=
  ('a' ≤ c && c ≤ 'z') || ('A' ≤ c && c ≤ 'Z') || Text.isAsciiDigit c ||
    c == '_' || c == '+' || c == '.' || c == '-'

/-- Nothing but spaces and tabs. -/
def isPadding (text : Text) : Bool :=
  text.all fun c => c == ' ' || c == '\t'

/-- What follows the three backticks that begin a line, its line break left out. -/
def mark? (line : Text) : Option Text :=
  Text.after? ['\x60', '\x60', '\x60'] (Text.trimNewlines line)

/-- The language of a line that is an opening fence. -/
def opening? (line : Text) : Option Text :=
  (mark? line).bind fun rest =>
    if isPadding (rest.dropWhile isLanguageChar) then some (rest.takeWhile isLanguageChar)
    else none

/-- Whether a line is a closing fence. -/
def isClosing (line : Text) : Bool :=
  match mark? line with
  | some rest => isPadding rest
  | none => false

/-- The lines before the first closing fence and those after it. -/
def untilClosing : List Text → Option (List Text × List Text)
  | [] => none
  | line :: more =>
    if isClosing line then some ([], more)
    else (untilClosing more).map fun found => (line :: found.1, found.2)

theorem length_of_untilClosing {lines code rest : List Text}
    (closed : untilClosing lines = some (code, rest)) : lines.length = code.length + rest.length + 1 := by
  induction lines generalizing code with
  | nil => simp [untilClosing] at closed
  | cons line more ih =>
    unfold untilClosing at closed
    split at closed
    · cases closed; simp
    · obtain ⟨⟨tail, after⟩, inner, same⟩ := Option.map_eq_some_iff.1 closed
      cases same
      simp only [List.length_cons, ih inner]
      omega

/-- The part of a run of lines, which there is unless the run is empty. -/
def ofRun (line : Int) (run : List Text) : List Part :=
  if run.isEmpty then [] else [.text line run.flatten]

set_option linter.unusedVariables false in
/-- Cuts lines into parts, the first of them being number `line`; `run` are the
lines outside fences that stand directly before them. A block left open is
reported with the number of its opening fence. -/
def splitLines (run : List Text) (line : Int) (lines : List Text) : Except Int (List Part) :=
  match lines with
  | [] => .ok (ofRun (line - run.length) run)
  | first :: more =>
    match opening? first with
    | none => splitLines (run ++ [first]) (line + 1) more
    | some language =>
      match closed : untilClosing more with
      | none => .error line
      | some (code, rest) =>
        match splitLines [] (line + code.length + 2) rest with
        | .error opened => .error opened
        | .ok parts =>
          .ok (ofRun (line - run.length) run ++ .code language (line + 1) code.flatten :: parts)
termination_by lines.length
decreasing_by
  · simp
  · have := length_of_untilClosing closed
    simp only [List.length_cons]
    omega

/-- The parts of a text whose first line is number `line`. -/
def split (content : Text) (line : Int) : Except Int (List Part) :=
  splitLines [] line (Text.lines content)

/-- The complaint about a block left open. -/
def unclosedMessage (line : Int) : String :=
  s!"code block opened at line {line} is not closed"

/-- The first code among parts: its language, the number of its first line and
the code itself. -/
def firstCode? : List Part → Option (Text × Int × Text)
  | [] => none
  | .text _ _ :: more => firstCode? more
  | .code language line content :: _ => some (language, line, content)

end Regen.Fence
