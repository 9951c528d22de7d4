import Regen.Moment
import Regen.Text.Digit
import Regen.Text.Upper

/-! Date patterns. A percent sign, flags, a width and a letter stand for a part
of a moment; everything else stands for itself, and so does what has no meaning
after a percent sign. There is only so much room for what is written; a pattern
that asks for more than that writes nothing at all. -/
namespace Regen.Stamp

/-- How a part is filled up to its width: as its letter has it, with zeros, with
blanks or not at all. -/
inductive Padding where
  | usual
  | zeros
  | blanks
  | bare
deriving DecidableEq, Repr

/-- What stands between the percent sign and the letter. The modifier asks for
another calendar or other digits, which there are none of, but some letters
have no meaning after it. -/
structure Style where
  padding : Padding
  upper : Bool
  swapped : Bool
  width : Nat
  modifier : Option Char
deriving DecidableEq, Repr

/-- The style of a bare percent sign. -/
def Style.plain : Style := ⟨.usual, false, false, 0, none⟩

/-- The names of the days of the week. -/
def weekdays : List String :=
  ["Sunday", "Monday", "Tuesday", "Wednesday", "Thursday", "Friday", "Saturday"]

/-- The names of the months. -/
def months : List String :=
  ["January", "February", "March", "April", "May", "June", "July", "August", "September",
   "October", "November", "December"]

/-- A text filled up in front to a width. -/
def fill (c : Char) (width : Nat) (text : Text) : Text :=
  List.replicate (width - text.length) c ++ text

/-- A text in the width of the style. -/
def place (style : Style) (text : Text) : Text :=
  fill (if style.padding = .zeros then '0' else ' ') style.width text

/-- A text in the case and width of the style. -/
def whole (style : Style) (text : Text) : Text :=
  place style (if style.upper then text.map Text.upper else text)

/-- A number of at least so many digits, filled up with zeros unless the style
says otherwise. -/
def number (style : Style) (digits n : Nat) : Text :=
  let written := (Nat.repr n).toList
  match style.padding with
  | .bare => place style written
  | .blanks => fill ' ' (max digits style.width) written
  | _ => fill '0' (max digits style.width) written

/-- A number filled up with blanks unless the style says otherwise. -/
def blankNumber (style : Style) (digits n : Nat) : Text :=
  match style.padding with
  | .usual => number { style with padding := .blanks } digits n
  | _ => number style digits n

/-- A name, which is in upper case also when its case is swapped. -/
def name (style : Style) (s : String) : Text :=
  whole { style with upper := style.upper || style.swapped } s.toList

/-- The hour on a clock of twelve hours. -/
def clockHour (hour : Nat) : Nat := if hour % 12 = 0 then 12 else hour % 12

/-- The half of the day. -/
def half (moment : Moment) : String := if moment.hour < 12 then "AM" else "PM"

/-- Two digits of a number. -/
def two (n : Nat) : Text := number .plain 2 n

/-- The date as month, day and year between slashes. -/
def slashed (moment : Moment) : Text :=
  two moment.month ++ '/' :: two moment.day ++ '/' :: two (moment.year % 100)

/-- The time of the day between colons. -/
def clock (moment : Moment) : Text :=
  two moment.hour ++ ':' :: two moment.minute ++ ':' :: two moment.second

/-- The letters without a meaning after a modifier. -/
def refuses (modifier letter : Char) : Bool :=
  if modifier = 'E' then "aAbBhdeDFgGHIjklmMSUVwW%".contains letter
  else "aAcDFxXY%".contains letter

/-- The part of a moment that a letter stands for by itself, if it has a meaning. -/
def meaning? (moment : Moment) (style : Style) (letter : Char) : Option Text :=
  let weekday := weekdays.getD moment.weekday ""
  let month := months.getD (moment.month - 1) ""
  let shortDay := String.ofList (weekday.toList.take 3)
  let shortMonth := String.ofList (month.toList.take 3)
  let lower (s : String) : Text := place style (s.toList.map Char.toLower)
  match letter with
  | 'a' => some (name style shortDay)
  | 'A' => some (name style weekday)
  | 'b' => some (name style shortMonth)
  | 'h' => some (name style shortMonth)
  | 'B' => some (name style month)
  | 'c' => some (whole style (shortDay.toList ++ ' ' :: shortMonth.toList ++ ' ' ::
      blankNumber .plain 2 moment.day ++ ' ' :: clock moment ++ ' ' :: (Nat.repr moment.year).toList))
  | 'C' => some (number style 1 (moment.year / 100))
  | 'd' => some (number style 2 moment.day)
  | 'D' => some (whole style (slashed moment))
  | 'e' => some (blankNumber style 2 moment.day)
  | 'F' => some (whole style ((Nat.repr moment.year).toList ++ '-' :: two moment.month ++ '-' ::
      two moment.day))
  | 'g' => some (number style 2 (moment.calendarWeek.1 % 100))
  | 'G' => some (number style 1 moment.calendarWeek.1)
  | 'H' => some (number style 2 moment.hour)
  | 'I' => some (number style 2 (clockHour moment.hour))
  | 'j' => some (number style 3 moment.dayOfYear)
  | 'k' => some (blankNumber style 2 moment.hour)
  | 'l' => some (blankNumber style 2 (clockHour moment.hour))
  | 'm' => some (number style 2 moment.month)
  | 'M' => some (number style 2 moment.minute)
  | 'n' => some (place style ['\n'])
  | 'p' => some (if style.swapped then lower (half moment) else whole style (half moment).toList)
  | 'P' => some (lower (half moment))
  | 'r' => some (whole style (two (clockHour moment.hour) ++ ':' :: two moment.minute ++ ':' ::
      two moment.second ++ ' ' :: (half moment).toList))
  | 'R' => some (whole style (two moment.hour ++ ':' :: two moment.minute))
  | 's' => some (place style (toString moment.epochSeconds).toList)
  | 'S' => some (number style 2 moment.second)
  | 't' => some (place style ['\t'])
  | 'T' => some (whole style (clock moment))
  | 'u' => some (number style 1 (if moment.weekday = 0 then 7 else moment.weekday))
  | 'U' => some (number style 2 (moment.weekFrom 0))
  | 'V' => some (number style 2 moment.calendarWeek.2)
  | 'w' => some (number style 1 moment.weekday)
  | 'W' => some (number style 2 (moment.weekFrom 1))
  | 'x' => some (whole style (slashed moment))
  | 'X' => some (whole style (clock moment))
  | 'y' => some (number style 2 (moment.year % 100))
  | 'Y' => some (number style 1 moment.year)
  | 'z' => some []
  | 'Z' => some (if style.padding = .bare then [] else place style [])
  | '%' => some (place style ['%'])
  | _ => none

/-- The part of a moment that a letter stands for, if it has a meaning in the
style. -/
def part? (moment : Moment) (style : Style) (letter : Char) : Option Text :=
  if style.modifier.any (refuses · letter) then none else meaning? moment style letter

/-- The style with one more flag. -/
def flag? (style : Style) (c : Char) : Option Style :=
  match c with
  | '_' => some { style with padding := .blanks }
  | '-' => some { style with padding := .bare }
  | '0' => some { style with padding := .zeros }
  | '^' => some { style with upper := true }
  | '#' => some { style with swapped := true }
  | _ => none

/-- The flags at the beginning of a text, and what follows them. -/
def takeFlags (style : Style) : Text → Style × Text
  | [] => (style, [])
  | c :: rest =>
    match flag? style c with
    | some style => takeFlags style rest
    | none => (style, c :: rest)

/-- The style that begins a text, and what follows it. A width beyond the room
there is says no more than one that fills the room. -/
def takeStyle (room : Nat) (text : Text) : Style × Text :=
  let (style, afterFlags) := takeFlags .plain text
  let digits := afterFlags.takeWhile Text.isAsciiDigit
  let width := digits.foldl (fun n c => n * 10 + (c.toNat - 48)) 0
  let style := { style with width := min width room }
  match afterFlags.drop digits.length with
  | 'E' :: rest => ({ style with modifier := some 'E' }, rest)
  | 'O' :: rest => ({ style with modifier := some 'O' }, rest)
  | rest => (style, rest)

/-- The style of a letter without a meaning. The short names of months have
theirs swapped already. -/
def meaningless (style : Style) (letter : Char) : Style :=
  { style with upper := style.upper || (style.swapped && (letter = 'b' || letter = 'h')) }

/-- What begins a text after a percent sign stands for, and how many of its
characters it takes up. What has no meaning stands for itself; of a second
percent sign without a meaning that one is left. -/
def expand (moment : Moment) (room : Nat) (text : Text) : Text × Nat :=
  let (style, rest) := takeStyle room text
  match rest with
  | [] => (whole style ('%' :: text), text.length)
  | letter :: after =>
    let width := text.length - after.length
    match part? moment style letter with
    | some part => (part, width)
    | none =>
      (whole (meaningless style letter) (if letter = '%' then ['%'] else '%' :: text.take width),
        width)

/-- Writes a moment by a pattern, provided that it takes less than the room
there is; `skip` characters have been used up already. -/
def writeFrom (moment : Moment) (room skip : Nat) : Text → Option Text
  | [] => some []
  | c :: rest =>
    match skip with
    | skip + 1 => writeFrom moment room skip rest
    | 0 =>
      let (part, width) := if c = '%' then expand moment room rest else ([c], 0)
      if part.length < room then
        (writeFrom moment (room - part.length) width rest).map (part ++ ·)
      else none

/-- A pattern with the parts put in that stand directly after a percent sign and
take no style: microseconds, and the name and offset of the time zone, which
there is none of. -/
def settle (moment : Moment) : Text → Text
  | '%' :: 'f' :: rest => number .plain 6 moment.microsecond ++ settle moment rest
  | '%' :: 'z' :: rest => settle moment rest
  | '%' :: 'Z' :: rest => settle moment rest
  | '%' :: c :: rest => '%' :: c :: settle moment rest
  | c :: rest => c :: settle moment rest
  | [] => []

/-- The room for what a pattern of some length writes: a power of two, at least
1024 and at least 256 for each character. -/
def roomFor (length : Nat) : Nat := max 1024 (Nat.pow 2 ((256 * length - 1).log2 + 1))

/-- The text of a moment by a pattern, which ends at a null character. -/
def write (moment : Moment) (pattern : String) : String :=
  let settled := settle moment (pattern.toList.takeWhile (· ≠ '\x00'))
  String.ofList ((writeFrom moment (roomFor settled.length) 0 settled).getD [])

end Regen.Stamp
