/-! Cutting text at separators. Text is a list of characters throughout; every
function here returns pieces that, with the separators put back, are the text
it was given. -/
namespace Regen

/-- A run of document text, one element per code point. -/
abbrev Text := List Char

namespace Text

/-- What stands before the first `separator` and, when there is one, what
stands after it. -/
def cutAt (separator : Char) : Text → Text × Option Text
  | [] => ([], none)
  | c :: rest =>
    if c = separator then ([], some rest)
    else ((c :: (cutAt separator rest).1), (cutAt separator rest).2)

/-- The fields between the characters that satisfy `isSeparator`; always at
least one, which may be empty. -/
def splitWhere (isSeparator : Char → Bool) : Text → List Text
  | [] => [[]]
  | c :: rest =>
    if isSeparator c then [] :: splitWhere isSeparator rest
    else match splitWhere isSeparator rest with
      | [] => [[c]]
      | field :: fields => (c :: field) :: fields

/-- The fields between the occurrences of one character. -/
def splitOn (separator : Char) : Text → List Text :=
  splitWhere (· == separator)

/-- The pieces in order with `separator` between neighbours. -/
def joinWith (separator : Text) : List Text → Text
  | [] => []
  | [piece] => piece
  | piece :: more => piece ++ separator ++ joinWith separator more

/-- The pieces without those that are empty, the first and the last one apart. -/
def dropEmptyInner (pieces : List Text) : List Text :=
  match pieces with
  | [] => []
  | [piece] => [piece]
  | first :: more =>
    first :: more.dropLast.filter (fun piece => !piece.isEmpty) ++ [more.getLastD []]

/-- The text without the characters satisfying `drops` at its end. -/
def trimEnd (drops : Char → Bool) (text : Text) : Text :=
  (text.reverse.dropWhile drops).reverse

/-- The text without any of its final carriage returns and line feeds. -/
def trimNewlines : Text → Text :=
  trimEnd fun c => c == '\n' || c == '\r'

/-- The number of line feeds. -/
def lineFeeds (text : Text) : Nat :=
  text.count '\n'

/-- What follows `expected` when the text begins with it. -/
def after? : Text → Text → Option Text
  | [], text => some text
  | _ :: _, [] => none
  | e :: expected, c :: text => if e = c then after? expected text else none

/-- Whether a text stands somewhere in another. -/
def isWithin (part : Text) : Text → Bool
  | [] => part.isEmpty
  | c :: rest => (after? part (c :: rest)).isSome || isWithin part rest

theorem after?_append (expected rest : Text) : after? expected (expected ++ rest) = some rest := by
  induction expected with
  | nil => rfl
  | cons e expected ih => simp [after?, ih]

theorem eq_append_of_after? {expected text rest : Text} (found : after? expected text = some rest) :
    text = expected ++ rest := by
  induction expected generalizing text with
  | nil => simpa [after?] using found
  | cons e expected ih =>
    cases text with
    | nil => simp [after?] at found
    | cons c text =>
      by_cases same : e = c
      · simp only [after?, same, ↓reduceIte] at found
        simp [same, ih found]
      · simp [after?, same] at found

/-- A text begins with `expected` exactly when it is `expected` and a rest. -/
theorem after?_eq_some_iff {expected text rest : Text} :
    after? expected text = some rest ↔ text = expected ++ rest :=
  ⟨eq_append_of_after?, fun same => same ▸ after?_append expected rest⟩

/-- Putting the separator back restores the text that was cut. -/
theorem cutAt_restores (separator : Char) (text : Text) :
    (cutAt separator text).1 ++ ((cutAt separator text).2.elim [] (separator :: ·)) = text := by
  induction text with
  | nil => rfl
  | cons c rest ih =>
    by_cases same : c = separator
    · simp [cutAt, same]
    · simp [cutAt, same, ih]

theorem cutAt_fst (separator : Char) (text : Text) :
    (cutAt separator text).1 = text.takeWhile (· ≠ separator) := by
  induction text with
  | nil => rfl
  | cons c rest ih => by_cases same : c = separator <;> simp [cutAt, same, ih]

/-- The second part is what follows the first separator. -/
theorem cutAt_snd (separator : Char) (text : Text) (rest : Text)
    (cut : (cutAt separator text).2 = some rest) :
    (text.dropWhile (· ≠ separator)).tail = rest := by
  induction text with
  | nil => cases cut
  | cons c more ih =>
    by_cases same : c = separator
    · simpa [cutAt, same] using cut
    · simpa [same] using ih (by simpa [cutAt, same] using cut)

/-- There is a second part exactly when there is a separator. -/
theorem cutAt_snd_eq_none_iff {separator : Char} {text : Text} :
    (cutAt separator text).2 = none ↔ separator ∉ text := by
  induction text with
  | nil => simp [cutAt]
  | cons c rest ih =>
    by_cases same : c = separator
    · simp [cutAt, same]
    · simp [cutAt, same, Ne.symm same, ih]

theorem splitWhere_ne_nil (isSeparator : Char → Bool) (text : Text) :
    splitWhere isSeparator text ≠ [] := by
  cases text with
  | nil => simp [splitWhere]
  | cons c rest =>
    unfold splitWhere
    split
    · simp
    · split <;> simp

end Text
end Regen
