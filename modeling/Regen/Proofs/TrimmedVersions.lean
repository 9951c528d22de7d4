import Mathlib.Data.List.DropRight
import Regen.Builtin.Requirement
import Regen.Proofs.Cuts

/-! Versions as a specifier has them. Reading a version loses nothing: the numbers, the dots in
front of them and the rest, written one behind the other, are the version again, and no other
release is written so. A trimmed version is the writing of a release too, the one with its
second number filled in, and so trimming it a second time finds nothing to do. -/
namespace Regen.Text

variable {text : Text} {last : Char}

/-- Stripping leaves a text alone that neither begins nor ends with a blank. -/
theorem strip_eq_self (begins : ∀ c ∈ text.head?, isBlank c = false)
    (ends : ∀ c ∈ text.getLast?, isBlank c = false) : strip text = text := by
  have start : text.dropWhile isBlank = text := by
    cases text with
    | nil => rfl
    | cons c text => exact List.dropWhile_cons_of_neg (by simp [begins c rfl])
  rw [strip, start]
  refine List.rdropWhile_eq_self_iff.mpr fun filled blank => ?_
  rw [ends _ (List.getLast?_eq_getLast_of_ne_nil filled)] at blank
  cases blank

/-- What is stripped ends with no blank. -/
theorem getLast?_strip (ends : last ∈ (strip text).getLast?) : isBlank last = false := by
  obtain ⟨filled, rfl⟩ := List.mem_getLast?_eq_getLast ends
  exact Bool.eq_false_iff.mpr (List.rdropWhile_last_not isBlank _ filled)

end Regen.Text

namespace Regen.Requirement
open Text

variable {text digits rest : Text} {found : Option Text} {release : Release} {c : Char}

/-- A number: decimal digits of any script, at least one. -/
structure IsNumber (text : Text) : Prop where
  filled : text ≠ []
  digits : ∀ c ∈ text, isDecimalDigit c = true

/-- Text that goes on with no digit. -/
def EndsNumber (text : Text) : Prop := text.takeWhile isDecimalDigit = []

/-- Text that goes on with a dot and a number. -/
def BeginsComponent (text : Text) : Prop :=
  ∃ number rest, IsNumber number ∧ text = '.' :: (number ++ rest)

/-- Digits are no blanks, in any script. -/
theorem not_blank_of_isDecimalDigit (digit : isDecimalDigit c = true) : isBlank c = false := by
  have table : ∀ first ∈ decimalZeros, ∀ place < 10, isBlank (Char.ofNat (first + place)) = false := by
    decide +kernel
  obtain ⟨first, listed, range⟩ := List.any_eq_true.mp digit
  simp only [Bool.and_eq_true, decide_eq_true_eq] at range
  have clear := table first listed (c.toNat - first) (by omega)
  rwa [Nat.add_sub_cancel' range.1, Char.ofNat_toNat] at clear

theorem endsNumber_dot (rest : Text) : EndsNumber ('.' :: rest) :=
  List.takeWhile_cons_of_neg (by decide)

theorem endsNumber_behind (ends : EndsNumber rest) : EndsNumber (behind '.' found ++ rest) := by
  cases found with
  | none => exact ends
  | some number => exact endsNumber_dot _

theorem endsNumber_dropWhile (text : Text) : EndsNumber (text.dropWhile isDecimalDigit) := by
  induction text with
  | nil => rfl
  | cons c text ih =>
    cases digit : isDecimalDigit c with
    | true => rwa [List.dropWhile_cons_of_pos digit]
    | false =>
      rw [List.dropWhile_cons_of_neg (by simp [digit])]
      exact List.takeWhile_cons_of_neg (by simp [digit])

/-- Digits followed by no digit are taken whole from the front of a text, and nothing else
is. -/
theorem takeWhile_eq_iff :
    (text.takeWhile isDecimalDigit = digits ∧ text.drop digits.length = rest) ↔
      (∀ c ∈ digits, isDecimalDigit c = true) ∧ EndsNumber rest ∧ text = digits ++ rest := by
  constructor
  · rintro ⟨rfl, rfl⟩
    rw [drop_length_takeWhile]
    exact ⟨fun _ => List.mem_takeWhile_imp, endsNumber_dropWhile text,
      List.takeWhile_append_dropWhile.symm⟩
  · rintro ⟨all, ends, rfl⟩
    rw [List.takeWhile_append_of_pos all, ends, List.append_nil]
    exact ⟨rfl, List.drop_left⟩

/-- What is taken from the front of a text: a dot and a number that ends there, where one
begins, and nothing where none does. -/
structure Component (text : Text) (found : Option Text) (rest : Text) : Prop where
  whole : text = behind '.' found ++ rest
  number : ∀ digits ∈ found, IsNumber digits
  ends : found ≠ none → EndsNumber rest
  stops : found = none → ¬ BeginsComponent rest

theorem takeComponent_number (number : IsNumber digits) (ends : EndsNumber rest) :
    takeComponent ('.' :: (digits ++ rest)) = (some digits, rest) := by
  obtain ⟨taken, left⟩ := takeWhile_eq_iff.mpr ⟨number.digits, ends, rfl⟩
  simp only [takeComponent, taken, left, List.isEmpty_eq_false_iff.mpr number.filled,
    Bool.false_eq_true, ↓reduceIte]

theorem takeComponent_of_stops (stops : ¬ BeginsComponent text) :
    takeComponent text = (none, text) := by
  unfold takeComponent
  split
  · next rest =>
    have none : rest.takeWhile isDecimalDigit = [] := by
      by_contra filled
      exact stops ⟨_, _, ⟨filled, fun _ => List.mem_takeWhile_imp⟩,
        congrArg _ List.takeWhile_append_dropWhile.symm⟩
    simp only [none, List.isEmpty_nil, ↓reduceIte]
  · rfl

/-- A number at the front of a text goes on to the first character that is no digit. -/
theorem IsNumber.longest (number : IsNumber digits) (rest : Text) :
    ∃ longest later, IsNumber longest ∧ EndsNumber later ∧ digits ++ rest = longest ++ later := by
  obtain ⟨all, ends, whole⟩ := takeWhile_eq_iff.mp
    ⟨(rfl : (digits ++ rest).takeWhile isDecimalDigit = _), rfl⟩
  refine ⟨_, _, ⟨?_, all⟩, ends, whole⟩
  rw [List.takeWhile_append_of_pos number.digits]
  exact List.append_ne_nil_of_left_ne_nil number.filled _

theorem takeComponent_eq_iff : takeComponent text = (found, rest) ↔ Component text found rest := by
  constructor
  · intro taken
    by_cases begins : BeginsComponent text
    · obtain ⟨first, behind, isNumber, rfl⟩ := begins
      obtain ⟨digits, more, number, ends, whole⟩ := isNumber.longest behind
      rw [whole] at taken ⊢
      obtain ⟨rfl, rfl⟩ := Prod.mk.inj ((takeComponent_number number ends).symm.trans taken)
      exact ⟨rfl, fun _ same => Option.mem_some.mp same ▸ number, fun _ => ends, nofun⟩
    · obtain ⟨rfl, rfl⟩ := Prod.mk.inj ((takeComponent_of_stops begins).symm.trans taken)
      exact ⟨rfl, nofun, fun found => absurd rfl found, fun _ => begins⟩
  · rintro ⟨rfl, number, ends, stops⟩
    cases found with
    | none => exact takeComponent_of_stops (stops rfl)
    | some digits => exact takeComponent_number (number digits rfl) (ends nofun)

/-- A release written out: its numbers, those behind the first with a dot, and the rest. -/
def Release.write (release : Release) : Text :=
  release.major ++ behind '.' release.minor ++ behind '.' release.micro ++ release.rest

theorem Release.write_eq (release : Release) : release.write =
    release.major ++ (behind '.' release.minor ++ (behind '.' release.micro ++ release.rest)) := by
  rw [write, List.append_assoc, List.append_assoc]

/-- What reading a version makes sure of. -/
structure Release.WellFormed (release : Release) : Prop where
  major : IsNumber release.major
  minor : ∀ number ∈ release.minor, IsNumber number
  micro : ∀ number ∈ release.micro, IsNumber number
  inOrder : release.minor = none → release.micro = none
  ends : EndsNumber release.rest
  stops : release.micro = none → ¬ BeginsComponent release.rest
  oneLine : '\n' ∉ release.rest

/-- A version is read one number after the other. -/
theorem readRelease_cases : readRelease text = some release ↔
    IsNumber release.major ∧ '\n' ∉ text ∧
      ∃ behindMajor behindMinor, EndsNumber behindMajor ∧ text = release.major ++ behindMajor ∧
        Component behindMajor release.minor behindMinor ∧
        Component behindMinor release.micro release.rest := by
  have unfolded : readRelease text =
      let major := text.takeWhile isDecimalDigit
      let second := takeComponent (text.drop major.length)
      let third := takeComponent second.2
      if major.isEmpty || text.contains '\n' then none
      else some ⟨major, second.1, third.1, third.2⟩ := rfl
  rw [unfolded]
  constructor
  · intro read
    obtain ⟨all, ends, whole⟩ := takeWhile_eq_iff.mp
      ⟨(rfl : text.takeWhile isDecimalDigit = _), rfl⟩
    dsimp only at read
    split at read
    · cases read
    · next passed =>
      obtain rfl := Option.some.inj read
      simp only [Bool.or_eq_true, List.isEmpty_iff, List.contains_iff_mem, not_or] at passed
      exact ⟨⟨passed.1, all⟩, passed.2, _, _, ends, whole, takeComponent_eq_iff.mp rfl,
        takeComponent_eq_iff.mp rfl⟩
  · rintro ⟨number, oneLine, behindMajor, behindMinor, ends, whole, second, third⟩
    obtain ⟨taken, left⟩ := takeWhile_eq_iff.mpr ⟨number.digits, ends, whole⟩
    simp only [taken, left, takeComponent_eq_iff.mpr second, takeComponent_eq_iff.mpr third]
    rw [if_neg]
    simp only [Bool.or_eq_true, List.isEmpty_iff, List.contains_iff_mem, not_or]
    exact ⟨number.filled, oneLine⟩

theorem Component.begins (taken : Component text found rest) (some : found ≠ none) :
    BeginsComponent text := by
  obtain ⟨digits, rfl⟩ := Option.ne_none_iff_exists'.mp some
  exact ⟨digits, rest, taken.number digits rfl, taken.whole⟩

/-- The numbers of a release and the dots in front of them. -/
def Release.numbers (release : Release) : Text :=
  release.major ++ behind '.' release.minor ++ behind '.' release.micro

theorem Release.WellFormed.not_blank (form : release.WellFormed) (member : c ∈ release.numbers) :
    isBlank c = false := by
  have component {found : Option Text} (number : ∀ digits ∈ found, IsNumber digits)
      (member : c ∈ behind '.' found) : isBlank c = false := by
    cases found with
    | none => cases member
    | some found =>
      rcases List.mem_cons.mp member with rfl | member
      · rfl
      · exact not_blank_of_isDecimalDigit ((number found rfl).digits c member)
  simp only [numbers, List.mem_append] at member
  rcases member with (member | member) | member
  · exact not_blank_of_isDecimalDigit (form.major.digits c member)
  · exact component form.minor member
  · exact component form.micro member

theorem Release.WellFormed.oneLine_write (form : release.WellFormed) : '\n' ∉ release.write := by
  intro member
  rcases List.mem_append.mp member with member | member
  · cases form.not_blank member
  · exact form.oneLine member

/-- A release is written without blanks at the ends if its rest ends with none. -/
theorem Release.WellFormed.strip_write (form : release.WellFormed)
    (ends : ∀ c ∈ release.rest.getLast?, isBlank c = false) : strip release.write = release.write := by
  refine strip_eq_self (fun c first => ?_) fun c last => ?_
  · obtain ⟨digit, more, major⟩ := List.exists_cons_of_ne_nil form.major.filled
    rw [write_eq, major] at first
    obtain rfl := Option.some.inj first
    exact not_blank_of_isDecimalDigit (form.major.digits digit (major ▸ List.mem_cons_self))
  · have whole : release.write = release.numbers ++ release.rest := rfl
    rw [whole, List.getLast?_append, Option.mem_def, Option.or_eq_some_iff] at last
    rcases last with last | ⟨-, last⟩
    · exact ends c last
    · exact form.not_blank (List.mem_of_getLast? last)

/-- Reading a version undoes writing it, and only a writing is read. -/
theorem readRelease_eq_some_iff :
    readRelease text = some release ↔ release.WellFormed ∧ text = release.write := by
  rw [readRelease_cases]
  constructor
  · rintro ⟨major, oneLine, behindMajor, behindMinor, ends, rfl, second, third⟩
    -- where no second number is found, the third is looked for at the same place
    have stay (absent : release.minor = none) : behindMajor = behindMinor := by
      simpa [absent] using second.whole
    have inOrder (absent : release.minor = none) : release.micro = none := by
      by_contra present
      exact second.stops absent (third.begins present)
    have later : EndsNumber behindMinor := by
      by_cases absent : release.minor = none
      · exact stay absent ▸ ends
      · exact second.ends absent
    have last : EndsNumber release.rest := by
      by_cases absent : release.micro = none
      · simpa [third.whole, absent] using later
      · exact third.ends absent
    have whole : release.major ++ behindMajor = release.write := by
      rw [second.whole, third.whole, Release.write_eq]
    rw [whole] at oneLine ⊢
    refine ⟨⟨major, second.number, third.number, inOrder, last, third.stops, fun member => ?_⟩, rfl⟩
    exact oneLine (List.mem_append_right _ member)
  · rintro ⟨form, rfl⟩
    have later : EndsNumber (behind '.' release.micro ++ release.rest) := endsNumber_behind form.ends
    have stops (absent : release.minor = none) :
        ¬ BeginsComponent (behind '.' release.micro ++ release.rest) := by
      rw [form.inOrder absent]
      exact form.stops (form.inOrder absent)
    exact ⟨form.major, form.oneLine_write, _, _, endsNumber_behind later, release.write_eq,
      ⟨rfl, form.minor, fun _ => later, stops⟩, ⟨rfl, form.micro, fun _ => form.ends, form.stops⟩⟩

/-- The release that a specifier has of one: always with a second number, and with nothing
else behind it where the patch is not wanted. -/
def Release.trimmed (release : Release) (patch : Bool) : Release :=
  let minor := some (release.minor.getD ['0'])
  if patch then { release with minor } else ⟨release.major, minor, none, []⟩

theorem Release.trim_eq_write (patch : Bool) :
    release.trim patch = (release.trimmed patch).write := by
  cases patch with
  | true => simp [trim, trimmed, write, behind]
  | false => simp [trim, trimmed, write]

theorem Release.trimmed_trimmed (patch : Bool) :
    (release.trimmed patch).trimmed patch = release.trimmed patch := by
  cases patch <;> rfl

/-- Trimming adds no characters but a dot and a zero. -/
theorem Release.mem_of_mem_trimmed {patch : Bool} (member : c ∈ (release.trimmed patch).write) :
    c ∈ release.write ∨ c = '.' ∨ c = '0' := by
  have base (inside : c ∈ release.major ++ '.' :: release.minor.getD ['0']) :
      c ∈ release.write ∨ c = '.' ∨ c = '0' := by
    rcases List.mem_append.mp inside with major | later
    · exact .inl (by simp [write, major])
    · rcases List.mem_cons.mp later with dot | minor
      · exact .inr (.inl dot)
      · cases present : release.minor with
        | none =>
          rw [present] at minor
          exact .inr (.inr (List.mem_singleton.mp minor))
        | some number =>
          have listed : c ∈ number := by rwa [present] at minor
          exact .inl (by simp [write, present, listed])
  cases patch with
  | false => exact base (by simpa [trimmed, write] using member)
  | true =>
    have cut : (release.trimmed true).write = (release.major ++ '.' :: release.minor.getD ['0']) ++
      behind '.' release.micro ++ release.rest := rfl
    rw [cut, List.mem_append, List.mem_append] at member
    rcases member with (inside | micro) | rest
    · exact base inside
    · exact .inl (by simp [write, micro])
    · exact .inl (by simp [write, rest])

theorem Release.WellFormed.isNumber_minor (form : release.WellFormed) :
    IsNumber (release.minor.getD ['0']) := by
  cases present : release.minor with
  | none => exact ⟨List.cons_ne_nil _ _, List.forall_mem_singleton.mpr (by decide)⟩
  | some minor => exact form.minor minor present

theorem Release.WellFormed.trimmed (form : release.WellFormed) (patch : Bool) :
    (release.trimmed patch).WellFormed := by
  have minor : ∀ number ∈ some (release.minor.getD ['0']), IsNumber number := fun _ same =>
    Option.mem_some.mp same ▸ form.isNumber_minor
  cases patch with
  | true => exact { form with minor, inOrder := nofun }
  | false => exact ⟨form.major, minor, nofun, nofun, rfl, fun _ => nofun, List.not_mem_nil⟩

/-- A version is trimmed exactly when it is the writing of a release, but for blanks around
it. -/
theorem trimVersion_eq_some_iff {version trimmed : Text} {patch : Bool} :
    trimVersion version patch = some trimmed ↔
      ∃ release : Release, release.WellFormed ∧ strip version = release.write ∧
        trimmed = (release.trimmed patch).write := by
  simp only [trimVersion, Option.map_eq_some_iff, readRelease_eq_some_iff, and_assoc,
    Release.trim_eq_write]
  exact exists_congr fun release => and_congr_right' (and_congr_right' eq_comm)

/-- Trimming succeeds on what begins with a number and is on one line, whether or not the
patch is wanted. -/
theorem isSome_trimVersion_iff {version : Text} {patch : Bool} :
    (trimVersion version patch).isSome ↔
      '\n' ∉ strip version ∧ ∃ number rest, IsNumber number ∧ strip version = number ++ rest := by
  rw [trimVersion, Option.isSome_map, Option.isSome_iff_exists]
  constructor
  · rintro ⟨release, read⟩
    obtain ⟨form, whole⟩ := readRelease_eq_some_iff.mp read
    exact ⟨whole ▸ form.oneLine_write, release.major, _, form.major, whole.trans release.write_eq⟩
  · rintro ⟨oneLine, number, rest, isNumber, whole⟩
    obtain ⟨major, later, isMajor, ends, whole'⟩ := isNumber.longest rest
    exact ⟨⟨major, _, _, _⟩, readRelease_cases.mpr ⟨isMajor, oneLine, later, _, ends,
      whole.trans whole', takeComponent_eq_iff.mp rfl, takeComponent_eq_iff.mp rfl⟩⟩

/-- What is trimmed once is trimmed. -/
theorem trimVersion_trimmed {version trimmed : Text} {patch : Bool}
    (once : trimVersion version patch = some trimmed) :
    trimVersion trimmed patch = some trimmed := by
  obtain ⟨release, form, whole, rfl⟩ := trimVersion_eq_some_iff.mp once
  refine trimVersion_eq_some_iff.mpr ⟨release.trimmed patch, form.trimmed patch, ?_,
    by rw [Release.trimmed_trimmed]⟩
  refine (form.trimmed patch).strip_write fun c last => ?_
  cases patch with
  | false => cases last
  | true =>
    have kept : c ∈ (strip version).getLast? := by
      rw [whole, Release.write, List.getLast?_append]
      exact Option.or_eq_some_iff.mpr (Or.inl last)
    exact getLast?_strip kept

/-- With a second number there, nothing is filled in. -/
theorem trimVersion_eq_strip {version full major later : Text} (number : IsNumber major)
    (second : BeginsComponent later) (whole : strip version = major ++ later)
    (trimmed : trimVersion version true = some full) : full = strip version := by
  obtain ⟨release, form, written, rfl⟩ := trimVersion_eq_some_iff.mp trimmed
  cases present : release.minor with
  | some minor =>
    have same : release.trimmed true = release := by
      rw [Release.trimmed, if_pos rfl, present, Option.getD_some, ← present]
    rw [same, written]
  | none =>
    have alone : release.write = release.major ++ release.rest := by
      rw [Release.write, present, form.inOrder present]
      simp only [behind_none, List.append_nil]
    have ends : EndsNumber later := by
      obtain ⟨_, _, _, rfl⟩ := second
      exact endsNumber_dot _
    -- what is behind the first number is the rest, and a rest begins with no component
    obtain ⟨taken, left⟩ := takeWhile_eq_iff.mpr ⟨number.digits, ends, whole⟩
    obtain ⟨taken', left'⟩ := takeWhile_eq_iff.mpr
      ⟨form.major.digits, form.ends, written.trans alone⟩
    obtain rfl := taken.symm.trans taken'
    obtain rfl := left.symm.trans left'
    exact absurd second (form.stops (form.inOrder present))

/-- Trimming a version normalises it. With and without the patch it succeeds on the same
versions. The short form is two numbers and the long one goes on from it, trimming either
again leaves it as it is, and the long form of a version that has a second number is that
version. -/
theorem trimVersion_normalises (version : Text) :
    ((trimVersion version true).isSome ↔ (trimVersion version false).isSome) ∧
    ∀ full short, trimVersion version true = some full → trimVersion version false = some short →
      (∃ major minor more, IsNumber major ∧ IsNumber minor ∧
        short = major ++ '.' :: minor ∧ full = short ++ more) ∧
      trimVersion full true = some full ∧ trimVersion short false = some short ∧
      ((∃ major minor rest, IsNumber major ∧ IsNumber minor ∧
        strip version = major ++ '.' :: (minor ++ rest)) → full = strip version) := by
  refine ⟨isSome_trimVersion_iff.trans isSome_trimVersion_iff.symm,
    fun full short long brief => ⟨?_, trimVersion_trimmed long, trimVersion_trimmed brief, ?_⟩⟩
  · obtain ⟨release, form, whole, rfl⟩ := trimVersion_eq_some_iff.mp long
    obtain ⟨again, form', whole', rfl⟩ := trimVersion_eq_some_iff.mp brief
    obtain rfl : release = again := Option.some.inj
      ((readRelease_eq_some_iff.mpr ⟨form, whole⟩).symm.trans
        (readRelease_eq_some_iff.mpr ⟨form', whole'⟩))
    refine ⟨release.major, _, behind '.' release.micro ++ release.rest, form.major,
      form.isNumber_minor, ?_, ?_⟩
    · simp [Release.trimmed, Release.write]
    · simp [Release.trimmed, Release.write]
  · rintro ⟨major, minor, rest, number, number', whole⟩
    exact trimVersion_eq_strip number ⟨minor, rest, number', rfl⟩ whole long

/-- A version with a patch, a suffix and blanks around it. -/
theorem trimVersion_normalises_candidate :
    trimVersion " 1.2.3rc1".toList true = some "1.2.3rc1".toList ∧
    trimVersion " 1.2.3rc1".toList false = some "1.2".toList ∧
    trimVersion "1.2.3rc1".toList true = some "1.2.3rc1".toList ∧
    trimVersion "1.2".toList false = some "1.2".toList ∧
    "1.2.3rc1".toList = strip " 1.2.3rc1".toList := by
  have long : trimVersion " 1.2.3rc1".toList true = some "1.2.3rc1".toList := by decide +kernel
  have brief : trimVersion " 1.2.3rc1".toList false = some "1.2".toList := by decide +kernel
  have number (digit : Char) (decimal : isDecimalDigit digit = true) : IsNumber [digit] :=
    ⟨List.cons_ne_nil _ _, by simpa using decimal⟩
  obtain ⟨-, again, again', whole⟩ := (trimVersion_normalises _).2 _ _ long brief
  refine ⟨long, brief, again, again', whole ⟨['1'], ['2'], ".3rc1".toList, ?_, ?_, ?_⟩⟩
  · exact number '1' (by decide)
  · exact number '2' (by decide)
  · decide +kernel

end Regen.Requirement
