import Regen.Manual
import Regen.Proofs.CheckedParameters
import Regen.Proofs.Cuts
import Regen.Proofs.HeaderPrinting
import Regen.Proofs.ShownLines

/-! The lines of a manual. An item of the list of parameters is a line if nothing spliced into
it has a line feed. A key and a type have none, and the words of a description are put
together again with spaces; a default is copied as it is, and one that is text with a line
feed in it goes on in the next line. A default that cannot be written leaves the list
unwritten. -/
namespace Regen.Manual
open Text

variable {value : Value} {doc : String}

/-- A default that does not stay on a line: text with a line feed in it, a reference with one
in its name, or a value that is shown over several lines. -/
inductive Breaks : Value → Prop
  | text {s : String} : '\n' ∈ s.toList → Breaks (.text s)
  | reference {name : String} : '\n' ∈ name.toList → Breaks (.variable name)
  | shown {value : Value} : value.Ragged → Breaks value

/-- The text of a default that can be written. -/
def defaultText : Value → String
  | .bool b => if b then "true" else "false"
  | .text s => "\"" ++ s ++ "\""
  | value => value.display

theorem formatDefault_of_writable (writable : value.isWritable) :
    formatDefault value = .ok (defaultText value) := by
  cases value with
  | bool b => rfl
  | text s => rfl
  | _ => exact Value.write_eq_ok_iff.mpr ⟨writable, rfl⟩

theorem formatDefault_of_unwritable (unwritable : value.isWritable = false) :
    formatDefault value = .error .unwritable := by
  cases value with
  | bool b => cases unwritable
  | text s => cases unwritable
  | _ => exact Value.write_eq_error_iff.mpr ⟨unwritable, rfl⟩

theorem lineFeed_mem_defaultText : '\n' ∈ (defaultText value).toList ↔ Breaks value := by
  have asShown (other : Value) (same : defaultText other = other.shown)
      (only : Breaks other → other.Ragged) : '\n' ∈ (defaultText other).toList ↔ Breaks other := by
    rw [same, other.lineFeed_mem_shown_iff]
    exact ⟨.shown, only⟩
  cases value with
  | bool b =>
    have clear : '\n' ∉ (defaultText (.bool b)).toList := by cases b <;> decide
    exact iff_of_false clear fun | .shown (.made inside _) => nomatch inside
  | text s =>
    have written : '\n' ∈ (defaultText (.text s)).toList ↔ '\n' ∈ s.toList := by
      simp [defaultText]
    exact written.trans ⟨.text, fun | .text member => member | .shown (.made inside _) => nomatch inside⟩
  | «variable» name =>
    have written : '\n' ∈ (defaultText (.variable name)).toList ↔ '\n' ∈ name.toList := by
      simp [defaultText, Value.display]
    exact written.trans
      ⟨.reference, fun | .reference member => member | .shown (.made inside _) => nomatch inside⟩
  | _ => exact asShown _ rfl fun | .shown ragged => ragged

/-- The words of a description are written on one line. -/
theorem description_text (doc : String) :
    ∃ words, description (.text doc) = .ok words ∧ '\n' ∉ words.toList := by
  refine ⟨_, rfl, fun member => ?_⟩
  rw [String.toList_append] at member
  rcases List.mem_append.mp member with space | member
  · exact absurd space (by decide)
  · rw [String.toList_ofList] at member
    rcases mem_of_joinWith member with space | ⟨word, listed, member⟩
    · exact absurd space (by decide)
    · exact absurd (inside_of_field (List.mem_filter.mp listed).1 member).2 (by decide)

/-- What an item begins with. -/
def opening (key : String) (type : ParamType) : Text :=
  ("* `" ++ key ++ "` (`" ++ type.name ++ "`) -").toList

/-- What an item says of a parameter that has to be given. -/
def requirement (spec : ParamSpec) : String := if spec.isRequired then " Required." else ""

/-- What an item says of a default that can be written. -/
def sentence (default : Value) : String :=
  if default.isNone then "" else " The default value is `" ++ defaultText default ++ "`."

theorem eq_none_of_isNone (none : value.isNone) : value = .none := by
  cases value with
  | none => rfl
  | _ => cases none

theorem standard_of_writable (writable : value.isWritable) : standard value = .ok (sentence value) := by
  unfold standard sentence
  rw [formatDefault_of_writable writable]
  cases value.isNone <;> rfl

theorem standard_of_unwritable (unwritable : value.isWritable = false) :
    standard value = .error .unwritable := by
  have given : value.isNone ≠ true := by
    intro none
    rw [eq_none_of_isNone none] at unwritable
    cases unwritable
  unfold standard
  rw [if_neg given, formatDefault_of_unwritable unwritable]
  rfl

theorem lineFeed_mem_sentence : '\n' ∈ (sentence value).toList ↔ Breaks value := by
  rw [← lineFeed_mem_defaultText]
  cases absent : value.isNone with
  | true =>
    rw [eq_none_of_isNone absent]
    exact iff_of_false List.not_mem_nil (by decide)
  | false => simp [sentence, absent]

/-- An item has three things behind its opening, each of which may be missing. The words are
those of the description, and what is said of the default comes last. -/
theorem item_eq (key : String) {spec : ParamSpec} (told : spec.doc = .text doc) :
    ∃ words : String, '\n' ∉ words.toList ∧ item (.text key) spec =
      (standard spec.default).map fun said => "* `" ++ key ++ "` (`" ++ spec.type.name ++ "`) -" ++
        requirement spec ++ words ++ said ++ "\n" := by
  have named : (Value.text key).write = .ok key := rfl
  cases filled : spec.doc.isTruthy with
  | false =>
    refine ⟨"", List.not_mem_nil, ?_⟩
    simp only [item, named, filled]
    cases standard spec.default <;> rfl
  | true =>
    obtain ⟨words, described, clear⟩ := description_text doc
    refine ⟨words, clear, ?_⟩
    rw [told] at filled
    simp only [item, named, told, filled, described]
    cases standard spec.default <;> rfl

/-- There is no item of a parameter whose default cannot be written. -/
theorem item_eq_error (key : String) {spec : ParamSpec} (told : spec.doc = .text doc)
    (unwritable : spec.default.isWritable = false) : item (.text key) spec = .error .unwritable := by
  obtain ⟨words, -, written⟩ := item_eq key told
  rw [written, standard_of_unwritable unwritable]
  rfl

/-- An item is its opening, something behind it that has a line feed just where the default
does not stay on a line, and a line feed. -/
theorem item_text (key : String) {spec : ParamSpec} (told : spec.doc = .text doc)
    (writable : spec.default.isWritable) :
    ∃ rest, item (.text key) spec = .ok (String.ofList (opening key spec.type ++ rest ++ ['\n'])) ∧
      ('\n' ∈ rest ↔ Breaks spec.default) := by
  obtain ⟨words, clear, written⟩ := item_eq key told
  have required : '\n' ∉ (requirement spec).toList := by
    unfold requirement
    split <;> decide
  refine ⟨(requirement spec ++ words ++ sentence spec.default).toList, ?_, ?_⟩
  · rw [written, standard_of_writable writable, Except.map, Except.ok.injEq, ← String.toList_inj]
    simp [opening]
  rw [String.toList_append, List.mem_append, String.toList_append, List.mem_append,
    or_iff_right (not_or.mpr ⟨required, clear⟩), lineFeed_mem_sentence]

/-- A line of the list of parameters: it begins with the key and the type of its parameter, and
what is behind them has a line feed just where the default does not stay on a line. -/
def IsLine (param : String × ParamSpec) (line : Text) : Prop :=
  ∃ rest, line = opening param.1 param.2.type ++ rest ∧ ('\n' ∈ rest ↔ Breaks param.2.default)

variable {entries : Entries} {declared : Assoc String ParamSpec} {lines : List Text}

theorem items_cons {entry : String × Value} {spec : ParamSpec}
    (read : ParamSpec.ofValue (.text entry.1) entry.2 = .ok spec) :
    items (Table.ofEntries (entry :: entries)) = (item (.text entry.1) spec).bind fun first =>
      (items (Table.ofEntries entries)).bind fun more => .ok (first ++ more) := by
  rw [Table.ofEntries, List.map_cons, items, read]
  rfl

/-- One item is written for each parameter, in order, with a line feed behind it. -/
theorem items_text (each : List.Forall₂ Schema.Declared entries declared)
    (told : ∀ param ∈ declared, ∃ doc, param.2.doc = .text doc)
    (writable : ∀ param ∈ declared, param.2.default.isWritable) :
    ∃ lines, items (Table.ofEntries entries) =
        .ok (String.ofList (lines.flatMap (· ++ ['\n']))) ∧
      List.Forall₂ IsLine declared lines := by
  induction each with
  | nil => exact ⟨[], rfl, .nil⟩
  | @cons entry param entries declared first _ ih =>
    obtain ⟨⟨doc, here⟩, later⟩ := List.forall_mem_cons.mp told
    obtain ⟨fine, writable⟩ := List.forall_mem_cons.mp writable
    obtain ⟨rest, written, broken⟩ := item_text param.1 here fine
    obtain ⟨lines, more, each⟩ := ih later writable
    obtain ⟨key, spec⟩ := param
    obtain ⟨rfl, read⟩ := first
    refine ⟨(opening entry.1 spec.type ++ rest) :: lines, ?_, .cons ⟨rest, rfl, broken⟩ each⟩
    rw [items_cons read, written, more, List.flatMap_cons]
    exact congrArg Except.ok String.ofList_append.symm

/-- Nothing is written where one default cannot be. -/
theorem items_eq_error (each : List.Forall₂ Schema.Declared entries declared)
    (told : ∀ param ∈ declared, ∃ doc, param.2.doc = .text doc)
    (unwritable : ∃ param ∈ declared, param.2.default.isWritable = false) :
    items (Table.ofEntries entries) = .error .unwritable := by
  induction each with
  | nil => simp at unwritable
  | @cons entry param entries declared first _ ih =>
    obtain ⟨⟨doc, here⟩, later⟩ := List.forall_mem_cons.mp told
    obtain ⟨key, spec⟩ := param
    obtain ⟨rfl, read⟩ := first
    rw [items_cons read]
    cases fine : spec.default.isWritable with
    | false =>
      rw [item_eq_error entry.1 here fine]
      rfl
    | true =>
      obtain ⟨rest, written, -⟩ := item_text entry.1 here fine
      have further : ∃ param ∈ declared, param.2.default.isWritable = false := by
        simpa [fine] using unwritable
      rw [written, ih later further]
      rfl

/-- A key that is an identifier and the name of a type have no line feed. -/
theorem lineFeed_notMem_opening (name : Header.Identifier) (type : ParamType) :
    '\n' ∉ opening name.word type := by
  have key : '\n' ∉ name.word.toList := by
    rw [Header.Identifier.word, String.toList_ofList]
    exact name.not_mem (by decide)
  have known : '\n' ∉ type.name.toList := by cases type <;> decide
  simp [opening, key, known]

/-- Under identifiers, the lines stay whole exactly if all defaults do. -/
theorem lines_whole_iff (lined : List.Forall₂ IsLine declared lines)
    (named : ∀ param ∈ declared, ∃ name : Header.Identifier, param.1 = name.word) :
    (∀ line ∈ lines, '\n' ∉ line) ↔ ∀ param ∈ declared, ¬ Breaks param.2.default := by
  induction lined with
  | nil => simp
  | @cons param line declared lines first _ ih =>
    obtain ⟨⟨name, key⟩, later⟩ := List.forall_mem_cons.mp named
    obtain ⟨rest, rfl, broken⟩ := first
    have whole : '\n' ∉ opening param.1 param.2.type ++ rest ↔ ¬ Breaks param.2.default := by
      rw [List.mem_append, key, or_iff_right (lineFeed_notMem_opening name param.2.type), broken]
    rw [List.forall_mem_cons, List.forall_mem_cons, ih later, whole]

/-- The list of parameters under identifiers, whose descriptions are text, is written with one
item for each parameter, in order, and a line feed behind it, unless some default cannot be
written, which leaves the whole list unwritten. The item begins with the key and the type of
the parameter, and what is behind them has a line feed just where the default does not stay on
a line. So the items are the lines of the list exactly if all defaults do. -/
theorem parameters_lines (filled : entries ≠ [])
    (each : List.Forall₂ Schema.Declared entries declared)
    (named : ∀ entry ∈ entries, ∃ name : Header.Identifier, entry.1 = name.word)
    (told : ∀ param ∈ declared, ∃ doc, param.2.doc = .text doc) :
    ((∀ param ∈ declared, param.2.default.isWritable) → ∃ lines : List Text,
      parameters (.ofEntries entries) = .ok (String.ofList (lines.flatMap (· ++ ['\n']))) ∧
      List.Forall₂ IsLine declared lines ∧
      (splitOn '\n' (lines.flatMap (· ++ ['\n'])) = lines ++ [[]] ↔
        ∀ param ∈ declared, ¬ Breaks param.2.default)) ∧
    ((∃ param ∈ declared, param.2.default.isWritable = false) →
      parameters (.ofEntries entries) = .error .unwritable) := by
  have listed : parameters (.ofEntries entries) = items (Table.ofEntries entries) := by
    obtain ⟨entry, more, rfl⟩ := List.exists_cons_of_ne_nil filled
    rfl
  rw [listed]
  refine ⟨fun writable => ?_, items_eq_error each told⟩
  obtain ⟨lines, written, lined⟩ := items_text each told writable
  have named' : ∀ param ∈ declared, ∃ name : Header.Identifier, param.1 = name.word := by
    intro param member
    have key : param.1 ∈ entries.map Prod.fst :=
      Schema.map_fst_of_declared each ▸ List.mem_map_of_mem member
    obtain ⟨entry, listed, same⟩ := List.mem_map.mp key
    exact same ▸ named entry listed
  refine ⟨lines, written, lined, ?_⟩
  rw [← lines_whole_iff lined named']
  refine ⟨fun split line listed => ?_, fun whole => ?_⟩
  · have field : line ∈ splitOn '\n' (lines.flatMap (· ++ ['\n'])) :=
      split ▸ List.mem_append_left _ listed
    exact fun member => absurd (inside_of_field field member).2 (by decide)
  · rw [← List.append_nil (lines.flatMap (· ++ ['\n']))]
    exact splitOn_flatMap whole List.not_mem_nil

/-- Two parameters, one described over two lines and the other with a default. -/
def greetingEntries : Entries :=
  [("name", .param (.text "string") (.bool true) .none (.text "Who\n  to greet.")),
    ("loud", .table [(.text "type", .text "boolean"), (.text "default", .bool false)])]

theorem parameters_lines_greeting : ∃ lines : List Text,
    parameters (.ofEntries greetingEntries) = .ok (String.ofList (lines.flatMap (· ++ ['\n']))) ∧
    splitOn '\n' (lines.flatMap (· ++ ['\n'])) = lines ++ [[]] ∧
    lines = ["* `name` (`string`) - Required. Who to greet.".toList,
      "* `loud` (`boolean`) - The default value is `false`.".toList] := by
  have each : List.Forall₂ Schema.Declared greetingEntries
      [("name", ⟨.string, .bool true, .none, .text "Who\n  to greet."⟩),
        ("loud", ⟨.boolean, .bool false, .bool false, .text ""⟩)] :=
    .cons ⟨rfl, rfl⟩ (.cons ⟨rfl, rfl⟩ .nil)
  have stays (default : Value) (clear : '\n' ∉ (defaultText default).toList) : ¬ Breaks default :=
    mt lineFeed_mem_defaultText.mpr clear
  obtain ⟨lines, written, -, whole⟩ := (parameters_lines (List.cons_ne_nil _ _) each
    (List.forall_mem_cons.mpr ⟨⟨⟨'n', "ame".toList, by decide, by decide⟩, by decide⟩,
      List.forall_mem_singleton.mpr ⟨⟨'l', "oud".toList, by decide, by decide⟩, by decide⟩⟩)
    (List.forall_mem_cons.mpr ⟨⟨_, rfl⟩, List.forall_mem_singleton.mpr ⟨_, rfl⟩⟩)).1
    (List.forall_mem_cons.mpr ⟨rfl, List.forall_mem_singleton.mpr rfl⟩)
  have split := whole.mpr (List.forall_mem_cons.mpr
    ⟨stays .none (by decide), List.forall_mem_singleton.mpr (stays (.bool false) (by decide))⟩)
  refine ⟨lines, written, split, ?_⟩
  have same : parameters (.ofEntries greetingEntries) =
      .ok ("* `name` (`string`) - Required. Who to greet.\n" ++
        "* `loud` (`boolean`) - The default value is `false`.\n") := by rfl
  have text := String.ofList_injective
    ((Except.ok.inj (written.symm.trans same)).trans String.ofList_toList.symm)
  rw [text] at split
  exact List.append_cancel_right (split.symm.trans (by decide +kernel))

/-- A default of two lines breaks the item of its parameter in two. -/
theorem parameters_broken : ∃ written : String,
    parameters (.ofEntries
      [("n", .table [(.text "type", .text "string"), (.text "default", .text "a\nb")])]) = .ok written ∧
    splitOn '\n' written.toList =
      ["* `n` (`string`) - The default value is `\"a".toList, "b\"`.".toList, []] :=
  ⟨"* `n` (`string`) - The default value is `\"a\nb\"`.\n", by rfl, by decide⟩

end Regen.Manual
