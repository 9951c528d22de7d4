import Regen.Fault
import Regen.Header.Grammar
import Regen.Settings

/-! Chunks of a document: markers and the runs of text between them. A marker is
a comment opener, the header, a closer and at most one line break right after
it; together the chunks are the document, character for character. -/
namespace Regen

/-- A marker that begins a block. `loc` is where its header begins. -/
structure Start where
  name : Header.ActionName
  params : List Header.Parameter
  raw : Text
  loc : Position
deriving DecidableEq, Repr

/-- A marker that ends a block. -/
structure Stop where
  name : Header.ActionName
  raw : Text
  loc : Position
deriving DecidableEq, Repr

inductive Chunk where
  | text (content : Text) (loc : Position)
  | start (marker : Start)
  | stop (marker : Stop)
deriving DecidableEq, Repr

namespace Chunk

/-- The part of the document a chunk covers. -/
def source : Chunk → Text
  | .text content _ => content
  | .start marker => marker.raw
  | .stop marker => marker.raw

/-- The position a chunk reports. -/
def loc : Chunk → Position
  | .text _ loc => loc
  | .start marker => marker.loc
  | .stop marker => marker.loc

/-- The opener at the beginning of a text and what follows it. -/
def opener? (openers : List Text) (text : Text) : Option (Text × Text) :=
  openers.findSome? fun opener => (Text.after? opener text).map (opener, ·)

/-- The text before the first place where a comment may open, and what stands from
there on. -/
def untilCandidate : Text → Option (Text × Text)
  | '<' :: '!' :: '-' :: rest => some ([], '<' :: '!' :: '-' :: rest)
  | c :: rest => (untilCandidate rest).map fun found => (c :: found.1, found.2)
  | [] => none

/-- An opener found in a text: the text before it, where it stands, and what
follows it. -/
structure Opening where
  run : Text
  loc : Position
  opener : Text
  body : Text
deriving Repr

/-- The text before the first closer, the closer and what follows it. A dash
before the closer of two dashes belongs to it. -/
def untilCloser : Text → Option (Text × Text × Text)
  | '-' :: '-' :: '-' :: '>' :: rest => some ([], ['-', '-', '-', '>'], rest)
  | '-' :: '-' :: '>' :: rest => some ([], ['-', '-', '>'], rest)
  | c :: rest => (untilCloser rest).map fun found => (c :: found.1, found.2)
  | [] => none

/-- The line break at the beginning of a text, if there is one. -/
def newline : Text → Text
  | '\r' :: '\n' :: _ => ['\r', '\n']
  | '\n' :: _ => ['\n']
  | _ => []

/-- A candidate begins a part of the text that is not empty. -/
theorem untilCandidate_restores {text skipped rest : Text}
    (found : untilCandidate text = some (skipped, rest)) :
    skipped ++ rest = text ∧ ∃ tail, rest = '<' :: '!' :: '-' :: tail := by
  fun_induction untilCandidate text generalizing skipped with
  | case1 tail =>
    cases found
    exact ⟨rfl, tail, rfl⟩
  | case2 c more _ ih =>
    obtain ⟨⟨skipped', rest'⟩, inner, same⟩ := Option.map_eq_some_iff.1 found
    cases same
    obtain ⟨whole, opens⟩ := ih inner
    exact ⟨congrArg (c :: ·) whole, opens⟩
  | case3 => cases found

theorem opener?_restores {openers : List Text} {text opener body : Text}
    (found : opener? openers text = some (opener, body)) :
    opener ∈ openers ∧ text = opener ++ body := by
  obtain ⟨candidate, member, matched⟩ := List.exists_of_findSome?_eq_some found
  obtain ⟨rest, after, same⟩ := Option.map_eq_some_iff.1 matched
  cases same
  exact ⟨member, Text.eq_append_of_after? after⟩

set_option linter.unusedVariables false in
/-- The first opener in a text that begins at `loc`. Each candidate is tried in turn,
and the search goes on one character behind one at which no opener stands. -/
def nextOpening (openers : List Text) (loc : Position) (text : Text) : Option Opening :=
  match candidate : untilCandidate text with
  | none => none
  | some (skipped, rest) =>
    match opener? openers rest with
    | some (opener, body) => some ⟨skipped, loc.advance skipped, opener, body⟩
    | none =>
      (nextOpening openers ((loc.advance skipped).right 1) (rest.drop 1)).map fun found =>
        { found with run := skipped ++ rest.take 1 ++ found.run }
termination_by text.length
decreasing_by
  obtain ⟨whole, tail, opens⟩ := untilCandidate_restores candidate
  have := congrArg List.length whole
  simp only [opens, List.length_append, List.length_cons, List.length_drop] at *
  omega

/-- An opener is found inside the text. -/
theorem nextOpening_restores {openers : List Text} {loc : Position} {text : Text} {found : Opening}
    (opened : nextOpening openers loc text = some found) :
    found.opener ∈ openers ∧ text = found.run ++ (found.opener ++ found.body) := by
  fun_induction nextOpening openers loc text generalizing found with
  | case1 => cases opened
  | case2 loc text skipped rest candidate opener body opens =>
    cases opened
    obtain ⟨member, whole⟩ := opener?_restores opens
    exact ⟨member, by rw [← whole, (untilCandidate_restores candidate).1]⟩
  | case3 loc text skipped rest candidate closed ih =>
    obtain ⟨inner, opens, rfl⟩ := Option.map_eq_some_iff.1 opened
    obtain ⟨member, whole⟩ := ih opens
    refine ⟨member, ?_⟩
    rw [← (untilCandidate_restores candidate).1, List.append_assoc, List.append_assoc, ← whole,
      List.take_append_drop]

/-- A closer is found inside the text, which it cuts in two. -/
theorem untilCloser_restores {text content closer rest : Text}
    (found : untilCloser text = some (content, closer, rest)) :
    text = content ++ closer ++ rest ∧ closer ≠ [] := by
  fun_induction untilCloser text generalizing content with
  | case1 => cases found; simp
  | case2 => cases found; simp
  | case3 c rest' _ _ ih =>
    obtain ⟨tail, inner, same⟩ := Option.map_eq_some_iff.1 found
    obtain ⟨body, mark, after⟩ := tail
    cases same
    have := ih inner
    simp [this.1, this.2]
  | case4 => simp at found

theorem newline_restores (text : Text) : newline text ++ text.drop (newline text).length = text := by
  unfold newline
  split <;> simp

/-- The fault of a header that has no tokens, in the marker with text `raw`. -/
def faultOfToken (file : String) (raw : Text) : Header.TokenFault → Halt
  | .illegal c loc =>
    .fault ⟨.markup (.illegal (.text (String.singleton c))) raw, some loc, some file⟩
  | .numeralTooLong digits => .escape ⟨.badValue, Header.numeralTooLongMessage digits⟩

/-- The fault of tokens that are no header; one that points to the end is
reported where the header begins. -/
def faultOfGrammar (file : String) (raw : Text) (loc : Position) (fault : Header.GrammarFault) :
    Halt :=
  match fault with
  | .paramsOnEnd key => .fault ⟨.markup .paramsOnEnd raw, some key, some file⟩
  | fault =>
    .fault ⟨.markup (.grammar (.text fault.message)) raw, some (fault.loc?.getD loc), some file⟩

/-- The chunk of a marker with text `raw` whose header begins at `loc`. -/
def ofMarker (settings : Settings) (file : String) (header raw : Text) (loc : Position) :
    Except Halt Chunk :=
  match Header.tokenize header loc with
  | .error fault => .error (faultOfToken file raw fault)
  | .ok tokens =>
    match Header.parse settings.actionNamespace tokens with
    | .error fault => .error (faultOfGrammar file raw loc fault)
    | .ok (.start name params) => .ok (.start ⟨name, params, raw, loc⟩)
    | .ok (.stop name) => .ok (.stop ⟨name, raw, loc⟩)

/-- The chunk of a run of text, which there is unless the run is empty. -/
def ofRun (content : Text) (loc : Position) : List Chunk :=
  if content.isEmpty then [] else [.text content loc]

set_option linter.unusedVariables false in
/-- The chunks of the text that begins at `loc`, up to the first marker at fault. -/
def scanFrom (settings : Settings) (file : String) (loc : Position) (text : Text) :
    Except Halt (List Chunk) :=
  match opened : nextOpening settings.openers loc text with
  | none => .ok (ofRun text loc)
  | some found =>
    let headerLoc := found.loc.right found.opener.length
    match closed : untilCloser found.body with
    | none => .error (.fault ⟨.markup .unterminated found.opener, some headerLoc, some file⟩)
    | some (header, closer, after) =>
      let tail := header ++ closer ++ newline after
      match ofMarker settings file header (found.opener ++ tail) headerLoc with
      | .error halt => .error halt
      | .ok marker =>
        match scanFrom settings file (headerLoc.advance tail) (after.drop (newline after).length) with
        | .error halt => .error halt
        | .ok more => .ok (ofRun found.run loc ++ marker :: more)
termination_by text.length
decreasing_by
  have cut := congrArg List.length (nextOpening_restores opened).2
  have body := congrArg List.length (untilCloser_restores closed).1
  have positive := List.length_pos_iff.2 (untilCloser_restores closed).2
  simp only [List.length_append, List.length_drop] at *
  omega

/-- The chunks of a document. -/
def scan (settings : Settings) (file : String) (source : Text) : Except Halt (List Chunk) :=
  scanFrom settings file .start source

end Chunk
end Regen
