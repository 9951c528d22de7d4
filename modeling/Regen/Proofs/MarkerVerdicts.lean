import Regen.Document.Chunk
import Regen.Proofs.AlikeReadings
import Regen.Proofs.LexemeStream
import Regen.Proofs.Relocation

/-! Which markers are read and which are refused. It is decided by the header
alone: by its characters, each of which has to belong to a lexeme, and by the
symbols of its tokens, which have to be those of a header. The place of a marker
and what stands around it have no say. -/
namespace Regen

namespace Header

/-- The tokens of a text, put in one place. -/
def tokensIn (text : Text) : List Token :=
  ((lexemes text).filterMap Lexeme.symbol?).map fun symbol => ⟨symbol, .start⟩

/-- A text that is the header of a marker. -/
def Accepted (defaultNamespace : String) (text : Text) : Prop :=
  Sound text ∧ ∃ header, Writes defaultNamespace (tokensIn text) header

/-- A text that would be the header of a block end, but for its parameters. -/
def Overloaded (defaultNamespace : String) (text : Text) : Prop :=
  Sound text ∧ ∃ first, WritesLoadedStop defaultNamespace (tokensIn text) first

section Verdicts
variable {defaultNamespace : String} {text : Text} {loc : Position} {tokens : List Token}

theorem symbols_tokensIn (text : Text) :
    (tokensIn text).map Token.symbol = (lexemes text).filterMap Lexeme.symbol? := by
  simp [tokensIn, Function.comp_def]

theorem tokenize_of_sound (sound : Sound text) (brief : Brief text) (loc : Position) :
    ∃ tokens, tokenize text loc = .ok tokens ∧
      tokens.map Token.symbol = (tokensIn text).map Token.symbol := by
  have fine (lexeme : Lexeme) (member : lexeme ∈ lexemes text) :=
    fault?_eq_none_of_brief (sound lexeme member) (brief lexeme member)
  obtain ⟨tokens, read, spelled⟩ := ofLexemes_of_sound (lexemes text) fine loc
  exact ⟨tokens, read, by rw [spelled, symbols_tokensIn]⟩

theorem tokenize_of_unsound (unsound : ¬Sound text) (brief : Brief text) (loc : Position) :
    ∃ c place, tokenize text loc = .error (.illegal c place) := by
  obtain ⟨before, index, c, after, split, legal⟩ := first_illegal unsound
  have seam : Position.Seam [] text := by simp [Position.Seam]
  have refused := refused_of_stream loc seam brief split legal
  rw [Position.advance] at refused
  exact ⟨c, _, refused⟩

/-- A text that has tokens is sound, and its integers are brief. -/
theorem sound_of_tokenize (read : tokenize text loc = .ok tokens) :
    Sound text ∧ Brief text ∧ tokens.map Token.symbol = (tokensIn text).map Token.symbol := by
  have means := means_of_tokenize read
  exact ⟨means.sound_text, means.brief, by rw [symbols_tokensIn, means.spelled]⟩

theorem illegal_of_ofLexemes {lexemes : List Lexeme} {c : Char} {place : Position}
    (failed : Token.ofLexemes loc lexemes = .error (.illegal c place)) :
    ∃ lexeme ∈ lexemes, lexeme.kind = .illegal := by
  induction lexemes generalizing loc with
  | nil => cases failed
  | cons lexeme more ih =>
    unfold Token.ofLexemes at failed
    split at failed
    · rename_i fault found
      cases failed
      refine ⟨lexeme, List.mem_cons_self, ?_⟩
      unfold Lexeme.fault? at found
      split at found
      · assumption
      · split at found <;> cases found
      · cases found
    · split at failed
      · cases failed
      · obtain ⟨found, member, illegal⟩ := ih failed
        exact ⟨found, List.mem_cons_of_mem lexeme member, illegal⟩

/-- Elsewhere the parser reads the same from the tokens of a text. -/
theorem parse_elsewhere_alike (defaultNamespace : String)
    (same : tokens.map Token.symbol = (tokensIn text).map Token.symbol) :
    ∃ pairs, ReadAlike pairs (HeaderAlike pairs) (parse defaultNamespace (tokensIn text))
      (parse defaultNamespace tokens) :=
  ⟨_, parse_alike defaultNamespace (paired_of_symbols same (List.Subset.refl _))⟩

theorem parse_ok_iff (same : tokens.map Token.symbol = (tokensIn text).map Token.symbol) :
    (∃ header, parse defaultNamespace tokens = .ok header) ↔
      ∃ header, Writes defaultNamespace (tokensIn text) header := by
  obtain ⟨pairs, alike⟩ := parse_elsewhere_alike defaultNamespace same
  simp only [← parse_eq_ok_iff]
  revert alike
  generalize parse defaultNamespace (tokensIn text) = here
  generalize parse defaultNamespace tokens = there
  rintro (_ | _) <;> simp

theorem parse_paramsOnEnd_iff (defaultNamespace : String)
    (same : tokens.map Token.symbol = (tokensIn text).map Token.symbol) :
    (∃ loc, parse defaultNamespace tokens = .error (.paramsOnEnd loc)) ↔
      ∃ first, WritesLoadedStop defaultNamespace (tokensIn text) first := by
  obtain ⟨pairs, alike⟩ := parse_elsewhere_alike defaultNamespace same
  have loaded : (∃ loc, parse defaultNamespace (tokensIn text) = .error (.paramsOnEnd loc)) ↔
      ∃ first, WritesLoadedStop defaultNamespace (tokensIn text) first := by
    simp only [parse_eq_paramsOnEnd_iff]
    exact ⟨fun ⟨_, first, written, _⟩ => ⟨first, written⟩, fun ⟨first, written⟩ => ⟨_, first, written, rfl⟩⟩
  rw [← loaded]
  revert alike
  generalize parse defaultNamespace (tokensIn text) = here
  generalize parse defaultNamespace tokens = there
  rintro (_ | ⟨_ | _ | _⟩) <;> simp

end Verdicts

end Header

namespace Chunk
open Header

section Verdicts
variable {settings : Settings} {file : String} {header raw : Text} {loc : Position}

/-- A marker with an accepted header is read, wherever it stands. -/
theorem ofMarker_of_accepted (accepted : Accepted settings.actionNamespace header)
    (brief : Brief header) (file : String) (raw : Text) (loc : Position) :
    ∃ marker, ofMarker settings file header raw loc = .ok marker := by
  obtain ⟨sound, written⟩ := accepted
  obtain ⟨tokens, read, same⟩ := tokenize_of_sound sound brief loc
  obtain ⟨header', parsed⟩ := (parse_ok_iff same).mpr written
  unfold ofMarker
  rw [read]
  dsimp only
  rw [parsed]
  cases header' <;> exact ⟨_, rfl⟩

/-- What a marker with another header is refused for. -/
def Refusal (settings : Settings) (header : Text) (cause : MarkupCause) : Prop :=
  (Overloaded settings.actionNamespace header ∧ cause.kind = "illegal_block_end_params") ∨
    (¬Overloaded settings.actionNamespace header ∧ cause.kind = "syntax_error")

theorem ofMarker_of_refused (refused : ¬Accepted settings.actionNamespace header)
    (brief : Brief header) (file : String) (raw : Text) (loc : Position) :
    ∃ cause place, Refusal settings header cause ∧ ofMarker settings file header raw loc =
      .error (.fault ⟨.markup cause raw, some place, some file⟩) := by
  by_cases sound : Sound header
  · obtain ⟨tokens, read, same⟩ := tokenize_of_sound sound brief loc
    have never : ¬∃ header', parse settings.actionNamespace tokens = .ok header' := by
      rw [parse_ok_iff same]
      exact fun written => refused ⟨sound, written⟩
    have loaded := parse_paramsOnEnd_iff settings.actionNamespace same
    unfold ofMarker
    rw [read]
    dsimp only
    cases parsed : parse settings.actionNamespace tokens with
    | ok header' => exact absurd ⟨header', parsed⟩ never
    | error fault =>
      rw [parsed] at loaded
      cases fault with
      | paramsOnEnd key =>
        exact ⟨_, key, .inl ⟨⟨sound, loaded.mp ⟨key, rfl⟩⟩, rfl⟩, rfl⟩
      | _ =>
        refine ⟨_, _, .inr ⟨fun overloaded => ?_, rfl⟩, rfl⟩
        obtain ⟨key, same⟩ := loaded.mpr overloaded.2
        cases same
  · obtain ⟨c, place, read⟩ := tokenize_of_unsound sound brief loc
    unfold ofMarker
    rw [read]
    exact ⟨_, place, .inr ⟨fun overloaded => sound overloaded.1, rfl⟩, rfl⟩

theorem accepted_of_ofMarker {marker : Chunk}
    (reads : ofMarker settings file header raw loc = .ok marker) :
    Accepted settings.actionNamespace header ∧ Brief header := by
  unfold ofMarker at reads
  split at reads
  · cases reads
  · rename_i tokens read
    obtain ⟨sound, brief, same⟩ := sound_of_tokenize read
    refine ⟨⟨sound, (parse_ok_iff same).mp ?_⟩, brief⟩
    split at reads
    · cases reads
    · exact ⟨_, ‹_›⟩
    · exact ⟨_, ‹_›⟩

/-- Only a header that is not accepted is reported. -/
theorem not_accepted_of_ofMarker {fault : Fault}
    (refuses : ofMarker settings file header raw loc = .error (.fault fault)) :
    ¬Accepted settings.actionNamespace header := by
  rintro ⟨sound, written⟩
  unfold ofMarker at refuses
  split at refuses
  · rename_i reason failed
    cases reason with
    | illegal c place =>
      obtain ⟨lexeme, member, illegal⟩ := illegal_of_ofLexemes failed
      exact sound lexeme member illegal
    | numeralTooLong digits => cases refuses
  · rename_i tokens read
    obtain ⟨-, -, same⟩ := sound_of_tokenize read
    obtain ⟨header', parsed⟩ := (parse_ok_iff same).mpr written
    rw [parsed] at refuses
    cases header' <;> cases refuses

end Verdicts
end Chunk
end Regen
