import Regen.Proofs.HeaderLanguage
import Regen.Proofs.TruePositions

/-! What markers say. Every marker of a scanned document has a header, and it says
what the grammar reads from the tokens of that header, no more and no less. -/
namespace Regen.Chunk
open Header

/-- What a marker says. -/
def header? : Chunk → Option Header
  | .text .. => none
  | .start marker => some (.start marker.name marker.params)
  | .stop marker => some (.stop marker.name)

/-- A marker has a header with these tokens. -/
def Holds (settings : Settings) (marker : Chunk) (tokens : List Token) : Prop :=
  ∃ opener text, HeaderOf settings marker.source opener text ∧ tokenize text marker.loc = .ok tokens

section Scan
variable {settings : Settings} {file : String} {loc : Position} {text raw : Text} {marker : Chunk}
  {chunks : List Chunk} {outcome : Except Halt (List Chunk)} {said : Header}

theorem written_of_ofMarker (reads : ofMarker settings file text raw loc = .ok marker) :
    ∃ tokens said, tokenize text loc = .ok tokens ∧ Writes settings.actionNamespace tokens said ∧
      marker.header? = some said := by
  unfold ofMarker at reads
  split at reads
  · cases reads
  · rename_i tokens read
    split at reads
    · cases reads
    · rename_i parsed
      cases reads
      exact ⟨tokens, _, read, parse_eq_ok_iff.mp parsed, rfl⟩
    · rename_i parsed
      cases reads
      exact ⟨tokens, _, read, parse_eq_ok_iff.mp parsed, rfl⟩

/-- What a marker says is what its tokens write. -/
theorem Scans.writes (scans : Scans settings file loc text outcome) (done : outcome = .ok chunks)
    (member : marker ∈ chunks) (meant : marker.header? = some said) :
    ∃ tokens, marker.Holds settings tokens ∧ Writes settings.actionNamespace tokens said := by
  have silent {run : Text} {loc : Position} : ¬marker ∈ ofRun run loc := by
    intro member
    unfold ofRun at member
    split at member
    · cases member
    · cases List.mem_singleton.mp member
      cases meant
  induction scans generalizing chunks with
  | plain =>
    cases done
    exact absurd member silent
  | unclosed => cases done
  | refused => cases done
  | @marked _ found outcome cut reads _ ih =>
    cases outcome with
    | error halt => cases done
    | ok later =>
      cases done
      rcases List.mem_append.mp member with member | member
      · exact absurd member silent
      rcases List.mem_cons.mp member with rfl | member
      · obtain ⟨tokens, said', read, written, meant'⟩ := written_of_ofMarker reads
        obtain ⟨-, raw, place⟩ := ofMarker_ok reads
        cases meant.symm.trans meant'
        exact ⟨tokens, ⟨cut.opener, cut.header, raw ▸ cut.headerOf, place ▸ read⟩, written⟩
      · exact ih rfl member

end Scan
end Regen.Chunk
