import Regen.Proofs.HeaderSpellings
import Regen.Proofs.MalformedMarkers
import Regen.Proofs.Reparsing

/-! Respelling. A document may be written again with the namespace put in front of the
colon in any of its markers, at starts and ends alike. The scan comes to chunks that
say the same, and they are matched to the same forest, or both are refused. -/
namespace Regen

/-- What a block says, the texts of its markers and all positions apart. -/
def Block.wording (block : Block) : Header.ActionName × List (String × Header.Literal) :=
  (block.start.name, block.start.params.map Header.Parameter.entry)

namespace Chunk
open Header

/-- A text written again: the default namespace may be put in front of the colon that a
header begins with. -/
inductive Respelled (settings : Settings) (name : Name) : Text → Text → Prop
  | same {text : Text} : Respelled settings name text text
  | kept {run rest rest' : Text} {pieces : Pieces} : Clear settings run (pieces.raw ++ rest) →
    pieces.Stands settings rest → Respelled settings name rest rest' →
    Respelled settings name (run ++ (pieces.raw ++ rest)) (run ++ (pieces.raw ++ rest'))
  | named {run rest rest' tail : Text} {opener closer lineBreak : Text} {lead : Lead} :
    Clear settings run (Pieces.raw ⟨opener, lead.text ++ ':' :: tail, closer, lineBreak⟩ ++ rest) →
    Pieces.Stands settings ⟨opener, lead.text ++ ':' :: tail, closer, lineBreak⟩ rest →
    Respelled settings name rest rest' →
    Respelled settings name
      (run ++ (Pieces.raw ⟨opener, lead.text ++ ':' :: tail, closer, lineBreak⟩ ++ rest))
      (run ++ (Pieces.raw ⟨opener, lead.text ++ (name.text ++ ':' :: tail), closer, lineBreak⟩ ++ rest'))

/-- What chunks say, where a scan comes to any. -/
def wordings (outcome : Except Halt (List Chunk)) : Option (List Wording) :=
  outcome.toOption.map (List.map wording)

section Scan
variable {settings : Settings} {name : Name} {file : String} {run rest text text' : Text} {pieces : Pieces}

/-- A text without dashes in front of a closer. -/
theorem untilCloser_dashless {front : Text} (dashless : '-' ∉ front) (text : Text) :
    untilCloser (front ++ text) = (untilCloser text).map fun found => (front ++ found.1, found.2) := by
  induction front with
  | nil => simp
  | cons c front ih =>
    rw [List.mem_cons, not_or] at dashless
    rw [List.cons_append, untilCloser_cons (fun _ same => absurd same.symm dashless.1)
      (fun _ same => absurd same.symm dashless.1), ih dashless.2]
    cases untilCloser text <;> rfl

/-- A marker stands as it did with the namespace in front of its colon. -/
theorem Pieces.Stands.named {opener closer lineBreak tail : Text} {lead : Lead} (name : Name)
    (stands : Pieces.Stands settings ⟨opener, lead.text ++ ':' :: tail, closer, lineBreak⟩ rest) :
    Pieces.Stands settings ⟨opener, lead.text ++ (name.text ++ ':' :: tail), closer, lineBreak⟩ rest where
  opens := stands.opens
  closes := by
    have found := untilCloser_of_closes stands.closes
    simp only [Pieces.tail, List.append_assoc] at found ⊢
    rw [untilCloser_dashless lead.dashless] at found
    obtain ⟨⟨header, closer', after⟩, within, same⟩ := Option.map_eq_some_iff.mp found
    simp only [Prod.mk.injEq, List.append_cancel_left_eq] at same
    obtain ⟨rfl, rfl, rfl⟩ := same
    refine closes_of_untilCloser ?_
    rw [untilCloser_dashless lead.dashless, untilCloser_dashless (name.toIdentifier.not_mem (by decide)), within]
    rfl
  owns := stands.owns

/-- A text written again begins as it did, as far as a line break goes. -/
theorem Respelled.owns {lineBreak : Text} (respelled : Respelled settings name text text')
    (owns : Owns lineBreak text) : Owns lineBreak text' := by
  have front {run opener : Text} (opens : opener ∈ settings.openers) (before after : Text)
      (owns : Owns lineBreak (run ++ (opener ++ before))) : Owns lineBreak (run ++ (opener ++ after)) := by
    rw [← List.append_assoc] at owns ⊢
    exact owns.of_append.extend (Nat.le_trans (two_le_opener opens) (by simp)) after
  cases respelled with
  | same => exact owns
  | kept clear stands later =>
    simp only [Pieces.raw, List.append_assoc] at owns ⊢
    exact front stands.opens _ _ owns
  | named clear stands later =>
    simp only [Pieces.raw, List.append_assoc] at owns ⊢
    exact front stands.opens _ _ owns

/-- A marker after a run adds what both say to what the rest does. -/
theorem wordings_of_stands (stands : pieces.Stands settings rest)
    (clear : Clear settings run (pieces.raw ++ rest)) (file : String) (loc : Position) :
    wordings (scanFrom settings file loc (run ++ (pieces.raw ++ rest))) =
      (saidBy? settings.actionNamespace pieces.header).bind fun said =>
        (wordings (scanFrom settings file ((pieces.headerLoc run loc).advance pieces.tail) rest)).map
          fun more => (ofRun run loc).map wording ++ .marker said :: more := by
  have here := wording_ofMarker settings file pieces.header pieces.raw (pieces.headerLoc run loc)
  rw [stands.scanFrom_eq clear]
  cases read : ofMarker settings file pieces.header pieces.raw (pieces.headerLoc run loc) with
  | error halt =>
    rw [read] at here
    rw [Option.map_eq_none_iff.mp here.symm]
    rfl
  | ok marker =>
    rw [read] at here
    obtain ⟨said, told, same⟩ := Option.map_eq_some_iff.mp here.symm
    simp only [told, Except.bind, Option.bind_some]
    cases scanFrom settings file ((pieces.headerLoc run loc).advance pieces.tail) rest with
    | error halt => rfl
    | ok chunks => simp [wordings, Except.map, Except.toOption, same]

theorem wording_ofRun (run : Text) (loc loc' : Position) :
    (ofRun run loc').map wording = (ofRun run loc).map wording := by
  unfold ofRun
  split <;> rfl

/-- Where a text begins has no say in what the scan comes to. -/
theorem wordings_elsewhere {outcome : Except Halt (List Chunk)} {loc : Position}
    (scans : Scans settings file loc text outcome) (file' : String) (loc' : Position) :
    wordings (scanFrom settings file' loc' text) = wordings outcome := by
  induction scans generalizing loc' with
  | plain clear =>
    rw [scanFrom_of_clear file' loc' clear]
    exact congrArg some (wording_ofRun _ _ _)
  | unclosed clear opens never =>
    rw [scanFrom_unclosed opens never clear]
    rfl
  | @refused loc halt cut refuses =>
    have here := wording_ofMarker settings file cut.header cut.raw (cut.headerLoc loc)
    rw [refuses] at here
    have unsaid : saidBy? settings.actionNamespace cut.header = none := Option.map_eq_none_iff.mp here.symm
    rw [Cut.text, wordings_of_stands cut.stands cut.clear, unsaid]
    rfl
  | @marked loc marker outcome cut reads _ ih =>
    have here := wording_ofMarker settings file cut.header cut.raw (cut.headerLoc loc)
    rw [reads] at here
    obtain ⟨said, told, same⟩ := Option.map_eq_some_iff.mp here.symm
    rw [Cut.text, wordings_of_stands cut.stands cut.clear, told, Option.bind_some, ih,
      wording_ofRun cut.run loc]
    cases outcome with
    | error halt => rfl
    | ok chunks => simp [wordings, Except.map, Except.toOption, same]

/-- A text written again says the same. -/
theorem Respelled.wordings_eq (named : name.word = settings.actionNamespace)
    (respelled : Respelled settings name text text') (file file' : String) (loc loc' : Position) :
    wordings (scanFrom settings file' loc' text') = wordings (scanFrom settings file loc text) := by
  induction respelled generalizing loc loc' with
  | same => exact wordings_elsewhere (scanFrom_scans settings file loc _) file' loc'
  | @kept run rest rest' pieces clear stands later ih =>
    have clear' : Clear settings run (pieces.raw ++ rest') := by
      rw [Pieces.raw, List.append_assoc] at clear ⊢
      exact clear_swap stands.opens clear _
    rw [wordings_of_stands (stands.swap (later.owns stands.owns)) clear', wordings_of_stands stands clear,
      ih _ _, wording_ofRun run loc]
  | @named run rest rest' tail opener closer lineBreak lead clear stands later ih =>
    have clear' : Clear settings run
        (Pieces.raw ⟨opener, lead.text ++ (name.text ++ ':' :: tail), closer, lineBreak⟩ ++ rest') := by
      rw [Pieces.raw, List.append_assoc] at clear ⊢
      exact clear_swap stands.opens clear _
    have stands' := (stands.named name).swap (later.owns stands.owns)
    rw [wordings_of_stands stands' clear', wordings_of_stands stands clear, ih _ _, wording_ofRun run loc]
    dsimp only
    rw [← named, saidBy?_named]

end Scan
end Chunk

namespace Bracket
open Chunk

/-- Chunks that say what the chunks of a forest say spell a forest that says the same. -/
theorem spells_of_wordings {chunks chunks' : List Chunk} {nodes : List Node} (spells : Spells chunks nodes)
    (same : chunks'.map wording = chunks.map wording) : ∃ nodes', Spells chunks' nodes' ∧
      Tree.relabelAll Block.wording nodes' = Tree.relabelAll Block.wording nodes := by
  induction spells generalizing chunks' with
  | nil =>
    obtain rfl := List.map_eq_nil_iff.mp same
    exact ⟨[], .nil, rfl⟩
  | @text content loc more nodes _ ih =>
    obtain ⟨chunk, more', rfl, first, later⟩ := List.map_eq_cons_iff.mp same
    obtain ⟨nodes', spells, alike⟩ := ih later
    cases chunk with
    | text content' loc' =>
      cases first
      exact ⟨.text content :: nodes', .text spells, by simp [alike]⟩
    | start start => cases first
    | stop stop => cases first
  | @block start stop inner more body nodes closes _ _ within after =>
    obtain ⟨opening, more', rfl, first, later⟩ := List.map_eq_cons_iff.mp same
    rw [List.map_append] at later
    obtain ⟨inner', last, rfl, inside, later⟩ := List.map_eq_append_iff.mp later
    obtain ⟨closing, more'', rfl, last, later⟩ := List.map_eq_cons_iff.mp later
    obtain ⟨body', bodySpells, bodyAlike⟩ := within inside
    obtain ⟨nodes', spells, alike⟩ := after later
    cases opening with
    | text => cases first
    | stop stop' => simp [wording] at first
    | start start' =>
      cases closing with
      | text => cases last
      | start start'' => simp [wording] at last
      | stop stop' =>
        simp only [wording, Wording.marker.injEq, Prod.mk.injEq, Option.some.injEq, and_true] at first last
        refine ⟨.block ⟨start', stop'.raw⟩ body' :: nodes', .block ?_ bodySpells spells, ?_⟩
        · rw [last, closes, first.1]
        · simp [Block.wording, bodyAlike, alike, first]

end Bracket

namespace Document
open Chunk

/-- A document without what its text and its positions add to what it says. -/
def wording (document : Document) :
    String × List (Tree (Header.ActionName × List (String × Header.Literal))) :=
  (document.file, Tree.relabelAll Block.wording document.nodes)

/-- Chunks that say the same are matched to forests that say the same. -/
theorem ofChunks_of_wordings {limit : Nat} {file : String} {chunks chunks' : List Chunk}
    {document : Document} (built : ofChunks limit file chunks = .ok document)
    (same : chunks'.map Chunk.wording = chunks.map Chunk.wording) :
    ∃ document', ofChunks limit file chunks' = .ok document' ∧ document'.wording = document.wording := by
  unfold ofChunks at built
  split at built
  · rename_i siblings matched
    cases built
    obtain ⟨nodes', spells, alike⟩ := Bracket.spells_of_wordings (Bracket.spells_of_matchBlocks matched) same
    have shallow : Tree.heightAll nodes' ≤ limit := by
      rw [← Tree.heightAll_relabelAll Block.wording, alike, Tree.heightAll_relabelAll]
      exact heightAll_le_of_matchBlocks matched
    exact ⟨⟨file, nodes'⟩, ofChunks_of_spells file spells shallow, by simp [wording, alike]⟩
  · cases built

/-- A document written again is read to the same, or refused as it was. -/
theorem parse_respelled {settings : Settings} {name : Header.Name} {text text' : Text}
    (named : name.word = settings.actionNamespace) (respelled : Respelled settings name text text')
    (limit : Nat) (file : Option String) :
    (parse limit settings file text').toOption.map wording =
      (parse limit settings file text).toOption.map wording := by
  have scanned := respelled.wordings_eq named (nameIn settings file) (nameIn settings file) .start .start
  unfold parse scan
  cases here : scanFrom settings (nameIn settings file) .start text with
  | error halt =>
    rw [here] at scanned
    cases there : scanFrom settings (nameIn settings file) .start text' with
    | error halt' => rfl
    | ok chunks' => simp [there, wordings, Except.toOption] at scanned
  | ok chunks =>
    rw [here] at scanned
    cases there : scanFrom settings (nameIn settings file) .start text' with
    | error halt' => simp [there, wordings, Except.toOption] at scanned
    | ok chunks' =>
      simp only [there, wordings, Except.toOption, Option.map_some, Option.some.injEq] at scanned
      dsimp only
      cases built : ofChunks limit (nameIn settings file) chunks with
      | ok document =>
        obtain ⟨document', built', alike⟩ := ofChunks_of_wordings built scanned
        simp [built', Except.toOption, alike]
      | error halt =>
        cases built' : ofChunks limit (nameIn settings file) chunks' with
        | error halt' => rfl
        | ok document' =>
          obtain ⟨document, built'', -⟩ := ofChunks_of_wordings built' scanned.symm
          cases built.symm.trans built''

end Document
end Regen
