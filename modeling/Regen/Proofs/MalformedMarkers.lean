import Regen.Document
import Regen.Proofs.MarkerVerdicts
import Regen.Proofs.TruePositions

/-! The first malformed marker decides. A document is read from left to right: the
first marker that is never closed or has no header is what the whole document is
refused for, whatever blocks are open there or closed later. Of a marker that is
closed nothing but its own text is looked at, so that the same fault is reported
whatever comes after it. -/
namespace Regen.Chunk
open Position Header

/-- A marker as it stands in front of a text. -/
structure Pieces.Stands (settings : Settings) (pieces : Pieces) (after : Text) : Prop where
  opens : pieces.opener ∈ settings.openers
  closes : Closes (pieces.tail ++ after) pieces.header pieces.closer (pieces.lineBreak ++ after)
  owns : Owns pieces.lineBreak after

/-- A text begins with a marker that is never closed, or with one that has no header. -/
inductive Malformed (settings : Settings) : Text → Prop
  | unclosed {opener body : Text} : opener ∈ settings.openers → ¬['-', '-', '>'] <:+: body →
    Malformed settings (opener ++ body)
  | refused {pieces : Pieces} {after : Text} : pieces.Stands settings after →
    ¬Accepted settings.actionNamespace pieces.header → Malformed settings (pieces.raw ++ after)

/-- Where the header of a marker begins, when the run before it begins at `loc`. -/
def Pieces.headerLoc (pieces : Pieces) (run : Text) (loc : Position) : Position :=
  (loc.advance run).right pieces.opener.length

/-- Reading from left to right passes over a text, in which all markers are well
formed, from one place to another, and comes to the rest. -/
inductive Reaches (settings : Settings) : Position → Text → Position → Text → Prop
  | run {run rest : Text} {loc : Position} : Clear settings run rest →
    Reaches settings loc run (loc.advance run) rest
  | marker {run before rest : Text} {loc last : Position} {pieces : Pieces} :
    Clear settings run (pieces.raw ++ (before ++ rest)) → pieces.Stands settings (before ++ rest) →
    Accepted settings.actionNamespace pieces.header → Brief pieces.header →
    Reaches settings ((pieces.headerLoc run loc).advance pieces.tail) before last rest →
    Reaches settings loc (run ++ (pieces.raw ++ before)) last rest

section Marks
variable {settings : Settings} {body content closer after run text : Text}

/-- A text is cut around the first closer in one way only. -/
theorem untilCloser_of_closes (closes : Closes body content closer after) :
    untilCloser body = some (content, closer, after) := by
  obtain ⟨before, ⟨split, least⟩, joined, spelled⟩ := closes
  cases found : untilCloser body with
  | none =>
    exact absurd ⟨before, after, split.symm⟩ (untilCloser_eq_none_iff.mp found)
  | some cut =>
    obtain ⟨content', closer', after'⟩ := cut
    obtain ⟨before', ⟨split', least'⟩, joined', spelled'⟩ := closes_of_untilCloser found
    have width := Nat.le_antisymm (least before' after' split') (least' before after split)
    have same : before ++ (['-', '-', '>'] ++ after) = before' ++ (['-', '-', '>'] ++ after') := by
      rw [← List.append_assoc, ← List.append_assoc, ← split, ← split']
    obtain ⟨rfl, rest⟩ := List.append_inj same width
    obtain rfl := List.append_cancel_left rest
    obtain rfl : closer' = closer := spelled'.trans spelled.symm
    obtain rfl : content' = content := List.append_cancel_right (joined'.trans joined.symm)
    rfl

/-- No opener is so long that it ends beyond another one in front of which it begins. -/
theorem clear_swap {opener before : Text} (opens : opener ∈ settings.openers)
    (clear : Clear settings run (opener ++ before)) (after : Text) :
    Clear settings run (opener ++ after) := by
  rintro front inside rfl filled other member found
  have short : other.length ≤ (inside ++ opener).length := by
    have some := List.length_pos_iff.mpr filled
    rcases opener_cases opens with rfl | rfl <;> rcases opener_cases member with rfl | rfl <;>
      simp <;> omega
  rw [← List.append_assoc] at found
  have within : other <+: inside ++ opener :=
    List.prefix_of_prefix_length_le found (List.prefix_append ..) short
  refine clear front inside rfl filled other member ?_
  rw [← List.append_assoc]
  exact within.trans (List.prefix_append ..)

theorem two_le_opener {opener : Text} (opens : opener ∈ settings.openers) : 2 ≤ opener.length := by
  rcases opener_cases opens with rfl | rfl <;> simp

/-- Two characters after a marker are enough to tell which line break is its own. -/
theorem Owns.extend {lineBreak : Text} (owns : Owns lineBreak text) (long : 2 ≤ text.length)
    (more : Text) : Owns lineBreak (text ++ more) := by
  refine ⟨owns.form, fun none => ⟨fun feed => ?_, fun pair => ?_⟩⟩
  · refine (owns.whole none).1 (List.prefix_of_prefix_length_le feed (List.prefix_append ..) ?_)
    exact Nat.le_trans (by decide) long
  · exact (owns.whole none).2 (List.prefix_of_prefix_length_le pair (List.prefix_append ..) long)

/-- The cut around a marker, and the clear text before it. -/
def Pieces.Stands.cut {pieces : Pieces} (stands : pieces.Stands settings after)
    (clear : Clear settings run (pieces.raw ++ after)) : Cut settings where
  toPieces := pieces
  run := run
  rest := after
  opens := stands.opens
  clear := clear
  closes := untilCloser_of_closes stands.closes
  owns := stands.owns

/-- Another text after a marker leaves it as it is, unless it begins with a line
break that the marker would take. -/
theorem Pieces.Stands.swap {pieces : Pieces} (stands : pieces.Stands settings after)
    (owns : Owns pieces.lineBreak text) : pieces.Stands settings text where
  opens := stands.opens
  closes := by
    have found := untilCloser_append (untilCloser_of_closes stands.closes) (pieces.lineBreak ++ text)
    rw [← List.append_assoc] at found
    exact closes_of_untilCloser found
  owns := owns

theorem Cut.stands (cut : Cut settings) : cut.toPieces.Stands settings cut.rest where
  opens := cut.opens
  closes := closes_of_untilCloser cut.closes
  owns := cut.owns

end Marks

section Scan
variable {settings : Settings} {file : String} {loc : Position} {opener before body rest run tail : Text}

/-- Where an opener stands, there is a marker or a comment that is never closed. -/
theorem closed_or_never (opens : opener ∈ settings.openers) (body : Text) :
    untilCloser body = none ∨
      ∃ (pieces : Pieces) (after : Text), opener ++ body = pieces.raw ++ after ∧
        pieces.Stands settings after := by
  cases found : untilCloser body with
  | none => exact .inl rfl
  | some parts =>
    obtain ⟨header, closer, after⟩ := parts
    have whole : body = header ++ closer ++ newline after ++ after.drop (newline after).length := by
      rw [List.append_assoc (header ++ closer), newline_restores]
      exact (untilCloser_restores found).1
    refine .inr ⟨⟨opener, header, closer, newline after⟩, after.drop (newline after).length, ?_, ?_⟩
    · rw [Pieces.raw, Pieces.tail, List.append_assoc, ← whole]
    · refine ⟨opens, ?_, owns_newline after⟩
      rw [Pieces.tail, ← whole, newline_restores]
      exact closes_of_untilCloser found

theorem scanFrom_unclosed (opens : opener ∈ settings.openers) (never : untilCloser body = none)
    (clear : Clear settings run (opener ++ body)) (file : String) (loc : Position) :
    scanFrom settings file loc (run ++ (opener ++ body)) =
      .error (.fault ⟨.markup .unterminated opener, some ((loc.advance run).right opener.length),
        some file⟩) := by
  have finds := nextOpening_of_clear opens clear loc
  rw [scanFrom]
  split
  · rename_i absent
    rw [finds] at absent
    cases absent
  · rename_i found opened
    rw [finds] at opened
    cases opened
    split
    · rfl
    · rename_i closed
      rw [never] at closed
      cases closed

theorem Pieces.Stands.scanFrom_eq {pieces : Pieces} (stands : pieces.Stands settings rest)
    (clear : Clear settings run (pieces.raw ++ rest)) (file : String) (loc : Position) :
    scanFrom settings file loc (run ++ (pieces.raw ++ rest)) =
      (ofMarker settings file pieces.header pieces.raw (pieces.headerLoc run loc)).bind fun marker =>
        (scanFrom settings file ((pieces.headerLoc run loc).advance pieces.tail) rest).map
          fun chunks => ofRun run loc ++ marker :: chunks :=
  scanFrom_of_cut (stands.cut clear)

/-- The scan of a run in front of an opener is that of what the opener begins. -/
theorem scanFrom_run (opens : opener ∈ settings.openers) (clear : Clear settings run (opener ++ body))
    (file : String) (loc : Position) :
    scanFrom settings file loc (run ++ (opener ++ body)) =
      (scanFrom settings file (loc.advance run) (opener ++ body)).map (ofRun run loc ++ ·) := by
  rcases closed_or_never opens body with never | ⟨pieces, after, whole, stands⟩
  · have alone := scanFrom_unclosed opens never (clear_nil _) file (loc.advance run)
    rw [List.nil_append] at alone
    rw [scanFrom_unclosed opens never clear, alone]
    rfl
  · rw [whole] at clear ⊢
    have alone := stands.scanFrom_eq (clear_nil _) file (loc.advance run)
    have same : pieces.headerLoc [] (loc.advance run) = pieces.headerLoc run loc := by
      rw [Pieces.headerLoc, advance, Pieces.headerLoc]
    rw [List.nil_append, same] at alone
    rw [stands.scanFrom_eq clear file loc, alone]
    cases ofMarker settings file pieces.header pieces.raw (pieces.headerLoc run loc) with
    | error halt => rfl
    | ok marker =>
      dsimp only [Except.bind]
      cases scanFrom settings file ((pieces.headerLoc run loc).advance pieces.tail) after <;> rfl

/-- The place reached is the true one. -/
theorem Reaches.reached {source consumed : Text} {last : Position} (opens : opener ∈ settings.openers)
    (level : '\n' ∉ settings.markerKeyword.toList)
    (reaches : Reaches settings loc before last (opener ++ tail))
    (reached : Reached source consumed (before ++ (opener ++ tail)) loc) :
    Reached source (consumed ++ before) (opener ++ tail) last := by
  generalize come : opener ++ tail = rest at reaches reached ⊢
  induction reaches generalizing consumed with
  | run clear =>
    refine reached.advance (seam_of_head (c := '<') ?_ (by decide))
    rw [← come, List.head?_append, head_opener opens]
    rfl
  | @marker run before rest loc last pieces clear stands accepted brief reaches ih =>
    have here : Reached source consumed (stands.cut clear).text loc := by
      simpa [Cut.text, Pieces.Stands.cut] using reached
    simpa [Pieces.Stands.cut] using ih come ((stands.cut clear).reached_next level here)

/-- What is read on the way to a marker is the same whatever follows the opener there. -/
theorem Reaches.passes {last : Position} (opens : opener ∈ settings.openers)
    (reaches : Reaches settings loc before last (opener ++ tail)) (file : String) :
    ∃ chunks, ∀ tail', scanFrom settings file loc (before ++ (opener ++ tail')) =
      (scanFrom settings file last (opener ++ tail')).map (chunks ++ ·) := by
  generalize come : opener ++ tail = rest at reaches
  induction reaches with
  | @run run rest loc clear =>
    subst come
    exact ⟨ofRun run loc, fun tail' => scanFrom_run opens (clear_swap opens clear tail') file loc⟩
  | @marker run before rest loc last pieces clear stands accepted brief reaches ih =>
    subst come
    obtain ⟨marker, reads⟩ := ofMarker_of_accepted accepted brief file pieces.raw
      (pieces.headerLoc run loc)
    obtain ⟨chunks, passes⟩ := ih rfl
    refine ⟨ofRun run loc ++ marker :: chunks, fun tail' => ?_⟩
    -- The line break of this marker and the run before it depend on no more than the opener.
    have owns : Owns pieces.lineBreak (before ++ (opener ++ tail')) := by
      have short := stands.owns
      rw [← List.append_assoc] at short ⊢
      exact short.of_append.extend (Nat.le_trans (two_le_opener opens) (by simp)) tail'
    have clear' : Clear settings run (pieces.raw ++ (before ++ (opener ++ tail'))) := by
      rw [Pieces.raw, List.append_assoc] at clear ⊢
      exact clear_swap stands.opens clear _
    have scanned := (stands.swap owns).scanFrom_eq clear' file loc
    rw [List.append_assoc, List.append_assoc, scanned, reads, Except.bind, passes tail']
    cases scanFrom settings file last (opener ++ tail') <;> simp [Except.map]

/-- A scan that reports a fault has come to a malformed marker. -/
theorem Scans.malformed {text : Text} {outcome : Except Halt (List Chunk)} {fault : Fault}
    (scans : Scans settings file loc text outcome) (stopped : outcome = .error (.fault fault)) :
    ∃ before last rest, text = before ++ rest ∧ Reaches settings loc before last rest ∧
      Malformed settings rest := by
  induction scans with
  | plain => cases stopped
  | unclosed clear opens never =>
    exact ⟨_, _, _, rfl, .run clear, .unclosed opens (untilCloser_eq_none_iff.mp never)⟩
  | refused cut refuses =>
    cases stopped
    exact ⟨_, _, _, rfl, .run cut.clear, .refused cut.stands (not_accepted_of_ofMarker refuses)⟩
  | @marked loc marker outcome cut reads more ih =>
    cases outcome with
    | ok chunks => cases stopped
    | error halt =>
      obtain ⟨before, last, rest, split, reaches, malformed⟩ := ih stopped
      obtain ⟨accepted, brief⟩ := accepted_of_ofMarker reads
      refine ⟨cut.run ++ (cut.raw ++ before), last, rest, by simp [Cut.text, split], ?_, malformed⟩
      exact .marker (split ▸ cut.clear) (split ▸ cut.stands) accepted brief reaches

end Scan

end Regen.Chunk

namespace Regen.Document
open Position Header Chunk

theorem parse_of_scan {limit : Nat} {settings : Settings} {file : Option String} {source : Text} {halt : Halt}
    (stopped : scan settings (nameIn settings file) source = .error halt) :
    parse limit settings file source = .error halt := by
  rw [parse, stopped]

/-- The first malformed marker of a text decides what the text is refused for. If
it is never closed, that is reported right after its opener. If it is closed, its
fault is that of its header and has its whole text; that fault and the place of it
are the same whatever follows the marker, as long as it leaves the marker as it
is. And the scan reports nothing but the first malformed marker. Blocks and their
nesting have no say in any of this. -/
theorem first_malformed_marker_decides (limit : Nat) (settings : Settings) (file : Option String) :
    (∀ before loc opener body, Reaches settings .start before loc (opener ++ body) →
      opener ∈ settings.openers → ¬['-', '-', '>'] <:+: body →
      parse limit settings file (before ++ (opener ++ body)) = .error (.fault
        ⟨.markup .unterminated opener, some (loc.right opener.length), some (nameIn settings file)⟩) ∧
      ('\n' ∉ settings.markerKeyword.toList → loc.right opener.length =
        ofOffset (before ++ (opener ++ body)) (before.length + opener.length))) ∧
    (∀ before loc (pieces : Pieces) after,
      Reaches settings .start before loc (pieces.raw ++ after) → pieces.Stands settings after →
      Brief pieces.header → ¬Accepted settings.actionNamespace pieces.header →
      ∃ cause place, Refusal settings pieces.header cause ∧
        ∀ after', Owns pieces.lineBreak after' →
          parse limit settings file (before ++ (pieces.raw ++ after')) = .error
            (.fault ⟨.markup cause pieces.raw, some place, some (nameIn settings file)⟩)) ∧
    (∀ source fault, scan settings (nameIn settings file) source = .error (.fault fault) →
      ∃ before loc rest, source = before ++ rest ∧ Reaches settings .start before loc rest ∧
        Malformed settings rest) := by
  refine ⟨?_, ?_, ?_⟩
  · intro before loc opener body reaches opens never
    obtain ⟨chunks, passes⟩ := reaches.passes opens (nameIn settings file)
    have alone := scanFrom_unclosed opens (untilCloser_eq_none_iff.mpr never) (clear_nil _)
      (nameIn settings file) loc
    refine ⟨parse_of_scan ?_, fun level => ?_⟩
    · rw [scan, passes, ← List.nil_append (opener ++ body), alone]
      rfl
    · have marker := reaches.reached opens level (.start _)
      have reached := marker.advance (seam_of_last (last_opener opens) (by decide))
      rw [advance_of_noLineFeed _ _ (level_opener level opens)] at reached
      simpa using reached.ofOffset
  · intro before loc pieces after reaches stands brief refused
    rw [Pieces.raw, List.append_assoc] at reaches
    obtain ⟨chunks, passes⟩ := reaches.passes stands.opens (nameIn settings file)
    obtain ⟨cause, place, refusal, refuses⟩ := ofMarker_of_refused refused brief
      (nameIn settings file) pieces.raw (pieces.headerLoc [] loc)
    refine ⟨cause, place, refusal, fun after' owns => parse_of_scan ?_⟩
    have alone := (stands.swap owns).scanFrom_eq (clear_nil _) (nameIn settings file) loc
    rw [List.nil_append, refuses] at alone
    rw [Pieces.raw, List.append_assoc] at alone ⊢
    rw [scan, passes, alone]
    rfl
  · intro source fault stopped
    exact (scanFrom_scans settings (nameIn settings file) .start source).malformed stopped

/-- A block end, where no block is open. -/
def strayEnd : Pieces := ⟨"<!-- rdmx ".toList, "/:x ".toList, "-->".toList, []⟩

/-- A marker with a key that has no value. -/
def keyAlone : Pieces := ⟨"<!-- rdmx ".toList, ":y k ".toList, "-->".toList, ['\n']⟩

theorem reaches_after_strayEnd {rest : Text} (level : rest.head? = some '<') :
    Reaches .standard .start strayEnd.raw ⟨1, 18⟩ rest := by
  have read : (ofMarker .standard "" strayEnd.header strayEnd.raw .start).isOk = true := by
    decide +kernel
  have owns : Owns [] rest := by
    cases rest with
    | nil => cases level
    | cons c rest =>
      obtain rfl : c = '<' := Option.some.inj level
      exact ⟨.inl rfl, fun _ => ⟨by simp, by simp⟩⟩
  have stands : strayEnd.Stands .standard ([] ++ rest) :=
    ⟨by decide, closes_of_untilCloser rfl, owns⟩
  cases found : ofMarker .standard "" strayEnd.header strayEnd.raw .start with
  | error halt => simp [found, Except.isOk, Except.toBool] at read
  | ok marker =>
    obtain ⟨accepted, brief⟩ := accepted_of_ofMarker found
    have reaches : Reaches .standard .start ([] ++ (strayEnd.raw ++ [])) ⟨1, 18⟩ rest :=
      .marker (clear_nil _) stands accepted brief (.run (clear_nil _))
    exact reaches

/-- Neither the stray block end before a marker at fault nor the blocks after it
are what is reported. -/
theorem malformed_after_strayEnd :
    parse 1 .standard none (strayEnd.raw ++ (keyAlone.opener ++ keyAlone.header)) =
        .error (.fault ⟨.markup .unterminated keyAlone.opener, some ⟨1, 28⟩, some "nofile"⟩) ∧
      ∃ cause place, Refusal .standard keyAlone.header cause ∧
        ∀ after, parse 1 .standard none (strayEnd.raw ++ (keyAlone.raw ++ after)) =
          .error (.fault ⟨.markup cause keyAlone.raw, some place, some "nofile"⟩) := by
  obtain ⟨never, closed, -⟩ := first_malformed_marker_decides 1 .standard none
  constructor
  · exact (never strayEnd.raw ⟨1, 18⟩ keyAlone.opener keyAlone.header
      (reaches_after_strayEnd rfl) (by decide) (by decide)).1
  · have lexed : (tokenize keyAlone.header .start).isOk = true := by decide +kernel
    have owns (after : Text) : Owns keyAlone.lineBreak after := ⟨.inr (.inl rfl), nofun⟩
    have stands : keyAlone.Stands .standard [] := ⟨by decide, closes_of_untilCloser rfl, owns []⟩
    have brief : Brief keyAlone.header := by
      cases read : tokenize keyAlone.header .start with
      | error fault => simp [read, Except.isOk, Except.toBool] at lexed
      | ok tokens => exact (sound_of_tokenize read).2.1
    have refused : ¬Accepted Settings.standard.actionNamespace keyAlone.header := by
      have faulty : (fault? (ofMarker .standard "" keyAlone.header keyAlone.raw .start)).isSome := by
        decide +kernel
      obtain ⟨fault, stopped⟩ := Option.isSome_iff_exists.mp faulty
      exact not_accepted_of_ofMarker (eq_error_of_fault? stopped)
    obtain ⟨cause, place, refusal, refuses⟩ := closed strayEnd.raw ⟨1, 18⟩ keyAlone []
      (reaches_after_strayEnd rfl) stands brief refused
    exact ⟨cause, place, refusal, fun after => refuses after (owns after)⟩

end Regen.Document
