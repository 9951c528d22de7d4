import Mathlib.Data.List.Chain
import Regen.Proofs.ChunkTiling
import Regen.Proofs.Relocation

/-! Chunks that can be told apart once they are written one after another. What a
scan finds is legible, and a legible list of chunks is found again when its text
is scanned, wherever that begins; so chunks can be taken out of a document and
put into another. -/
namespace Regen.Chunk

def Bare.isText : Bare → Bool
  | .text _ => true
  | .start .. => false
  | .stop .. => false

@[simp] theorem isText_bare (chunk : Chunk) : chunk.bare.isText = chunk.isText := by
  cases chunk <;> rfl

/-- The pieces of a marker that says the same wherever it stands: an opener, a
header that the first closer ends, and at most one line break. -/
structure Marks (pieces : Pieces) (marker : Bare) : Prop where
  opens : pieces.opener ∈ Settings.standard.openers
  closes : untilCloser pieces.tail = some (pieces.header, pieces.closer, pieces.lineBreak)
  breaks : pieces.lineBreak = [] ∨ pieces.lineBreak = ['\n'] ∨ pieces.lineBreak = ['\r', '\n']
  raw : marker.source = pieces.raw
  reads : ∀ file loc, ∃ chunk, ofMarker .standard file pieces.header pieces.raw loc = .ok chunk ∧
    chunk.bare = marker

/-- A text that is there and holds no opener, or a marker. -/
def Sound (bare : Bare) : Prop :=
  if bare.isText then bare.source ≠ [] ∧ ∀ opener ∈ Settings.standard.openers, ¬opener <:+: bare.source
  else ∃ pieces, Marks pieces bare

/-- Which chunk may follow another: a text no text, and a marker without a line
break no text that begins with one, as the marker would take it. -/
def Fits (left right : Bare) : Prop :=
  right.isText → left.isText = false ∧
    (left.source.getLast? = some '>' → ¬['\n'] <+: right.source ∧ ¬['\r', '\n'] <+: right.source)

/-- Chunks that can be told apart once they are written. -/
structure Legible (written : List Bare) : Prop where
  sound : ∀ bare ∈ written, Sound bare
  fits : written.IsChain Fits

section Texts

/-- An opener cannot begin in a text and end in the marker after it. -/
theorem clear_of_plain {content rest : Text}
    (plain : ∀ opener ∈ Settings.standard.openers, ¬opener <:+: content)
    (next : ∀ c ∈ rest.head?, c = '<') : Clear .standard content rest := by
  intro before inside split filled opener member found
  -- The opener lies in the text, or its first characters do and the next one begins the rest.
  by_cases fits : opener.length ≤ inside.length
  · have within : opener <+: inside := List.prefix_of_prefix_length_le found (List.prefix_append ..) fits
    exact plain opener member (within.isInfix.trans (split ▸ (List.suffix_append ..).isInfix))
  · have part : inside <+: opener :=
      List.prefix_of_prefix_length_le (List.prefix_append ..) found (by omega)
    obtain ⟨more, rfl⟩ := part
    have across : more <+: rest := (List.prefix_append_right_inj inside).mp found
    have once : '<' ∉ (inside ++ more).tail := by
      rcases opener_cases member with same | same <;> simp [same, Settings.standard]
    cases inside with
    | nil => exact filled rfl
    | cons c inside =>
      cases more with
      | nil => simp at fits
      | cons d more =>
        obtain ⟨after, rfl⟩ := across
        obtain rfl := next d rfl
        exact once (by simp)

theorem plain_of_clear {settings : Settings} {run rest : Text} (clear : Clear settings run rest) :
    ∀ opener ∈ settings.openers, ¬opener <:+: run := by
  rintro opener member ⟨before, after, rfl⟩
  have filled : opener ≠ [] := by
    have first := head_opener member
    rintro rfl
    cases first
  rw [List.append_assoc] at clear
  exact clear before (opener ++ after) rfl (by simp [filled]) opener member (by simp)

/-- What follows a text does not complete a line break that begins in it. -/
theorem no_break_append {content rest : Text} (filled : content ≠ []) (noFeed : ¬['\n'] <+: content)
    (noPair : ¬['\r', '\n'] <+: content) (next : ∀ c ∈ rest.head?, c = '<') :
    ¬['\n'] <+: content ++ rest ∧ ¬['\r', '\n'] <+: content ++ rest := by
  cases content with
  | nil => exact absurd rfl filled
  | cons c content =>
    simp only [List.cons_append, List.cons_prefix_cons, List.nil_prefix, and_true] at *
    refine ⟨noFeed, ?_⟩
    rintro ⟨rfl, pair⟩
    cases content with
    | cons d content => exact noPair (by simpa [List.cons_prefix_cons] using pair)
    | nil =>
      obtain ⟨after, same⟩ := pair
      rw [List.nil_append] at same
      exact absurd (next '\n' (by simp [← same])) (by decide)

end Texts

section Markers
variable {pieces : Pieces} {marker left right : Bare}

theorem fits_marker (marker : right.isText = false) : Fits left right := by
  simp [Fits, marker]

theorem sound_text_iff {content : Text} : Sound (.text content) ↔
    content ≠ [] ∧ ∀ opener ∈ Settings.standard.openers, ¬opener <:+: content := by
  simp [Sound, Bare.isText, Bare.source]

theorem sound_marker_iff (mark : marker.isText = false) : Sound marker ↔ ∃ pieces, Marks pieces marker := by
  simp [Sound, mark]

theorem Marks.notText (marks : Marks pieces marker) : marker.isText = false := by
  obtain ⟨chunk, read, rfl⟩ := marks.reads "" .start
  rw [isText_bare, (ofMarker_ok read).1]

theorem Marks.head (marks : Marks pieces marker) (rest : Text) :
    (marker.source ++ rest).head? = some '<' := by
  have first := head_opener marks.opens
  rw [marks.raw, Pieces.raw]
  cases opener : pieces.opener with
  | nil => simp [opener] at first
  | cons c tail => simpa [opener] using first

/-- A marker without a line break ends with its closer. -/
theorem Marks.last (marks : Marks pieces marker) (none : pieces.lineBreak = []) :
    marker.source.getLast? = some '>' := by
  obtain ⟨before, -, -, spelled⟩ := closes_of_untilCloser marks.closes
  have last : pieces.closer.getLast? = some '>' := by
    rw [spelled]
    split <;> rfl
  rw [marks.raw, Pieces.raw, Pieces.tail, none, List.append_nil, List.getLast?_append,
    List.getLast?_append, last]
  rfl

theorem Marks.fits (marks : Marks pieces marker)
    (whole : pieces.lineBreak = [] → ¬['\n'] <+: right.source ∧ ¬['\r', '\n'] <+: right.source) :
    Fits marker right := by
  intro _
  refine ⟨marks.notText, fun last => whole ?_⟩
  rcases marks.breaks with none | feed | pair
  · exact none
  · rw [marks.raw, Pieces.raw, Pieces.tail, feed] at last
    simp at last
  · rw [marks.raw, Pieces.raw, Pieces.tail, pair] at last
    simp at last

end Markers

section Legible
variable {written more : List Bare} {first marker : Bare} {pieces : Pieces}

theorem Legible.tail (legible : Legible (first :: more)) : Legible more :=
  ⟨fun other member => legible.sound other (List.mem_cons_of_mem _ member), legible.fits.tail⟩

theorem Legible.head (legible : Legible (first :: more)) : Sound first :=
  legible.sound first List.mem_cons_self

theorem Legible.cons (sound : Sound first) (fits : ∀ next ∈ more.head?, Fits first next)
    (legible : Legible more) : Legible (first :: more) := by
  constructor
  · intro other member
    rcases List.mem_cons.mp member with rfl | member
    · exact sound
    · exact legible.sound other member
  · exact List.isChain_cons.mpr ⟨fits, legible.fits⟩

/-- What stands between two chunks can be replaced by what fits there. -/
theorem Legible.between {before inner others after : List Bare} {last : Bare}
    (legible : Legible (before ++ first :: (inner ++ last :: after)))
    (sound : ∀ bare ∈ others, Sound bare) (fits : (first :: (others ++ [last])).IsChain Fits) :
    Legible (before ++ first :: (others ++ last :: after)) := by
  obtain ⟨front, back⟩ := List.isChain_split.mp legible.fits
  rw [← List.cons_append] at back fits
  obtain ⟨-, rest⟩ := List.isChain_split.mp back
  constructor
  · intro bare member
    have kept : bare ∈ others ∨ bare ∈ before ++ first :: (inner ++ last :: after) := by
      simp only [List.mem_append, List.mem_cons] at member ⊢
      tauto
    rcases kept with added | old
    · exact sound bare added
    · exact legible.sound bare old
  · refine List.isChain_split.mpr ⟨front, ?_⟩
    rw [← List.cons_append]
    exact List.isChain_split.mpr ⟨fits, rest⟩

/-- A text with no opener and no line break in front fits between two markers. -/
theorem Legible.text_between {before inner after : List Bare} {last : Bare} {content : Text}
    (legible : Legible (before ++ first :: (inner ++ last :: after)))
    (opens : first.isText = false) (closes : last.isText = false) (filled : content ≠ [])
    (noFeed : ¬['\n'] <+: content) (noPair : ¬['\r', '\n'] <+: content)
    (plain : ∀ opener ∈ Settings.standard.openers, ¬opener <:+: content) :
    Legible (before ++ first :: ([.text content] ++ last :: after)) := by
  refine legible.between ?_ ?_
  · intro bare member
    obtain rfl := List.mem_singleton.mp member
    exact sound_text_iff.mpr ⟨filled, plain⟩
  · have enters : Fits first (.text content) := fun _ => ⟨opens, fun _ => ⟨noFeed, noPair⟩⟩
    exact .cons_cons enters (.cons_cons (fits_marker closes) (.singleton last))

/-- Two markers fit next to each other. -/
theorem Legible.none_between {before inner after : List Bare} {last : Bare}
    (legible : Legible (before ++ first :: (inner ++ last :: after))) (closes : last.isText = false) :
    Legible (before ++ first :: ([] ++ last :: after)) := by
  refine legible.between (by simp) ?_
  exact .cons_cons (fits_marker closes) (.singleton last)

/-- After a text comes a marker or the end. -/
theorem head_after_text (text : first.isText = true) (legible : Legible (first :: more)) :
    ∀ c ∈ (more.flatMap Bare.source).head?, c = '<' := by
  cases more with
  | nil => simp
  | cons next more =>
    have marker : next.isText = false := by
      by_contra other
      have fits := legible.fits.rel (by simpa using other)
      rw [text] at fits
      cases fits.1
    obtain ⟨pieces, marks⟩ := (sound_marker_iff marker).mp legible.tail.head
    intro c begins
    rw [List.flatMap_cons, marks.head] at begins
    exact (Option.some.inj begins).symm

theorem owns_of_legible (marks : Marks pieces marker) (legible : Legible (marker :: more)) :
    Owns pieces.lineBreak (more.flatMap Bare.source) := by
  refine ⟨marks.breaks, fun none => ?_⟩
  cases more with
  | nil => simp
  | cons next more =>
    rw [List.flatMap_cons]
    cases text : next.isText with
    | false =>
      obtain ⟨others, marks'⟩ := (sound_marker_iff text).mp legible.tail.head
      have bracket := marks'.head (more.flatMap Bare.source)
      constructor <;> rintro ⟨rest, same⟩ <;> simp [← same] at bracket
    | true =>
      obtain ⟨noFeed, noPair⟩ := (legible.fits.rel text).2 (marks.last none)
      cases next with
      | text content =>
        have filled := (sound_text_iff.mp legible.tail.head).1
        exact no_break_append filled noFeed noPair (head_after_text rfl legible.tail)
      | start => cases text
      | stop => cases text

/-- One marker, and the text before it if there is any. -/
theorem scan_marker {file : String} {run : Text} (marks : Marks pieces marker)
    (clear : Clear .standard run (marker.source ++ more.flatMap Bare.source))
    (legible : Legible (marker :: more))
    (scanned : ∀ loc, ∃ chunks, scanFrom .standard file loc (more.flatMap Bare.source) = .ok chunks ∧
      chunks.map Chunk.bare = more) (loc : Position) :
    ∃ chunks, scanFrom .standard file loc (run ++ (marker.source ++ more.flatMap Bare.source)) =
        .ok (ofRun run loc ++ chunks) ∧ chunks.map Chunk.bare = marker :: more := by
  let cut : Cut .standard := {
    toPieces := pieces
    run := run
    rest := more.flatMap Bare.source
    opens := marks.opens
    clear := marks.raw ▸ clear
    closes := by
      rw [Pieces.tail, List.append_assoc]
      exact untilCloser_append marks.closes _
    owns := owns_of_legible marks legible }
  obtain ⟨chunk, read, same⟩ := marks.reads file (cut.headerLoc loc)
  obtain ⟨chunks, after, found⟩ := scanned (cut.nextLoc loc)
  refine ⟨chunk :: chunks, ?_, by rw [List.map_cons, same, found]⟩
  have whole := scanFrom_cut cut read
  rw [show scanFrom .standard file (cut.nextLoc loc) cut.rest = .ok chunks from after] at whole
  rw [marks.raw]
  exact whole

/-- The scan of what is written finds the chunks it is written from. -/
theorem scan_legible (file : String) : ∀ written, Legible written → ∀ loc,
    ∃ chunks, scanFrom .standard file loc (written.flatMap Bare.source) = .ok chunks ∧
      chunks.map Chunk.bare = written
  | [], _, loc => ⟨[], scanFrom_of_clear file loc (clear_nil _), rfl⟩
  | .start name params raw :: more, legible, loc => by
    obtain ⟨pieces, marks⟩ := (sound_marker_iff rfl).mp legible.head
    exact scan_marker marks (clear_nil _) legible (scan_legible file more legible.tail) loc
  | .stop name raw :: more, legible, loc => by
    obtain ⟨pieces, marks⟩ := (sound_marker_iff rfl).mp legible.head
    exact scan_marker marks (clear_nil _) legible (scan_legible file more legible.tail) loc
  | [.text content], legible, loc => by
    obtain ⟨filled, plain⟩ := sound_text_iff.mp legible.head
    have clear : Clear .standard content [] := clear_of_plain plain (by simp)
    refine ⟨[.text content loc], ?_, rfl⟩
    simpa [Bare.source, ofRun, filled] using scanFrom_of_clear file loc clear
  | .text content :: marker :: more, legible, loc => by
    obtain ⟨filled, plain⟩ := sound_text_iff.mp legible.head
    have clear := clear_of_plain plain (head_after_text rfl legible)
    have mark : marker.isText = false := by
      by_contra other
      exact absurd (legible.fits.rel (by simpa using other)).1 (by simp [Bare.isText])
    obtain ⟨pieces, marks⟩ := (sound_marker_iff mark).mp legible.tail.head
    obtain ⟨chunks, scanned, found⟩ :=
      scan_marker marks clear legible.tail (scan_legible file more legible.tail.tail) loc
    refine ⟨.text content loc :: chunks, ?_, by rw [List.map_cons, found]; rfl⟩
    simpa [Bare.source, ofRun, filled] using scanned

end Legible

section Scanned
variable {file : String} {loc : Position} {chunks : List Chunk} {marker : Chunk}

theorem Cut.marks (cut : Cut .standard)
    (read : ofMarker .standard file cut.header cut.raw (cut.headerLoc loc) = .ok marker) :
    Marks cut.toPieces marker.bare where
  opens := cut.opens
  closes := untilCloser_append cut.closes _
  breaks := cut.owns.form
  raw := by rw [source_bare, (ofMarker_ok read).2.1]
  reads := fun file' elsewhere => ofMarker_elsewhere read file' elsewhere

/-- A run of text in front of a marker is one chunk more, unless it is empty. -/
theorem Legible.run {run : Text} {rest : Text} {more : List Bare} (loc : Position)
    (clear : Clear .standard run rest) (markers : ∀ next ∈ more.head?, next.isText = false)
    (legible : Legible more) : Legible ((ofRun run loc).map Chunk.bare ++ more) := by
  cases run with
  | nil => exact legible
  | cons c run =>
    have sound : Sound (.text (c :: run)) := sound_text_iff.mpr ⟨by simp, plain_of_clear clear⟩
    exact legible.cons sound fun next first => fits_marker (markers next first)

/-- What a scan finds can be told apart. -/
theorem Scans.legible {text : Text} {outcome : Except Halt (List Chunk)}
    (scans : Scans .standard file loc text outcome) (done : outcome = .ok chunks) :
    Legible (chunks.map Chunk.bare) := by
  induction scans generalizing chunks with
  | @plain loc text clear =>
    cases done
    have run := Legible.run loc clear (by simp) ⟨by simp, .nil⟩
    simpa using run
  | unclosed => cases done
  | refused => cases done
  | @marked loc marker outcome cut read more ih =>
    cases outcome with
    | error halt => cases done
    | ok rest =>
      cases done
      have marks := cut.marks read
      have after := ih rfl
      have fits : ∀ next ∈ (rest.map Chunk.bare).head?, Fits marker.bare next := by
        intro next first
        refine marks.fits fun none => ?_
        have begins : next.source <+: cut.rest := by
          rw [← (more.tiles rest rfl).covers]
          cases rest with
          | nil => cases first
          | cons chunk rest =>
            cases first
            rw [List.flatMap_cons, source_bare]
            exact List.prefix_append ..
        obtain ⟨noFeed, noPair⟩ := cut.owns.whole none
        exact ⟨fun feed => noFeed (feed.trans begins), fun pair => noPair (pair.trans begins)⟩
      have marker := after.cons ((sound_marker_iff marks.notText).mpr ⟨_, marks⟩) fits
      have whole := Legible.run loc cut.clear (by simpa using (ofMarker_ok read).1) marker
      simpa using whole

end Scanned
end Regen.Chunk
