import Regen.Proofs.HeaderTokens
import Regen.Proofs.LexemeBoundaries
import Regen.Proofs.ScanSemantics

/-! Every position that a scan reports is the true one: the position reached from
the beginning of the document by the text before the place it is about. The scan
and the lexer only ever advance over the piece they have just read, so what is
kept along the way is that the place reached lies on a seam. -/
namespace Regen

namespace Position

/-- The true position of what stands in a document after `offset` characters. -/
def ofOffset (source : Text) (offset : Nat) : Position :=
  start.advance (source.take offset)

/-- `loc` is where `rest` begins in a document, of which `consumed` is before. -/
structure Reached (source consumed rest : Text) (loc : Position) : Prop where
  whole : source = consumed ++ rest
  loc_eq : loc = start.advance consumed
  seam : Seam consumed rest

section Reached
variable {source consumed part rest : Text} {loc : Position}

theorem Reached.start (source : Text) : Reached source [] source start where
  whole := rfl
  loc_eq := rfl
  seam := by simp [Seam]

theorem Reached.ofOffset (reached : Reached source consumed rest loc) :
    loc = ofOffset source consumed.length := by
  rw [reached.loc_eq, Position.ofOffset, reached.whole, List.take_left]

theorem Reached.advance (reached : Reached source consumed (part ++ rest) loc)
    (next : Seam part rest) : Reached source (consumed ++ part) rest (loc.advance part) := by
  cases part with
  | nil => simpa [Position.advance] using reached
  | cons c part =>
    have before : Seam consumed (c :: part) := fun cut => reached.seam cut
    refine ⟨by rw [reached.whole, List.append_assoc], ?_, ?_⟩
    · rw [advance_append _ _ _ before, ← reached.loc_eq]
    · rintro ⟨last, first⟩
      exact next ⟨by simpa using last, first⟩

end Reached
end Position

namespace Header
open Position

/-- The lexemes that are tokens, each with the number of characters before it. -/
def spots (offset : Nat) : List Lexeme → List (Nat × Symbol)
  | [] => []
  | lexeme :: more =>
    match lexeme.symbol? with
    | some symbol => (offset, symbol) :: spots (offset + lexeme.text.length) more
    | none => spots (offset + lexeme.text.length) more

/-- The tokens of lexemes that begin after `offset` characters of a document, at
their true positions. -/
def tokensAt (source : Text) (offset : Nat) (lexemes : List Lexeme) : List Token :=
  (spots offset lexemes).map fun spot => ⟨spot.2, ofOffset source spot.1⟩

/-- The first lexeme that is no token nor blank is after `offset` characters and
begins with `c`. -/
def IllegalAt (lexemes : List Lexeme) (offset : Nat) (c : Char) : Prop :=
  ∃ before lexeme after, lexemes = before ++ lexeme :: after ∧
    (∀ earlier ∈ before, earlier.kind ≠ .illegal) ∧ lexeme.kind = .illegal ∧
    lexeme.text.head? = some c ∧ offset = (before.flatMap Lexeme.text).length

/-- What reading tokens from lexemes at `offset` comes to. -/
def Reads (source : Text) (offset : Nat) (lexemes : List Lexeme) : Except TokenFault (List Token) → Prop
  | .ok tokens => tokens = tokensAt source offset lexemes
  | .error (.illegal c loc) =>
    ∃ inside, IllegalAt lexemes inside c ∧ loc = ofOffset source (offset + inside)
  | .error (.numeralTooLong _) => True

section Lexemes
variable {source : Text} {offset : Nat} {lexeme : Lexeme} {more : List Lexeme} {loc : Position}

theorem illegalAt_cons {inside : Nat} {c : Char} (later : IllegalAt more inside c)
    (legal : lexeme.kind ≠ .illegal) :
    IllegalAt (lexeme :: more) (lexeme.text.length + inside) c := by
  obtain ⟨before, found, after, rfl, none, illegal, first, rfl⟩ := later
  refine ⟨lexeme :: before, found, after, rfl, ?_, illegal, first, by simp⟩
  rintro earlier member
  rcases List.mem_cons.mp member with rfl | member
  · exact legal
  · exact none earlier member

theorem fault?_of_illegal {c : Char} {tail : Text} (written : lexeme.text = c :: tail)
    (illegal : lexeme.kind = .illegal) : lexeme.fault? loc = some (.illegal c loc) := by
  simp [Lexeme.fault?, written, illegal]

theorem fault?_of_legal (loc : Position) (legal : lexeme.kind ≠ .illegal) :
    lexeme.fault? loc = none ∨ ∃ digits, lexeme.fault? loc = some (.numeralTooLong digits) := by
  unfold Lexeme.fault?
  split
  · exact absurd ‹_› legal
  · split
    · exact Or.inr ⟨_, rfl⟩
    · exact Or.inl rfl
  · exact Or.inl rfl

/-- One lexeme in front of those that have been read. -/
theorem reads_cons {c : Char} {tail : Text} (written : lexeme.text = c :: tail)
    (place : loc = ofOffset source offset)
    (reads : Reads source (offset + lexeme.text.length) more
      (Token.ofLexemes (loc.advance lexeme.text) more)) :
    Reads source offset (lexeme :: more) (Token.ofLexemes loc (lexeme :: more)) := by
  unfold Token.ofLexemes
  by_cases illegal : lexeme.kind = .illegal
  · rw [fault?_of_illegal written illegal]
    exact ⟨0, ⟨[], lexeme, more, rfl, by simp, illegal, by rw [written]; rfl, rfl⟩, place⟩
  · rcases fault?_of_legal loc illegal with none | ⟨digits, long⟩
    · rw [none]
      cases rest : Token.ofLexemes (loc.advance lexeme.text) more with
      | ok tokens =>
        rw [rest] at reads
        cases reads
        cases meant : lexeme.symbol? with
        | none => simp [Reads, tokensAt, spots, meant]
        | some symbol => simp [Reads, tokensAt, spots, meant, place]
      | error fault =>
        rw [rest] at reads
        cases fault with
        | illegal d loc' =>
          obtain ⟨inside, later, same⟩ := reads
          exact ⟨_, illegalAt_cons later illegal, by rw [same, Nat.add_assoc]⟩
        | numeralTooLong digits => exact True.intro
    · rw [long]
      exact True.intro

end Lexemes

theorem seam_append {left right after : Text} (seam : Seam left right)
    (next : after.head? ≠ some '\n') : Seam left (right ++ after) := by
  cases right with
  | nil => exact fun cut => next cut.2
  | cons c right => exact fun cut => seam cut

theorem reads_tokenize {source consumed header after : Text} {loc : Position}
    (reached : Reached source consumed (header ++ after) loc) (next : after.head? ≠ some '\n') :
    Reads source consumed.length (lexemes header) (tokenize header loc) := by
  unfold tokenize
  fun_induction lexemes header generalizing consumed loc with
  | case1 => exact rfl
  | case2 c rest found =>
    rename_i ih
    have whole : c :: rest ++ after =
        (c :: rest.take (scanLexeme c rest).2) ++ (rest.drop (scanLexeme c rest).2 ++ after) := by
      rw [List.cons_append, List.cons_append, ← List.append_assoc, List.take_append_drop]
    have seam := seam_append (seam_of_scanLexeme c rest) next
    rw [whole] at reached
    have later := ih (reached.advance seam)
    rw [List.length_append] at later
    exact reads_cons rfl reached.ofOffset later

end Header

namespace Chunk
open Position Header

/-- A marker is written as an opener, a header, and the first closer after it. -/
def HeaderOf (settings : Settings) (raw opener header : Text) : Prop :=
  opener ∈ settings.openers ∧ ∃ closer lineBreak, raw = opener ++ (header ++ closer ++ lineBreak) ∧
    Closes (header ++ closer ++ lineBreak) header closer lineBreak

/-- The positions in a chunk are the true ones when it begins after `offset`
characters: that of text is where it begins, that of a marker where its header
begins, and that of a parameter where its key is written. -/
def Located (settings : Settings) (source : Text) (offset : Nat) : Chunk → Prop
  | .text _ loc => loc = ofOffset source offset
  | .start marker => ∃ opener header, HeaderOf settings marker.raw opener header ∧
    marker.loc = ofOffset source (offset + opener.length) ∧
    ∃ tokens, tokens = tokensAt source (offset + opener.length) (lexemes header) ∧
      KeysAt (tokens.drop (nameWidth (tokens.map Token.symbol))) marker.params
  | .stop marker => ∃ opener header, HeaderOf settings marker.raw opener header ∧
    marker.loc = ofOffset source (offset + opener.length)

/-- The positions in chunks are the true ones when they begin after `offset`
characters. -/
def AllLocated (settings : Settings) (source : Text) (offset : Nat) (chunks : List Chunk) : Prop :=
  ∀ before chunk after, chunks = before ++ chunk :: after →
    Located settings source (offset + (before.flatMap Chunk.source).length) chunk

/-- Why the scan stops at a marker that begins after `offset` characters, with
the true position of what is at fault: the character that begins no lexeme, the
token that does not fit, the first key of parameters that may not be there, or
where the header begins when something is missing at an end. -/
inductive Blamed (settings : Settings) (file : String) (source : Text) (offset : Nat) :
    Text → Halt → Prop
  | unclosed {opener body : Text} : opener ∈ settings.openers → ¬['-', '-', '>'] <:+: body →
    Blamed settings file source offset (opener ++ body)
      (.fault ⟨.markup .unterminated opener, some (ofOffset source (offset + opener.length)),
        some file⟩)
  | illegal {raw rest opener header : Text} {inside : Nat} {c : Char} :
    HeaderOf settings raw opener header → IllegalAt (lexemes header) inside c →
    Blamed settings file source offset (raw ++ rest)
      (.fault ⟨.markup (.illegal (.text (String.singleton c))) raw,
        some (ofOffset source (offset + opener.length + inside)), some file⟩)
  | tooLong {raw rest : Text} {digits : Nat} :
    Blamed settings file source offset (raw ++ rest)
      (.escape ⟨.badValue, numeralTooLongMessage digits⟩)
  | unexpected {raw rest opener header : Text} {tokens : List Token} {token : Token} :
    HeaderOf settings raw opener header →
    tokens = tokensAt source (offset + opener.length) (lexemes header) → token ∈ tokens →
    parse settings.actionNamespace tokens = .error (.unexpected token) →
    Blamed settings file source offset (raw ++ rest)
      (.fault ⟨.markup (.grammar (.text ("syntax error before " ++ token.symbol.describe))) raw,
        some token.loc, some file⟩)
  | ended {raw rest opener header : Text} {tokens : List Token} {what : Expectation} :
    HeaderOf settings raw opener header →
    tokens = tokensAt source (offset + opener.length) (lexemes header) →
    parse settings.actionNamespace tokens = .error (.endsBefore what) →
    Blamed settings file source offset (raw ++ rest)
      (.fault ⟨.markup (.grammar (.text ("expected " ++ what.describe))) raw,
        some (ofOffset source (offset + opener.length)), some file⟩)
  | paramsOnEnd {raw rest opener header : Text} {slash loc : Position} {tokens : List Token}
    {key : String} :
    HeaderOf settings raw opener header →
    ⟨.slash, slash⟩ :: tokens = tokensAt source (offset + opener.length) (lexemes header) →
    tokens[nameWidth (tokens.map Token.symbol)]? = some ⟨.identifier key, loc⟩ →
    Blamed settings file source offset (raw ++ rest)
      (.fault ⟨.markup .paramsOnEnd raw, some loc, some file⟩)

section Marker
variable {settings : Settings} {file : String} {source consumed raw opener header after rest : Text}
  {loc : Position} {offset : Nat}

/-- What a marker is read as is at its true position, and so is what is wrong
with it. -/
theorem located_or_blamed (written : HeaderOf settings raw opener header)
    (reached : Reached source consumed (header ++ after) loc) (next : after.head? ≠ some '\n')
    (place : consumed.length = offset + opener.length) :
    match ofMarker settings file header raw loc with
    | .ok marker => Located settings source offset marker
    | .error halt => Blamed settings file source offset (raw ++ rest) halt := by
  have reads := reads_tokenize reached next
  have here := reached.ofOffset
  rw [place] at reads here
  unfold ofMarker
  cases tokenized : tokenize header loc with
  | error fault =>
    rw [tokenized] at reads
    cases fault with
    | illegal c at' =>
      obtain ⟨inside, illegal, rfl⟩ := reads
      exact .illegal written illegal
    | numeralTooLong digits => exact .tooLong
  | ok tokens =>
    rw [tokenized] at reads
    dsimp only
    cases parsed : parse settings.actionNamespace tokens with
    | error fault =>
      rcases about_of_parse parsed with (⟨what, rfl⟩ | ⟨token, member, rfl⟩) | found
      · exact here ▸ .ended written reads parsed
      · exact .unexpected written reads member parsed
      · obtain ⟨slash, more, key, loc', rfl, found, rfl⟩ := found
        exact .paramsOnEnd written reads found
    | ok header' =>
      cases header' with
      | start name params => exact ⟨opener, header, written, here, tokens, reads, keysAt_of_parse parsed⟩
      | stop name => exact ⟨opener, header, written, here⟩

end Marker

section Opener
variable {settings : Settings} {opener : Text}

theorem last_opener (opens : opener ∈ settings.openers) : opener.getLast? = some ' ' := by
  rcases opener_cases opens with rfl | rfl <;> simp [List.getLast?_cons]

theorem level_opener (level : '\n' ∉ settings.markerKeyword.toList)
    (opens : opener ∈ settings.openers) : '\n' ∉ opener := by
  rcases opener_cases opens with rfl | rfl <;> simp [level]

end Opener

namespace Cut
variable {settings : Settings} (cut : Cut settings) {source consumed : Text} {loc : Position}

theorem headerOf : HeaderOf settings cut.raw cut.opener cut.header := by
  refine ⟨cut.opens, cut.closer, cut.lineBreak, rfl, ?_⟩
  exact closes_of_untilCloser (untilCloser_append cut.closes cut.lineBreak)

theorem head_raw (after : Text) : (cut.raw ++ after).head? = some '<' := by
  have first := head_opener cut.opens
  rw [Pieces.raw]
  cases opener : cut.opener with
  | nil => simp [opener] at first
  | cons c rest => simpa [opener] using first

theorem last_closer : cut.closer.getLast? = some '>' := by
  obtain ⟨before, -, -, spelled⟩ := closes_of_untilCloser cut.closes
  rw [spelled]
  split <;> rfl

/-- A marker ends in an angle bracket or a line feed. -/
theorem seam_tail : Seam cut.tail cut.rest := by
  have bracket := cut.last_closer
  rcases cut.owns.form with none | feed | pair
  · refine seam_of_last (c := '>') ?_ (by decide)
    simp [Pieces.tail, none, bracket]
  · refine seam_of_last (c := '\n') ?_ (by decide)
    simp [Pieces.tail, feed]
  · refine seam_of_last (c := '\n') ?_ (by decide)
    simp [Pieces.tail, pair]

theorem reached_marker (reached : Reached source consumed cut.text loc) :
    Reached source (consumed ++ cut.run) (cut.raw ++ cut.rest) (loc.advance cut.run) :=
  reached.advance (seam_of_head (cut.head_raw _) (by decide))

theorem reached_header (level : '\n' ∉ settings.markerKeyword.toList)
    (reached : Reached source consumed cut.text loc) :
    Reached source (consumed ++ cut.run ++ cut.opener) (cut.tail ++ cut.rest) (cut.headerLoc loc) := by
  have marker := cut.reached_marker reached
  rw [Pieces.raw, List.append_assoc] at marker
  rw [headerLoc, ← advance_of_noLineFeed _ _ (level_opener level cut.opens)]
  exact marker.advance (seam_of_last (last_opener cut.opens) (by decide))

theorem reached_next (level : '\n' ∉ settings.markerKeyword.toList)
    (reached : Reached source consumed cut.text loc) :
    Reached source (consumed ++ (cut.run ++ cut.raw)) cut.rest (cut.nextLoc loc) := by
  have next := (cut.reached_header level reached).advance cut.seam_tail
  simpa [Pieces.raw, nextLoc] using next

end Cut

section Scan
variable {settings : Settings} {file : String} {source : Text}

theorem Cut.located_or_blamed (cut : Cut settings) (file : String) {consumed : Text} {loc : Position}
    (level : '\n' ∉ settings.markerKeyword.toList) (reached : Reached source consumed cut.text loc) :
    match ofMarker settings file cut.header cut.raw (cut.headerLoc loc) with
    | .ok marker => Located settings source (consumed.length + cut.run.length) marker
    | .error halt =>
      Blamed settings file source (consumed.length + cut.run.length) (cut.raw ++ cut.rest) halt := by
  have header : Reached source (consumed ++ cut.run ++ cut.opener)
      (cut.header ++ (cut.closer ++ (cut.lineBreak ++ cut.rest))) (cut.headerLoc loc) := by
    have tail := cut.reached_header level reached
    simpa only [Pieces.tail, List.append_assoc] using tail
  refine Chunk.located_or_blamed cut.headerOf header ?_ (by simp [Nat.add_assoc])
  obtain ⟨before, -, -, spelled⟩ := closes_of_untilCloser cut.closes
  rw [spelled]
  split <;> simp

theorem AllLocated.cons {offset : Nat} {chunk : Chunk} {chunks : List Chunk}
    (first : Located settings source offset chunk)
    (later : AllLocated settings source (offset + chunk.source.length) chunks) :
    AllLocated settings source offset (chunk :: chunks) := by
  refine forall_split_cons_iff.mpr ⟨first, ?_⟩
  intro before other after split
  simpa [Nat.add_assoc] using later before other after split

theorem AllLocated.run {offset : Nat} {run : Text} {loc : Position} {chunks : List Chunk}
    (place : loc = ofOffset source offset)
    (later : AllLocated settings source (offset + run.length) chunks) :
    AllLocated settings source offset (ofRun run loc ++ chunks) := by
  cases run with
  | nil => exact later
  | cons c run =>
    have first : Located settings source offset (.text (c :: run) loc) := place
    exact AllLocated.cons first later

theorem Scans.located {consumed text : Text} {loc : Position} {outcome : Except Halt (List Chunk)}
    (level : '\n' ∉ settings.markerKeyword.toList) (scans : Scans settings file loc text outcome)
    (reached : Reached source consumed text loc) (chunks : List Chunk) (done : outcome = .ok chunks) :
    AllLocated settings source consumed.length chunks := by
  induction scans generalizing consumed chunks with
  | @plain loc text clear =>
    cases done
    rw [← List.append_nil (ofRun text loc)]
    exact AllLocated.run reached.ofOffset (by simp [AllLocated])
  | unclosed => cases done
  | refused => cases done
  | @marked loc marker outcome cut reads more ih =>
    cases outcome with
    | error halt => cases done
    | ok rest =>
      cases done
      have located := cut.located_or_blamed file level reached
      rw [reads] at located
      have later := ih (cut.reached_next level reached) rest rfl
      rw [List.length_append, List.length_append, ← Nat.add_assoc, ← (ofMarker_ok reads).2.1] at later
      exact AllLocated.run reached.ofOffset (AllLocated.cons located later)

/-- A scan that stops has read everything before the marker it stops at. -/
theorem Scans.blamed {consumed text : Text} {loc : Position} {outcome : Except Halt (List Chunk)}
    (level : '\n' ∉ settings.markerKeyword.toList) (scans : Scans settings file loc text outcome)
    (reached : Reached source consumed text loc) (halt : Halt) (stopped : outcome = .error halt) :
    ∃ before rest chunks, text = before ++ rest ∧ scanFrom settings file loc before = .ok chunks ∧
      Blamed settings file source (consumed.length + before.length) rest halt := by
  induction scans generalizing consumed halt with
  | plain => cases stopped
  | @unclosed loc run opener body clear opens never =>
    cases stopped
    have seam : Seam run (opener ++ body) := by
      apply seam_of_head (c := '<') _ (by decide)
      rw [List.head?_append, head_opener opens]
      rfl
    have marker := (reached.advance seam).advance
      (seam_of_last (last_opener opens) (by decide))
    rw [advance_of_noLineFeed _ _ (level_opener level opens)] at marker
    have place := marker.ofOffset
    simp only [List.length_append] at place
    rw [place]
    exact ⟨run, opener ++ body, ofRun run loc, rfl, scanFrom_of_clear file loc clear.alone,
      .unclosed opens (untilCloser_eq_none_iff.mp never)⟩
  | @refused loc halt cut refuses =>
    cases stopped
    have blamed := cut.located_or_blamed file level reached
    rw [refuses] at blamed
    exact ⟨cut.run, cut.raw ++ cut.rest, ofRun cut.run loc, rfl,
      scanFrom_of_clear file loc cut.clear.alone, blamed⟩
  | @marked loc marker outcome cut reads more ih =>
    cases outcome with
    | ok rest => cases stopped
    | error halt =>
      cases stopped
      obtain ⟨before, rest, chunks, split, scanned, blamed⟩ :=
        ih (cut.reached_next level reached) halt rfl
      have shorter := scanFrom_cut (cut.shorten before rest split) reads
      have scanned : scanFrom settings file ((cut.shorten before rest split).nextLoc loc)
          (cut.shorten before rest split).rest = .ok chunks := scanned
      rw [scanned] at shorter
      refine ⟨_, rest, _, ?_, shorter, ?_⟩
      · simp [Cut.text, Cut.shorten, split]
      · simp only [List.length_append, ← Nat.add_assoc] at blamed
        simpa [Cut.text, Cut.shorten, Nat.add_assoc] using blamed

/-- A run of text is met before the chunks after it. -/
theorem increasing_run {run : Text} {loc : Position} {chunks : List Chunk}
    (later : ∀ chunk ∈ chunks, loc.Before chunk.loc)
    (ordered : chunks.Pairwise fun left right => left.loc.Before right.loc) :
    (∀ chunk ∈ ofRun run loc ++ chunks, loc.NotAfter chunk.loc) ∧
      (ofRun run loc ++ chunks).Pairwise fun left right => left.loc.Before right.loc := by
  unfold ofRun
  split
  · exact ⟨fun chunk member => Or.inr (later chunk member), ordered⟩
  · refine ⟨?_, List.pairwise_cons.mpr ⟨later, ordered⟩⟩
    intro chunk member
    rcases List.mem_cons.mp member with rfl | member
    · exact Or.inl rfl
    · exact Or.inr (later chunk member)

/-- The chunks of a text are met in order, none before the text begins. -/
theorem Scans.increasing {text : Text} {loc : Position} {outcome : Except Halt (List Chunk)}
    (scans : Scans settings file loc text outcome) (chunks : List Chunk) (done : outcome = .ok chunks) :
    (∀ chunk ∈ chunks, loc.NotAfter chunk.loc) ∧
      chunks.Pairwise fun left right => left.loc.Before right.loc := by
  induction scans generalizing chunks with
  | @plain loc text clear =>
    cases done
    rw [← List.append_nil (ofRun text loc)]
    exact increasing_run (by simp) .nil
  | unclosed => cases done
  | refused => cases done
  | @marked loc marker outcome cut reads more ih =>
    cases outcome with
    | error halt => cases done
    | ok rest =>
      cases done
      obtain ⟨after, ordered⟩ := ih rest rfl
      have header : marker.loc = cut.headerLoc loc := (ofMarker_ok reads).2.2
      have opener : 0 < cut.opener.length := by
        rcases opener_cases cut.opens with same | same <;> simp [same]
      have tail : cut.tail ≠ [] := by
        intro empty
        have bracket := cut.last_closer
        simp only [Pieces.tail, List.append_eq_nil_iff] at empty
        simp [empty.1.2] at bracket
      have toHeader : loc.Before (cut.headerLoc loc) :=
        (notAfter_advance loc cut.run).before (before_right _ opener)
      have toNext : (cut.headerLoc loc).Before (cut.nextLoc loc) := before_advance _ _ tail
      apply increasing_run
      · intro chunk member
        rcases List.mem_cons.mp member with rfl | member
        · exact header ▸ toHeader
        · exact (toHeader.trans toNext).notAfter (after chunk member)
      · refine List.pairwise_cons.mpr ⟨fun chunk member => ?_, ordered⟩
        exact header ▸ toNext.notAfter (after chunk member)

end Scan

/-- Where the keyword has no line feed, every position that the scan of a document
reports is the true one, that of the marker it stops at included, and chunks come
in the order of their positions. -/
theorem scan_positions_true (settings : Settings) (file : String) (source : Text)
    (level : '\n' ∉ settings.markerKeyword.toList) :
    (∀ chunks, scan settings file source = .ok chunks →
      AllLocated settings source 0 chunks ∧
      chunks.Pairwise fun earlier later => earlier.loc.Before later.loc) ∧
    (∀ halt, scan settings file source = .error halt →
      ∃ before rest chunks, source = before ++ rest ∧ scan settings file before = .ok chunks ∧
        Blamed settings file source before.length rest halt) := by
  have scans := scanFrom_scans settings file .start source
  refine ⟨fun chunks done => ⟨?_, (scans.increasing chunks done).2⟩, fun halt stopped => ?_⟩
  · exact scans.located level (.start source) chunks done
  · obtain ⟨before, rest, chunks, whole, scanned, blamed⟩ :=
      scans.blamed level (.start source) halt stopped
    rw [List.length_nil, Nat.zero_add] at blamed
    exact ⟨before, rest, chunks, whole, scanned, blamed⟩

/-- A marker after a line break of two characters, with a character that begins
no lexeme on its second line. -/
def faultyText : Text := "a\r\n<!-- rdmx :x\n  k:! -->".toList

theorem faulty_position_true : '\n' ∉ Settings.standard.markerKeyword.toList ∧
    ∃ fault before rest chunks, scan .standard "doc" faultyText = .error (.fault fault) ∧
      fault.loc = some ⟨3, 5⟩ ∧ faultyText = before ++ rest ∧
      scan .standard "doc" before = .ok chunks ∧
      Blamed .standard "doc" faultyText before.length rest (.fault fault) := by
  have level : '\n' ∉ Settings.standard.markerKeyword.toList := by decide
  have refused : (fault? (scan .standard "doc" faultyText)).bind Fault.loc = some ⟨3, 5⟩ := by decide +kernel
  obtain ⟨fault, stopped, place⟩ := Option.bind_eq_some_iff.mp refused
  have found := eq_error_of_fault? stopped
  obtain ⟨before, rest, chunks, whole, scanned, blamed⟩ :=
    (scan_positions_true .standard "doc" faultyText level).2 _ found
  exact ⟨level, fault, before, rest, chunks, found, place, whole, scanned, blamed⟩

end Chunk
end Regen
