import Regen.Document.Chunk
import Regen.Proofs.Advance

/-! What one turn of the scan does, said without the scan: the text up to the
first opener, the marker that the first closer ends, and the line break the
marker owns. `Scans` lists the four ways a scan can go on from a place; every
property of chunks follows from it by one induction. -/
namespace Regen.Chunk

/-- Whether a chunk is text rather than a marker. -/
def isText : Chunk → Bool
  | .text .. => true
  | .start _ => false
  | .stop _ => false

/-- No opener begins inside `run` when `rest` follows it. -/
def Clear (settings : Settings) (run rest : Text) : Prop :=
  ∀ before inside, run = before ++ inside → inside ≠ [] →
    ∀ opener ∈ settings.openers, ¬opener <+: inside ++ rest

/-- `part` stands in `text` between `before` and `after`, and nowhere earlier. -/
def FirstAt (part text before after : Text) : Prop :=
  text = before ++ part ++ after ∧
    ∀ earlier later, text = earlier ++ part ++ later → before.length ≤ earlier.length

/-- What holds wherever a list is split holds at its head and wherever its tail is. -/
theorem forall_split_cons_iff {α : Type} {motive : List α → α → List α → Prop} {first : α}
    {list : List α} :
    (∀ before chosen after, first :: list = before ++ chosen :: after → motive before chosen after) ↔
      motive [] first list ∧
        ∀ before chosen after, list = before ++ chosen :: after →
          motive (first :: before) chosen after := by
  constructor
  · intro everywhere
    refine ⟨everywhere [] first list rfl, ?_⟩
    rintro before chosen after rfl
    exact everywhere (first :: before) chosen after rfl
  · rintro ⟨here, later⟩ before chosen after split
    cases before with
    | nil =>
      obtain ⟨rfl, rfl⟩ := List.cons.inj split
      exact here
    | cons _ before =>
      obtain ⟨rfl, rest⟩ := List.cons.inj split
      exact later before chosen after rest

theorem ofMarker_ok {settings : Settings} {file : String} {header raw : Text} {loc : Position}
    {marker : Chunk} (reads : ofMarker settings file header raw loc = .ok marker) :
    marker.isText = false ∧ marker.source = raw ∧ marker.loc = loc := by
  unfold ofMarker at reads
  split at reads
  · cases reads
  · split at reads <;> cases reads <;> exact ⟨rfl, rfl, rfl⟩

section Opener
variable {settings : Settings}

/-- Both spellings begin like a comment and end in a blank. -/
theorem opener_cases {opener : Text} (member : opener ∈ settings.openers) :
    opener = '<' :: '!' :: '-' :: '-' :: '-' :: ' ' :: settings.markerKeyword.toList ++ [' '] ∨
      opener = '<' :: '!' :: '-' :: '-' :: ' ' :: settings.markerKeyword.toList ++ [' '] := by
  simpa [Settings.openers] using member

theorem head_opener {opener : Text} (member : opener ∈ settings.openers) : opener.head? = some '<' := by
  rcases opener_cases member with rfl | rfl <;> rfl

/-- Neither spelling begins with the other. -/
theorem opener?_append {opener : Text} (member : opener ∈ settings.openers) (body : Text) :
    opener? settings.openers (opener ++ body) = some (opener, body) := by
  have word := Text.after?_append (settings.markerKeyword.toList ++ [' ']) body
  rw [List.append_assoc, List.singleton_append] at word
  rcases opener_cases member with rfl | rfl <;>
    simp [opener?, Settings.openers, Text.after?, word]

theorem opener?_eq_none_iff {text : Text} :
    opener? settings.openers text = none ↔ ∀ opener ∈ settings.openers, ¬opener <+: text := by
  simp only [opener?, List.findSome?_eq_none_iff, Option.map_eq_none_iff]
  refine forall₂_congr fun opener _ => ?_
  rw [Option.eq_none_iff_forall_ne_some]
  constructor
  · rintro missing ⟨body, rfl⟩
    exact missing body (Text.after?_append opener body)
  · rintro missing body found
    exact missing ⟨body, (Text.eq_append_of_after? found).symm⟩

theorem clear_nil (rest : Text) : Clear settings [] rest := by
  intro before inside split filled
  simp_all

theorem clear_cons_iff {c : Char} {run rest : Text} :
    Clear settings (c :: run) rest ↔
      opener? settings.openers (c :: run ++ rest) = none ∧ Clear settings run rest := by
  rw [opener?_eq_none_iff]
  constructor
  · intro clear
    refine ⟨clear [] (c :: run) rfl (by simp), ?_⟩
    rintro before inside rfl filled
    exact clear (c :: before) inside rfl filled
  · rintro ⟨here, clear⟩ before inside split filled
    cases before with
    | nil =>
      obtain rfl : c :: run = inside := split
      exact here
    | cons d before =>
      obtain ⟨rfl, rfl⟩ := List.cons.inj split
      exact clear before inside rfl filled

theorem Clear.of_append {run rest more : Text} (clear : Clear settings run (rest ++ more)) :
    Clear settings run rest := by
  intro before inside split filled opener member found
  refine clear before inside split filled opener member ?_
  rw [← List.append_assoc]
  exact found.trans (List.prefix_append ..)

theorem Clear.alone {run rest : Text} (clear : Clear settings run rest) : Clear settings run [] :=
  Clear.of_append (show Clear settings run ([] ++ rest) from clear)

theorem clear_append_iff {left right rest : Text} : Clear settings (left ++ right) rest ↔
    Clear settings left (right ++ rest) ∧ Clear settings right rest := by
  induction left with
  | nil => simp [clear_nil]
  | cons c left ih =>
    rw [List.cons_append, clear_cons_iff, clear_cons_iff, ih, List.cons_append, List.cons_append,
      List.append_assoc, and_assoc]

theorem not_clear_of_opener {run opener body rest : Text} (member : opener ∈ settings.openers) :
    ¬Clear settings (run ++ (opener ++ body)) rest := by
  intro clear
  refine clear run (opener ++ body) rfl (fun none => ?_) opener member ⟨body ++ rest, by simp⟩
  obtain ⟨tail, rfl⟩ := List.head?_eq_some_iff.mp (head_opener member)
  cases none

/-- A clear run that an opener ends is the only one. -/
theorem Clear.run_eq {run run' rest rest' : Text} {found found' : Text × Text}
    (clear : Clear settings run rest) (clear' : Clear settings run' rest')
    (whole : run ++ rest = run' ++ rest') (opens : opener? settings.openers rest = some found)
    (opens' : opener? settings.openers rest' = some found') : run = run' := by
  induction run generalizing run' with
  | nil =>
    cases run' with
    | nil => rfl
    | cons c run' =>
      rw [List.nil_append] at whole
      rw [whole, (clear_cons_iff.mp clear').1] at opens
      cases opens
  | cons c run ih =>
    cases run' with
    | nil =>
      rw [List.nil_append] at whole
      rw [← whole, (clear_cons_iff.mp clear).1] at opens'
      cases opens'
    | cons c' run' =>
      obtain ⟨rfl, rest⟩ := List.cons.inj whole
      rw [ih (clear_cons_iff.mp clear).2 (clear_cons_iff.mp clear').2 rest]

/-- An opener stands at candidates only. -/
theorem opener?_of_other {text : Text} (other : ∀ tail, text ≠ '<' :: '!' :: '-' :: tail) :
    opener? settings.openers text = none := by
  rw [opener?_eq_none_iff]
  rintro opener member ⟨body, rfl⟩
  rcases opener_cases member with rfl | rfl <;> exact other _ rfl

theorem clear_of_untilCandidate {text skipped rest : Text}
    (found : untilCandidate text = some (skipped, rest)) : Clear settings skipped rest := by
  fun_induction untilCandidate text generalizing skipped with
  | case1 =>
    cases found
    exact clear_nil _
  | case2 c more other ih =>
    obtain ⟨⟨skipped', rest'⟩, inner, same⟩ := Option.map_eq_some_iff.mp found
    cases same
    rw [clear_cons_iff, List.cons_append, (untilCandidate_restores inner).1]
    exact ⟨opener?_of_other fun tail same => by cases same; exact other tail rfl rfl, ih inner⟩
  | case3 => cases found

theorem clear_of_untilCandidate_eq_none {text : Text} (absent : untilCandidate text = none) :
    Clear settings text [] := by
  fun_induction untilCandidate text with
  | case1 => cases absent
  | case2 c more other ih =>
    rw [clear_cons_iff, List.append_nil]
    refine ⟨opener?_of_other fun tail same => by cases same; exact other tail rfl rfl, ih ?_⟩
    exact Option.map_eq_none_iff.mp absent
  | case3 => exact clear_nil _

/-- Before and at a candidate without an opener there is none. -/
theorem clear_of_candidate {text skipped rest : Text} (candidate : untilCandidate text = some (skipped, rest))
    (shut : opener? settings.openers rest = none) :
    Clear settings (skipped ++ rest.take 1) (rest.drop 1) := by
  obtain ⟨-, tail, rfl⟩ := untilCandidate_restores candidate
  rw [clear_append_iff, List.take_append_drop]
  exact ⟨clear_of_untilCandidate candidate, clear_cons_iff.mpr ⟨shut, clear_nil _⟩⟩

/-- A search without a result has passed a clear text. -/
theorem clear_of_nextOpening_eq_none {loc : Position} {text : Text}
    (absent : nextOpening settings.openers loc text = none) : Clear settings text [] := by
  fun_induction nextOpening settings.openers loc text with
  | case1 loc text candidate => exact clear_of_untilCandidate_eq_none candidate
  | case2 => cases absent
  | case3 loc text skipped rest candidate shut ih =>
    rw [← (untilCandidate_restores candidate).1, ← List.take_append_drop 1 rest, ← List.append_assoc,
      clear_append_iff, List.append_nil]
    exact ⟨clear_of_candidate candidate shut, ih (Option.map_eq_none_iff.mp absent)⟩

/-- A search that goes on behind each candidate finds the first opener, at its position. -/
theorem clear_of_nextOpening {loc : Position} {text : Text} {found : Opening}
    (opened : nextOpening settings.openers loc text = some found) :
    Clear settings found.run (found.opener ++ found.body) ∧ found.loc = loc.advance found.run := by
  fun_induction nextOpening settings.openers loc text generalizing found with
  | case1 => cases opened
  | case2 loc text skipped rest candidate opener body opens =>
    cases opened
    rw [← (opener?_restores opens).2]
    exact ⟨clear_of_untilCandidate candidate, rfl⟩
  | case3 loc text skipped rest candidate shut ih =>
    obtain ⟨inner, opens, rfl⟩ := Option.map_eq_some_iff.mp opened
    obtain ⟨clear, stands⟩ := ih opens
    have before := clear_of_candidate candidate shut
    rw [(nextOpening_restores opens).2] at before
    refine ⟨clear_append_iff.mpr ⟨before, clear⟩, ?_⟩
    -- The step over a candidate is the step over its angle bracket.
    obtain ⟨-, tail, rfl⟩ := untilCandidate_restores candidate
    have seam : Position.Seam skipped ['<'] := Position.seam_of_head rfl (by decide)
    have seam' : Position.Seam (skipped ++ ['<']) inner.run :=
      Position.seam_of_last (List.getLast?_concat ..) (by decide)
    rw [stands, List.take_succ_cons, List.take_zero, Position.advance_append _ _ _ seam',
      Position.advance_append _ _ _ seam]
    rfl

/-- The first opener is found behind a clear run. -/
theorem nextOpening_of_clear {run opener body : Text} (member : opener ∈ settings.openers)
    (clear : Clear settings run (opener ++ body)) (loc : Position) :
    nextOpening settings.openers loc (run ++ (opener ++ body)) =
      some ⟨run, loc.advance run, opener, body⟩ := by
  have opens := opener?_append member body
  cases opened : nextOpening settings.openers loc (run ++ (opener ++ body)) with
  | none =>
    exact absurd (clear_of_nextOpening_eq_none opened) (not_clear_of_opener member)
  | some found =>
    obtain ⟨found', stands⟩ := clear_of_nextOpening opened
    obtain ⟨member', whole⟩ := nextOpening_restores opened
    have same := clear.run_eq found' whole opens (opener?_append member' _)
    rw [same] at whole
    have rests := List.append_cancel_left whole
    rw [rests, opener?_append member'] at opens
    obtain ⟨run', loc', opener', body'⟩ := found
    obtain rfl : run = run' := same
    obtain rfl : loc' = loc.advance run := stands
    cases opens
    rfl

end Opener

/-- A marker ends with the first two dashes and angle bracket after its opener.
They are its closer, with the dash before them when there is one. -/
def Closes (body content closer after : Text) : Prop :=
  ∃ before, FirstAt ['-', '-', '>'] body before after ∧
    content ++ closer = before ++ ['-', '-', '>'] ∧
    closer = if before.getLast? = some '-' then ['-', '-', '-', '>'] else ['-', '-', '>']

theorem closes_of_untilCloser {body content closer after : Text}
    (found : untilCloser body = some (content, closer, after)) :
    Closes body content closer after := by
  fun_induction untilCloser body generalizing content with
  | case1 rest =>
    cases found
    refine ⟨['-'], ⟨rfl, ?_⟩, rfl, rfl⟩
    intro earlier later split
    cases earlier with
    | nil => simp at split
    | cons c earlier => simp
  | case2 rest =>
    cases found
    exact ⟨[], ⟨rfl, by simp⟩, rfl, rfl⟩
  | case3 c rest notThree notTwo ih =>
    obtain ⟨tail, inner, same⟩ := Option.map_eq_some_iff.mp found
    obtain ⟨body, mark, rest'⟩ := tail
    cases same
    obtain ⟨before, ⟨split, least⟩, joined, spelled⟩ := ih inner
    refine ⟨c :: before, ⟨by simp [split], ?_⟩, by simp [joined], ?_⟩
    · intro earlier later found
      cases earlier with
      | nil =>
        obtain ⟨rfl, tail⟩ := List.cons.inj found
        exact absurd tail (notTwo later rfl)
      | cons d earlier =>
        obtain ⟨rfl, tail⟩ := List.cons.inj found
        simpa using least earlier later (by simpa using tail)
    · cases before with
      | nil =>
        have single : c ≠ '-' := by
          rintro rfl
          exact notThree after rfl split
        simpa [single] using spelled
      | cons d before => simpa using spelled
  | case4 => cases found

/-- A character that begins no closer is part of what the marker holds. -/
theorem untilCloser_cons {c : Char} {rest : Text}
    (notThree : ∀ more, c = '-' → rest = '-' :: '-' :: '>' :: more → False)
    (notTwo : ∀ more, c = '-' → rest = '-' :: '>' :: more → False) :
    untilCloser (c :: rest) = (untilCloser rest).map fun found => (c :: found.1, found.2) := by
  rw [untilCloser]
  · exact notThree
  · exact notTwo

theorem Closes.three_le {body content closer after : Text} (closes : Closes body content closer after) :
    3 ≤ closer.length := by
  obtain ⟨before, -, -, rfl⟩ := closes
  split <;> decide

/-- What stands after a marker has no say in where it ends. -/
theorem untilCloser_append {body content closer after : Text}
    (found : untilCloser body = some (content, closer, after)) (other : Text) :
    untilCloser (content ++ closer ++ other) = some (content, closer, other) := by
  fun_induction untilCloser body generalizing content with
  | case1 => cases found; rfl
  | case2 => cases found; rfl
  | case3 c rest notThree notTwo ih =>
    obtain ⟨tail, inner, same⟩ := Option.map_eq_some_iff.mp found
    obtain ⟨body, mark, rest'⟩ := tail
    cases same
    have wide := (closes_of_untilCloser inner).three_le
    have whole := (untilCloser_restores inner).1
    have start (first : Text) (short : first.length ≤ 3) (more : Text)
        (begins : body ++ closer ++ other = first ++ more) : first <+: rest := by
      have inside : first <+: body ++ closer := by
        refine List.prefix_of_prefix_length_le ⟨more, begins.symm⟩ (List.prefix_append ..) ?_
        rw [List.length_append]
        omega
      exact whole ▸ inside.trans (List.prefix_append ..)
    rw [List.cons_append, List.cons_append, untilCloser_cons, ih inner]
    · rfl
    · rintro more rfl begins
      obtain ⟨rest'', same⟩ := start ['-', '-', '>'] (by decide) more begins
      exact notThree rest'' rfl same.symm
    · rintro more rfl begins
      obtain ⟨rest'', same⟩ := start ['-', '>'] (by decide) more begins
      exact notTwo rest'' rfl same.symm
  | case4 => cases found

theorem untilCloser_eq_none_iff {body : Text} :
    untilCloser body = none ↔ ¬['-', '-', '>'] <:+: body := by
  fun_induction untilCloser body with
  | case1 rest => simpa using ⟨['-'], rest, rfl⟩
  | case2 rest => simpa using ⟨[], rest, rfl⟩
  | case3 c rest notThree notTwo ih =>
    rw [Option.map_eq_none_iff, ih, List.infix_cons_iff, not_or]
    refine ⟨fun later => ⟨?_, later⟩, And.right⟩
    rintro ⟨tail, joined⟩
    obtain ⟨rfl, same⟩ := List.cons.inj joined
    exact notTwo tail rfl same.symm
  | case4 => simp

/-- The text after a marker begins with the line break it owns, and with none
other when it owns none. -/
structure Owns (lineBreak rest : Text) : Prop where
  form : lineBreak = [] ∨ lineBreak = ['\n'] ∨ lineBreak = ['\r', '\n']
  whole : lineBreak = [] → ¬['\n'] <+: rest ∧ ¬['\r', '\n'] <+: rest

theorem owns_newline (text : Text) :
    Owns (newline text) (text.drop (newline text).length) := by
  fun_cases newline text with
  | case1 rest => exact ⟨by simp, by simp⟩
  | case2 rest => exact ⟨by simp, by simp⟩
  | case3 _ noPair noFeed =>
    refine ⟨Or.inl rfl, fun _ => ⟨?_, ?_⟩⟩
    · rintro ⟨rest, rfl⟩
      exact noFeed rest rfl
    · rintro ⟨rest, rfl⟩
      exact noPair rest rfl

theorem Owns.of_append {lineBreak rest more : Text} (owns : Owns lineBreak (rest ++ more)) :
    Owns lineBreak rest := by
  refine ⟨owns.form, fun empty => ⟨fun feed => ?_, fun pair => ?_⟩⟩
  · exact (owns.whole empty).1 (feed.trans (List.prefix_append ..))
  · exact (owns.whole empty).2 (pair.trans (List.prefix_append ..))

theorem newline_of_owns {lineBreak rest : Text} (owns : Owns lineBreak rest) :
    newline (lineBreak ++ rest) = lineBreak := by
  rcases owns.form with rfl | rfl | rfl
  · obtain ⟨noFeed, noPair⟩ := owns.whole rfl
    fun_cases newline rest with
    | case1 more => exact absurd ⟨more, rfl⟩ noPair
    | case2 more => exact absurd ⟨more, rfl⟩ noFeed
    | case3 => simp_all
  · rfl
  · rfl

/-- The pieces a marker is made of, in order. -/
structure Pieces where
  opener : Text
  header : Text
  closer : Text
  lineBreak : Text

/-- What follows the opener of a marker. -/
def Pieces.tail (pieces : Pieces) : Text := pieces.header ++ pieces.closer ++ pieces.lineBreak

/-- The whole marker. -/
def Pieces.raw (pieces : Pieces) : Text := pieces.opener ++ pieces.tail

/-- A text cut around the first marker in it. -/
structure Cut (settings : Settings) extends Pieces where
  run : Text
  rest : Text
  opens : opener ∈ settings.openers
  clear : Clear settings run (toPieces.raw ++ rest)
  closes : untilCloser (toPieces.tail ++ rest) = some (header, closer, lineBreak ++ rest)
  owns : Owns lineBreak rest

namespace Cut
variable {settings : Settings} (cut : Cut settings)

/-- The text that was cut. -/
def text : Text := cut.run ++ (cut.raw ++ cut.rest)

/-- Where the header begins when the text begins at `loc`. -/
def headerLoc (loc : Position) : Position := (loc.advance cut.run).right cut.opener.length

/-- Where the text after the marker begins. -/
def nextLoc (loc : Position) : Position := (cut.headerLoc loc).advance cut.tail

/-- The same marker in a text that ends earlier. -/
def shorten (before after : Text) (split : cut.rest = before ++ after) : Cut settings where
  toPieces := cut.toPieces
  run := cut.run
  rest := before
  opens := cut.opens
  clear := by
    have clear := cut.clear
    rw [split, ← List.append_assoc] at clear
    exact clear.of_append
  closes := by
    rw [Pieces.tail, List.append_assoc]
    exact untilCloser_append cut.closes _
  owns := (split ▸ cut.owns).of_append

end Cut

/-- What the scan of the text that begins at `loc` can come to: a last run of
text, a marker that is never closed, a marker whose header is refused, or a
marker and what the scan of the text after it comes to. -/
inductive Scans (settings : Settings) (file : String) :
    Position → Text → Except Halt (List Chunk) → Prop
  | plain {loc : Position} {text : Text} (clear : Clear settings text []) :
    Scans settings file loc text (.ok (ofRun text loc))
  | unclosed {loc : Position} {run opener body : Text} (clear : Clear settings run (opener ++ body))
    (opens : opener ∈ settings.openers) (never : untilCloser body = none) :
    Scans settings file loc (run ++ (opener ++ body))
      (.error (.fault ⟨.markup .unterminated opener,
        some ((loc.advance run).right opener.length), some file⟩))
  | refused {loc : Position} {halt : Halt} (cut : Cut settings)
    (refuses : ofMarker settings file cut.header cut.raw (cut.headerLoc loc) = .error halt) :
    Scans settings file loc cut.text (.error halt)
  | marked {loc : Position} {marker : Chunk} {outcome : Except Halt (List Chunk)} (cut : Cut settings)
    (reads : ofMarker settings file cut.header cut.raw (cut.headerLoc loc) = .ok marker)
    (more : Scans settings file (cut.nextLoc loc) cut.rest outcome) :
    Scans settings file loc cut.text (outcome.map fun chunks => ofRun cut.run loc ++ marker :: chunks)

section Turn
variable {settings : Settings} {loc : Position} {text header closer after : Text} {found : Opening}

private theorem body_of_closed (closed : untilCloser found.body = some (header, closer, after)) :
    header ++ closer ++ newline after ++ after.drop (newline after).length = found.body := by
  rw [List.append_assoc, newline_restores]
  exact (untilCloser_restores closed).1.symm

/-- The cut that the scan makes when it finds an opener and a closer. -/
private def cutAt (opened : nextOpening settings.openers loc text = some found)
    (closed : untilCloser found.body = some (header, closer, after)) : Cut settings where
  opener := found.opener
  header := header
  closer := closer
  lineBreak := newline after
  run := found.run
  rest := after.drop (newline after).length
  opens := (nextOpening_restores opened).1
  clear := by
    rw [Pieces.raw, Pieces.tail, List.append_assoc, body_of_closed closed]
    exact (clear_of_nextOpening opened).1
  closes := by
    rw [Pieces.tail, body_of_closed closed, newline_restores]
    exact closed
  owns := owns_newline after

private theorem text_cutAt (opened : nextOpening settings.openers loc text = some found)
    (closed : untilCloser found.body = some (header, closer, after)) :
    (cutAt opened closed).text = text := by
  simp only [Cut.text, cutAt, Pieces.raw, Pieces.tail, List.append_assoc found.opener]
  rw [body_of_closed closed]
  exact (nextOpening_restores opened).2.symm

private theorem headerLoc_cutAt (opened : nextOpening settings.openers loc text = some found)
    (closed : untilCloser found.body = some (header, closer, after)) :
    (cutAt opened closed).headerLoc loc = found.loc.right found.opener.length := by
  rw [(clear_of_nextOpening opened).2]
  rfl

end Turn

theorem scanFrom_scans (settings : Settings) (file : String) (loc : Position) (text : Text) :
    Scans settings file loc text (scanFrom settings file loc text) := by
  fun_induction scanFrom settings file loc text with
  | case1 loc text opened => exact .plain (clear_of_nextOpening_eq_none opened)
  | case2 loc text found opened headerLoc never =>
    obtain ⟨member, whole⟩ := nextOpening_restores opened
    obtain ⟨clear, stands⟩ := clear_of_nextOpening opened
    simp only [headerLoc, stands]
    exact whole ▸ .unclosed clear member never
  | case3 loc text found opened headerLoc header closer after closed tail halt refuses =>
    simp only [headerLoc, ← headerLoc_cutAt opened closed] at refuses
    exact text_cutAt opened closed ▸ .refused (cutAt opened closed) refuses
  | case4 loc text found opened headerLoc header closer after closed tail marker reads halt fails ih =>
    rw [fails] at ih
    simp only [headerLoc, ← headerLoc_cutAt opened closed] at reads ih
    exact text_cutAt opened closed ▸ .marked (cutAt opened closed) reads ih
  | case5 loc text found opened headerLoc header closer after closed tail marker reads more scanned ih =>
    rw [scanned] at ih
    simp only [headerLoc, ← headerLoc_cutAt opened closed] at reads ih
    exact text_cutAt opened closed ▸ .marked (cutAt opened closed) reads ih

theorem scanFrom_of_clear {settings : Settings} {text : Text} (file : String) (loc : Position)
    (clear : Clear settings text []) : scanFrom settings file loc text = .ok (ofRun text loc) := by
  rw [scanFrom]
  split
  · rfl
  · rename_i found opened
    obtain ⟨member, whole⟩ := nextOpening_restores opened
    rw [whole] at clear
    exact absurd clear (not_clear_of_opener member)

/-- The scan of a text that has been cut goes on after the marker, or stops with it. -/
theorem scanFrom_of_cut {settings : Settings} {file : String} {loc : Position} (cut : Cut settings) :
    scanFrom settings file loc cut.text =
      (ofMarker settings file cut.header cut.raw (cut.headerLoc loc)).bind fun marker =>
        (scanFrom settings file (cut.nextLoc loc) cut.rest).map fun chunks =>
          ofRun cut.run loc ++ marker :: chunks := by
  have raw : cut.raw ++ cut.rest = cut.opener ++ (cut.tail ++ cut.rest) := by
    rw [Pieces.raw, List.append_assoc]
  have opens := nextOpening_of_clear cut.opens (raw ▸ cut.clear) loc
  rw [← raw, ← Cut.text] at opens
  rw [scanFrom]
  split
  · rename_i absent
    rw [opens] at absent
    cases absent
  · rename_i found opened
    rw [opens] at opened
    cases opened
    split
    · rename_i never
      simp [cut.closes] at never
    · rename_i header closer after closed
      rw [cut.closes] at closed
      cases closed
      simp only [newline_of_owns cut.owns, List.drop_left, Cut.nextLoc, Cut.headerLoc, Pieces.raw,
        Pieces.tail]
      split
      · rename_i refuses
        rw [refuses]
        rfl
      · rename_i reads
        rw [reads]
        split <;> rename_i more <;> simp only [Except.bind, more] <;> rfl

theorem scanFrom_cut {settings : Settings} {file : String} {loc : Position} {marker : Chunk}
    (cut : Cut settings)
    (reads : ofMarker settings file cut.header cut.raw (cut.headerLoc loc) = .ok marker) :
    scanFrom settings file loc cut.text =
      (scanFrom settings file (cut.nextLoc loc) cut.rest).map fun chunks =>
        ofRun cut.run loc ++ marker :: chunks := by
  rw [scanFrom_of_cut, reads]
  rfl

/-- The scan stops at the first marker that is refused. -/
theorem scanFrom_refused {settings : Settings} {file : String} {loc : Position} {halt : Halt}
    (cut : Cut settings)
    (refuses : ofMarker settings file cut.header cut.raw (cut.headerLoc loc) = .error halt) :
    scanFrom settings file loc cut.text = .error halt := by
  rw [scanFrom_of_cut, refuses]
  rfl

end Regen.Chunk
