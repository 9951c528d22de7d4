import Regen.Excerpt
import Regen.Proofs.MarkerHeaders
import Regen.Proofs.Occurrences

/-! Excerpts are slices of a file. The search for a section goes through the forest of
blocks, while its result is a stretch of the text: what stands between the two markers
of the first block, in the order of the text, that declares the section. -/
namespace Regen

/-- A block declares a section: the name of the section is all that it is given. -/
def Declares (namespaceName name : String) (block : Block) : Prop :=
  block.start.name = ⟨namespaceName, "section"⟩ ∧ ∃ loc, block.start.params = [⟨"name", .text name, loc⟩]

/-- A block is the first one of a document that declares a section. -/
structure Declaring (namespaceName name : String) (nodes : List Node) (place : Occurrence) : Prop where
  stands : place.In nodes
  declares : Declares namespaceName name place.block
  first : ∀ other : Occurrence, other.In nodes → Declares namespaceName name other.block →
    other = place ∨ place.before.length < other.before.length

section Search
variable {namespaceName name : String} {block : Block} {body more nodes : List Node} {content : Text}
  {place other : Occurrence}

theorem isSection_iff : Node.isSection namespaceName name block = true ↔ Declares namespaceName name block := by
  simp only [Node.isSection, Declares, Bool.and_eq_true, decide_eq_true_eq,
    List.map_eq_singleton_iff, Prod.mk.injEq]
  refine and_congr_right fun _ => ⟨?_, ?_⟩
  · rintro ⟨⟨key, value, loc⟩, same, rfl, rfl⟩
    exact ⟨loc, same⟩
  · rintro ⟨loc, same⟩
    exact ⟨_, same, rfl, rfl⟩

@[simp] theorem sectionOf?_nil : Node.sectionOf? namespaceName name [] = none := by rw [Node.sectionOf?]

@[simp] theorem sectionOf?_text :
    Node.sectionOf? namespaceName name (.text content :: more) = Node.sectionOf? namespaceName name more := by
  rw [Node.sectionOf?, Node.section?]

theorem sectionOf?_block_of_declares (declares : Declares namespaceName name block) :
    Node.sectionOf? namespaceName name (.block block body :: more) = some body := by
  rw [Node.sectionOf?, Node.section?, if_pos (isSection_iff.mpr declares)]

theorem sectionOf?_block_of_not (other : ¬Declares namespaceName name block) :
    Node.sectionOf? namespaceName name (.block block body :: more) =
      (Node.sectionOf? namespaceName name body).or (Node.sectionOf? namespaceName name more) := by
  rw [Node.sectionOf?, Node.section?, if_neg (mt isSection_iff.mp other)]
  cases Node.sectionOf? namespaceName name body <;> rfl

/-- Where nothing is found no block declares the section. -/
theorem sectionOf?_eq_none (missing : Node.sectionOf? namespaceName name nodes = none) (stands : place.In nodes) :
    ¬Declares namespaceName name place.block := by
  induction stands with
  | here =>
    intro declares
    rw [sectionOf?_block_of_declares declares] at missing
    cases missing
  | @past node more place _ ih =>
    cases node with
    | text content => exact ih (by simpa using missing)
    | block block body =>
      by_cases outer : Declares namespaceName name block
      · rw [sectionOf?_block_of_declares outer] at missing
        cases missing
      · rw [sectionOf?_block_of_not outer, Option.or_eq_none_iff] at missing
        exact ih missing.2
  | @within block body more place _ ih =>
    by_cases outer : Declares namespaceName name block
    · rw [sectionOf?_block_of_declares outer] at missing
      cases missing
    · rw [sectionOf?_block_of_not outer, Option.or_eq_none_iff] at missing
      exact ih missing.1

/-- What is found is the body of the first block that declares the section: a block
comes before those inside it, as its marker is not empty, and these before what follows it. -/
theorem declaring_of_sectionOf? (filled : ∀ place : Occurrence, place.In nodes → place.block.start.raw ≠ [])
    (found : Node.sectionOf? namespaceName name nodes = some body) :
    ∃ place, Declaring namespaceName name nodes place ∧ place.body = body := by
  induction nodes using Tree.forest_induction with
  | nil => simp at found
  | text content more ih =>
    obtain ⟨place, ⟨stands, declares, first⟩, same⟩ := ih
      (fun place stands => filled (place.past content) (@Occurrence.In.past (.text content) _ _ stands))
      (by simpa using found)
    refine ⟨place.past content, ⟨@Occurrence.In.past (.text content) _ _ stands, declares, ?_⟩, same⟩
    intro other located declares'
    obtain ⟨later, stands', rfl⟩ := Occurrence.in_text_iff.mp located
    exact (first later stands' declares').imp (congrArg _) (by simp)
  | block block inner more inside after =>
    have written : 0 < block.start.raw.length := List.length_pos_iff.mpr (filled _ .here)
    have whole : (Node.source (.block block inner)).length =
        block.start.raw.length + (Node.sourceAll inner).length + block.footer.length := by
      simp [Node.source, Nat.add_assoc]
    by_cases outer : Declares namespaceName name block
    · rw [sectionOf?_block_of_declares outer] at found
      cases found
      refine ⟨_, ⟨.here, outer, ?_⟩, rfl⟩
      rintro other stands -
      rcases Occurrence.in_block_iff.mp stands with rfl | ⟨within, -, rfl⟩ | ⟨later, -, rfl⟩
      · exact .inl rfl
      · exact .inr (by simp; omega)
      · exact .inr (by simp; omega)
    · rw [sectionOf?_block_of_not outer, Option.or_eq_some_iff] at found
      rcases found with found | ⟨none, found⟩
      · obtain ⟨place, ⟨stands, declares, first⟩, same⟩ :=
          inside (fun place stands => filled (place.within _ _) (.within stands)) found
        refine ⟨place.within block (Node.sourceAll more), ⟨.within stands, declares, ?_⟩, same⟩
        intro other located declares'
        rcases Occurrence.in_block_iff.mp located with rfl | ⟨within, stands', rfl⟩ | ⟨later, -, rfl⟩
        · exact absurd declares' outer
        · exact (first within stands' declares').imp (congrArg _) (by simp)
        · have within := congrArg List.length stands.sourceAll
          have written' : 0 < place.block.start.raw.length :=
            List.length_pos_iff.mpr (filled (place.within block _) (.within stands))
          simp only [Occurrence.source, List.length_append] at within
          exact .inr (by simp; omega)
      · obtain ⟨place, ⟨stands, declares, first⟩, same⟩ :=
          after (fun place stands => filled (place.past _) (.past stands)) found
        refine ⟨place.past (Node.source (.block block inner)), ⟨.past stands, declares, ?_⟩, same⟩
        intro other located declares'
        rcases Occurrence.in_block_iff.mp located with rfl | ⟨within, stands', rfl⟩ | ⟨later, stands', rfl⟩
        · exact absurd declares' outer
        · have other := sectionOf?_eq_none none stands'
          exact absurd declares' other
        · exact (first later stands' declares').imp (congrArg _) (by simp)

/-- There is one first block. -/
theorem Declaring.unique (declaring : Declaring namespaceName name nodes place)
    (declaring' : Declaring namespaceName name nodes other) : place = other := by
  rcases declaring.first other declaring'.stands declaring'.declares with same | later
  · exact same.symm
  · rcases declaring'.first place declaring.stands declaring.declares with same | earlier
    · exact same
    · omega

end Search

section Written
open Header
variable {actionNamespace namespaceName name : String} {tokens : List Token} {action : ActionName}
  {params : List Parameter}

/-- Tokens write the header of a section: after its name, a key and a quoted text or a
bare word. -/
def WritesSection (actionNamespace namespaceName name : String) (tokens : List Token) : Prop :=
  ∃ named key colon value, tokens = named ++ [key, colon, value] ∧
    WritesBody actionNamespace named ⟨namespaceName, "section"⟩ [] ∧
    key.symbol = .identifier "name" ∧ colon.symbol = .colon ∧
    (value.symbol = .text name ∨ value.symbol = .identifier name)

theorem writesValue_text_iff {symbol : Symbol} :
    WritesValue symbol (.text name) ↔ symbol = .text name ∨ symbol = .identifier name := by
  constructor
  · rintro (_ | _)
    · exact .inl rfl
    · exact .inr rfl
  · rintro (rfl | rfl)
    · exact .text name
    · exact .identifier name

theorem writesParams_nil_iff : WritesParams tokens [] ↔ tokens = [] := by
  constructor
  · rintro ⟨⟩
    rfl
  · rintro rfl
    exact .nil

theorem writesParams_name_iff : (∃ loc, WritesParams tokens [⟨"name", .text name, loc⟩]) ↔
    ∃ key colon value, tokens = [key, colon, value] ∧ key.symbol = .identifier "name" ∧
      colon.symbol = .colon ∧ (value.symbol = .text name ∨ value.symbol = .identifier name) := by
  constructor
  · rintro ⟨loc, written⟩
    cases written with
    | cons valued more =>
      obtain rfl := writesParams_nil_iff.mp more
      exact ⟨_, _, _, rfl, rfl, rfl, writesValue_text_iff.mp valued⟩
  · rintro ⟨⟨_, loc⟩, ⟨_, loc'⟩, value, rfl, rfl, rfl, valued⟩
    exact ⟨loc, .cons (writesValue_text_iff.mpr valued) .nil⟩

/-- Tokens write one header at most. -/
theorem Header.Writes.unique {header header' : Header} (written : Writes actionNamespace tokens header)
    (written' : Writes actionNamespace tokens header') : header = header' :=
  Except.ok.inj ((parse_eq_ok_iff.mpr written).symm.trans (parse_eq_ok_iff.mpr written'))

/-- A start marker declares a section exactly when it is written so. -/
theorem writesSection_iff (written : Writes actionNamespace tokens (.start action params)) :
    WritesSection actionNamespace namespaceName name tokens ↔
      action = ⟨namespaceName, "section"⟩ ∧ ∃ loc, params = [⟨"name", .text name, loc⟩] := by
  constructor
  · rintro ⟨named, key, colon, value, rfl, body, rest⟩
    obtain ⟨loc, given⟩ := writesParams_name_iff.mpr ⟨key, colon, value, rfl, rest⟩
    have whole : WritesBody actionNamespace (named ++ [key, colon, value]) ⟨namespaceName, "section"⟩
        [⟨"name", .text name, loc⟩] := by
      cases body with
      | short none =>
        obtain rfl := writesParams_nil_iff.mp none
        exact .short given
      | full none =>
        obtain rfl := writesParams_nil_iff.mp none
        exact .full given
    cases written.unique (.start whole)
    exact ⟨rfl, loc, rfl⟩
  · rintro ⟨rfl, loc, rfl⟩
    cases written with
    | start body =>
      cases body with
      | short given =>
        obtain ⟨key, colon, value, rfl, rest⟩ := writesParams_name_iff.mp ⟨loc, given⟩
        exact ⟨[_, _], key, colon, value, rfl, .short .nil, rest⟩
      | full given =>
        obtain ⟨key, colon, value, rfl, rest⟩ := writesParams_name_iff.mp ⟨loc, given⟩
        exact ⟨[_, _, _], key, colon, value, rfl, .full .nil, rest⟩

end Written

section Excerpt
variable {surroundings : Surroundings} {path name : String} {content : Bytes} {text result : Text}
  {document : Document} {place : Occurrence} {body : List Node}

namespace Surroundings

theorem excerpt_of_found (kept : surroundings.files.read (Path.ofString path) = .ok content)
    (decoded : Utf8.decode content = .ok text)
    (parsed : Document.parse surroundings.limits.nesting surroundings.settings (some path) text =
      .ok document)
    (found : Node.sectionOf? surroundings.settings.defaultNamespace name document.nodes = some body) :
    surroundings.excerpt path name = .ok (Node.sourceAll body) := by
  delta excerpt
  simp [kept, decoded, parsed, Document.excerpt?, found]

theorem excerpt_of_missing (kept : surroundings.files.read (Path.ofString path) = .ok content)
    (decoded : Utf8.decode content = .ok text)
    (parsed : Document.parse surroundings.limits.nesting surroundings.settings (some path) text =
      .ok document)
    (missing : Node.sectionOf? surroundings.settings.defaultNamespace name document.nodes = none) :
    surroundings.excerpt path name =
      .error (.escape ⟨.badValue, s!"section {quote name} could not be found in {path}"⟩) := by
  delta excerpt
  simp [kept, decoded, parsed, Document.excerpt?, missing]

/-- An excerpt is what the first block holds that declares the section. -/
theorem excerpt_eq_ok_iff (kept : surroundings.files.read (Path.ofString path) = .ok content)
    (decoded : Utf8.decode content = .ok text)
    (parsed : Document.parse surroundings.limits.nesting surroundings.settings (some path) text =
      .ok document) :
    surroundings.excerpt path name = .ok result ↔ ∃ place,
      Declaring surroundings.settings.defaultNamespace name document.nodes place ∧
      result = Node.sourceAll place.body := by
  cases search : Node.sectionOf? surroundings.settings.defaultNamespace name document.nodes with
  | none =>
    rw [excerpt_of_missing kept decoded parsed search]
    refine iff_of_false nofun ?_
    rintro ⟨place, declaring, -⟩
    exact sectionOf?_eq_none search declaring.stands declaring.declares
  | some body =>
    rw [excerpt_of_found kept decoded parsed search]
    obtain ⟨place, declaring, rfl⟩ := declaring_of_sectionOf? (fun _ => Document.marker_ne_nil parsed) search
    constructor
    · intro same
      exact ⟨place, declaring, (Except.ok.inj same).symm⟩
    · rintro ⟨place', declaring', rfl⟩
      rw [declaring.unique declaring']

/-- The excerpt of a file that parses is a slice of its text. There is one exactly when
some block, at any depth, declares the section: it is given the name alone, written as a
quoted text or a bare word. The block whose start marker comes first is taken, and the
excerpt is what stands between its two markers. Where no block declares the section it
is reported as missing. -/
theorem excerpt_slices (kept : surroundings.files.read (Path.ofString path) = .ok content)
    (decoded : Utf8.decode content = .ok text)
    (parsed : Document.parse surroundings.limits.nesting surroundings.settings (some path) text =
      .ok document) :
    ((∃ result, surroundings.excerpt path name = .ok result) ↔
      ∃ place : Occurrence, place.In document.nodes ∧
        Declares surroundings.settings.defaultNamespace name place.block) ∧
    (∀ result, surroundings.excerpt path name = .ok result → ∃ place,
      Declaring surroundings.settings.defaultNamespace name document.nodes place ∧
      result = Node.sourceAll place.body ∧
      text = place.before ++ place.block.start.raw ++ result ++ place.block.footer ++ place.after) ∧
    ((¬∃ place : Occurrence, place.In document.nodes ∧
        Declares surroundings.settings.defaultNamespace name place.block) →
      surroundings.excerpt path name =
        .error (.escape ⟨.badValue, s!"section {quote name} could not be found in {path}"⟩)) ∧
    ∃ chunks, Chunk.scan surroundings.settings path text = .ok chunks ∧
      (∀ place : Occurrence, place.In document.nodes →
        (∃ first inner stop last, place.Marked chunks first inner stop last) ∧
        ∃ tokens, (Chunk.start place.block.start).Holds surroundings.settings tokens ∧
          (Declares surroundings.settings.defaultNamespace name place.block ↔
            WritesSection surroundings.settings.actionNamespace
              surroundings.settings.defaultNamespace name tokens)) ∧
      ∀ first start last, chunks = first ++ .start start :: last →
        ∃ place : Occurrence, place.In document.nodes ∧ place.block.start = start ∧
          place.before = first.flatMap Chunk.source := by
  obtain ⟨chunks, scanned, spells⟩ := Document.spells_of_parse parsed
  refine ⟨⟨?_, ?_⟩, ?_, ?_, chunks, scanned, ?_, fun _ _ _ => Occurrence.in_of_start spells⟩
  · rintro ⟨result, found⟩
    obtain ⟨place, declaring, -⟩ := (excerpt_eq_ok_iff kept decoded parsed).mp found
    exact ⟨place, declaring.stands, declaring.declares⟩
  · rintro ⟨place, stands, declares⟩
    cases search : Node.sectionOf? surroundings.settings.defaultNamespace name document.nodes with
    | none => exact absurd declares (sectionOf?_eq_none search stands)
    | some body => exact ⟨_, excerpt_of_found kept decoded parsed search⟩
  · intro result found
    obtain ⟨place, declaring, rfl⟩ := (excerpt_eq_ok_iff kept decoded parsed).mp found
    refine ⟨place, declaring, rfl, ?_⟩
    have whole := declaring.stands.sourceAll
    rw [← Document.source_of_parse parsed, Document.source, whole]
    simp [Occurrence.source]
  · intro none
    cases search : Node.sectionOf? surroundings.settings.defaultNamespace name document.nodes with
    | none => exact excerpt_of_missing kept decoded parsed search
    | some body =>
      obtain ⟨place, declaring, -⟩ := declaring_of_sectionOf? (fun _ => Document.marker_ne_nil parsed) search
      exact absurd ⟨place, declaring.stands, declaring.declares⟩ none
  · intro place stands
    obtain ⟨first, inner, stop, last, marked⟩ := stands.marked spells
    have member : Chunk.start place.block.start ∈ chunks := by
      rw [marked.whole]
      exact List.mem_append_cons_self
    obtain ⟨tokens, holds, written⟩ :=
      (Chunk.scanFrom_scans surroundings.settings path .start text).writes scanned member rfl
    exact ⟨⟨first, inner, stop, last, marked⟩, tokens, holds, (writesSection_iff written).symm⟩

/-- A section inside another of the same name. -/
def nestedText : Text :=
  ("<!-- rdmx :section name:\"x\" -->a<!-- rdmx :section name:x -->b<!-- rdmx /:section -->" ++
    "<!-- rdmx /:section -->").toList

def nestedSurroundings : Surroundings where
  settings := .standard
  limits := ⟨2, 2⟩
  files := ⟨[(["w"], .directory), (["w", "n.md"], .file (Utf8.encode nestedText))], ["w"]⟩
  now := ⟨2024, 1, 2, 0, 0, 0, 0⟩
  installed := []
  evaluate := fun _ => .value ""
  readProject := fun _ => .ok .none
  readMetadata := fun _ => .ok (.table [])

/-- The outer one of two sections of a name is the excerpt, with the markers inside it. -/
theorem excerpt_slices_nested : ∃ document,
    nestedSurroundings.files.read (Path.ofString "n.md") = .ok (Utf8.encode nestedText) ∧
    Utf8.decode (Utf8.encode nestedText) = .ok nestedText ∧
    Document.parse 2 .standard (some "n.md") nestedText = .ok document ∧
    nestedSurroundings.excerpt "n.md" "x" =
      .ok "a<!-- rdmx :section name:x -->b<!-- rdmx /:section -->".toList ∧
    ∃ place, Declaring "rdmx" "x" document.nodes place ∧ nestedText = place.before ++
      place.block.start.raw ++ "a<!-- rdmx :section name:x -->b<!-- rdmx /:section -->".toList ++
      place.block.footer ++ place.after := by
  have kept : nestedSurroundings.files.read (Path.ofString "n.md") = .ok (Utf8.encode nestedText) := rfl
  have decoded : Utf8.decode (Utf8.encode nestedText) = .ok nestedText := ok_of_toOption (by decide +kernel)
  have found : nestedSurroundings.excerpt "n.md" "x" =
      .ok "a<!-- rdmx :section name:x -->b<!-- rdmx /:section -->".toList :=
    ok_of_toOption (by decide +kernel)
  obtain ⟨document, parsed⟩ := exists_ok_of_toBool
    (show (Document.parse 2 .standard (some "n.md") nestedText).toBool = true by decide +kernel)
  obtain ⟨place, declaring, -, whole⟩ := (excerpt_slices kept decoded parsed).2.1 _ found
  exact ⟨document, kept, decoded, parsed, found, place, declaring, whole⟩

end Surroundings
end Excerpt
end Regen
