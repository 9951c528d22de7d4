import Regen.Proofs.BuiltinContents
import Regen.Proofs.Reparsing

/-! A second run over what the built-in actions have written. The output is
parsed to the blocks that were written, their markers as they were and the
contents generated for bodies; each of them makes the call it made before, and
each generator sees what it saw, so that nothing changes any more. -/
namespace Regen

namespace Tree
variable {α β : Type} {label : α → β} {content : Text} {trees : List (Tree α)}

theorem relabelAll_ofText : relabelAll label (ofText content) = ofText content := by
  cases content <;> rfl

theorem heightAll_ofText (content : Text) : heightAll (ofText content : List (Tree α)) = 0 := by
  cases content <;> rfl

theorem eq_ofText_of_relabelAll (same : relabelAll label trees = ofText content) :
    trees = ofText content := by
  cases content with
  | nil => exact eq_nil_of_relabelAll same
  | cons c content =>
    obtain ⟨rest, rfl, nothing⟩ := eq_text_of_relabelAll same
    rw [eq_nil_of_relabelAll nothing]
    rfl

end Tree

namespace Call

/-- The chunks that spell bound trees. -/
def baresAll (trees : List (Tree Call)) : List Chunk.Bare :=
  Node.baresAll (Tree.relabelAll Call.block trees)

mutual

/-- The contents a rendered tree holds: the body of each outermost block that is
not a section. -/
def contents : Tree Call → List Text
  | .text _ => []
  | .block call body =>
    if call.name = ⟨Settings.standard.defaultNamespace, "section"⟩ then contentsAll body
    else [Call.sourceAll body]

/-- The contents several rendered trees hold. -/
def contentsAll : List (Tree Call) → List Text
  | [] => []
  | tree :: more => contents tree ++ contentsAll more

end

section Bares
variable {call : Call} {content : Text} {body more : List (Tree Call)}

@[simp] theorem baresAll_nil : baresAll [] = [] := rfl

@[simp] theorem baresAll_text :
    baresAll (.text content :: more) = .text content :: baresAll more := rfl

@[simp] theorem baresAll_block : baresAll (.block call body :: more) =
    Node.bareStart call.block :: (baresAll body ++ Node.bareStop call.block :: baresAll more) := by
  simp [baresAll]

end Bares
end Call

namespace Bindings

section Written
variable {bindings : Bindings} {evaluate : Evaluator} {installed : List Distribution}
  {file : String} {room : Nat} {previous : List Sibling} {trees trees' : List (Tree Call)}

open Chunk in
/-- A body replaced by a content leaves the chunks legible. -/
theorem legible_of_content {block : Block} {content : Text} {before inner after : List Bare}
    (level : NoBreak content)
    (plain : ∀ opener ∈ Settings.standard.openers, ¬opener <:+: content)
    (legible : Legible (before ++ Node.bareStart block :: (inner ++ Node.bareStop block :: after))) :
    Legible (before ++ Node.bareStart block ::
      (Call.baresAll (Tree.ofText content) ++ Node.bareStop block :: after)) := by
  cases content with
  | nil => exact legible.none_between rfl
  | cons c content => exact legible.text_between rfl rfl (by simp) level.1 level.2 plain

open Chunk in
/-- Regenerated trees are legible where the trees before were, if no content holds
an opener. -/
theorem Regenerated.legible (only : OnlyBuiltin bindings evaluate installed)
    (regenerated : Regenerated bindings file room previous trees trees')
    (clean : ∀ content ∈ Call.contentsAll trees', ∀ opener ∈ Settings.standard.openers,
      ¬opener <:+: content) (before after : List Bare)
    (legible : Legible (before ++ (Call.baresAll trees ++ after))) :
    Legible (before ++ (Call.baresAll trees' ++ after)) := by
  induction regenerated generalizing before after with
  | nil => exact legible
  | @text room previous content more more' _ ih =>
    have later := ih clean (before ++ [.text content]) after (by simpa using legible)
    simpa using later
  | @kept room previous call body body' more more' transparent _ _ inside outside =>
    have named := only.transparent_iff.mp transparent
    rw [contextOf] at named
    rw [Call.contentsAll, Call.contents, if_pos named] at clean
    -- First the body, between its markers, and then what follows.
    have within := inside (fun content member => clean content (List.mem_append_left _ member))
      (before ++ [Node.bareStart call.block])
      (Node.bareStop call.block :: (Call.baresAll more ++ after)) (by simpa using legible)
    have beyond := outside (fun content member => clean content (List.mem_append_right _ member))
      (before ++ (Node.bareStart call.block :: (Call.baresAll body' ++ [Node.bareStop call.block])))
      after (by simpa using within)
    simpa using beyond
  | @replaced room previous call content body more more' opaque' ran _ outside =>
    have other := mt only.transparent_iff.mpr opaque'
    rw [contextOf] at other
    rw [Call.contentsAll, Call.contents, if_neg other, Call.sourceAll_ofText] at clean
    have plain := clean content (by simp)
    obtain ⟨level, -⟩ := only.generates opaque' ran
    have within : Legible (before ++ Node.bareStart call.block :: (Call.baresAll (Tree.ofText content) ++
        Node.bareStop call.block :: (Call.baresAll more ++ after))) :=
      legible_of_content level plain (by simpa using legible)
    have beyond := outside (fun content member => clean content (List.mem_append_right _ member))
      (before ++ (Node.bareStart call.block ::
        (Call.baresAll (Tree.ofText content) ++ [Node.bareStop call.block])))
      after (by simpa using within)
    simpa using beyond

/-- No block is deeper inside others than it was. -/
theorem Regenerated.heightAll_le (regenerated : Regenerated bindings file room previous trees trees') :
    Tree.heightAll trees' ≤ Tree.heightAll trees := by
  induction regenerated with
  | nil => exact le_rfl
  | text _ ih =>
    rw [Tree.heightAll_text, Tree.heightAll_text]
    exact ih
  | kept _ _ _ inside after =>
    rw [Tree.heightAll_block, Tree.heightAll_block]
    omega
  | replaced _ _ _ after =>
    rw [Tree.heightAll_block, Tree.heightAll_block, Tree.heightAll_ofText]
    omega

/-- Whatever is regenerated of a document that is parsed could be parsed. -/
theorem Regenerated.shallow {limit : Nat} {settings : Settings} {name : Option String} {source : Text}
    {document : Document} (parsed : Document.parse limit settings name source = .ok document)
    (resolved : Resolved bindings document.nodes trees)
    (regenerated : Regenerated bindings file room previous trees trees') :
    Tree.heightAll (Tree.relabelAll Call.block trees') ≤ limit := by
  have low := Document.heightAll_le_of_parse parsed
  rw [← resolved.relabelAll, Tree.heightAll_relabelAll] at low
  rw [Tree.heightAll_relabelAll]
  exact regenerated.heightAll_le.trans low

end Written

section Again
variable {bindings : Bindings} {evaluate : Evaluator} {installed : List Distribution}
  {file : String} {room : Nat} {previous previous' : List Sibling} {trees trees' : List (Tree Call)}
  {nodes nodes' : List Node} {block block' : Block} {call call' : Call}

theorem given_of_entries {params params' : List Header.Parameter}
    (same : params'.map Header.Parameter.entry = params.map Header.Parameter.entry) :
    bindings.given params' = bindings.given params := by
  induction params generalizing params' with
  | nil => rw [List.map_eq_nil_iff.mp same]
  | cons param params ih =>
    obtain ⟨param', others, rfl, alike, later⟩ := List.map_eq_cons_iff.mp same
    obtain ⟨key, value, loc⟩ := param
    obtain ⟨key', value', loc'⟩ := param'
    cases alike
    rw [given, given, ih later]

/-- A block with the same directive makes the same call, for itself. -/
theorem call_of_directive (named : block'.start.name = block.start.name)
    (entries : block'.start.params.map Header.Parameter.entry =
      block.start.params.map Header.Parameter.entry) :
    bindings.call block' = (bindings.call block).map fun call => { call with block := block' } := by
  have given : bindings.given block'.start.params = bindings.given block.start.params :=
    given_of_entries entries
  simp only [Bindings.call, callAction, named, given]
  split
  · rfl
  · split
    · rfl
    · split
      · rfl
      · split
        · rfl
        · rfl
        · split <;> rfl

/-- A block that is read alike makes the same call, for itself. -/
theorem call_of_reading (same : block'.reading = block.reading) :
    bindings.call block' = (bindings.call block).map fun call => { call with block := block' } :=
  call_of_directive (congrArg Reading.name same) (congrArg Reading.params same)

theorem call_again (called : bindings.call block = .ok call)
    (read : block'.reading = call.block.reading) :
    bindings.call block' = .ok { call with block := block' } := by
  rw [block_of_call called] at read
  rw [call_of_reading read, called]
  rfl

theorem resolved_ofText (content : Text) :
    Resolved bindings (Tree.ofText content) (Tree.ofText content) := by
  cases content with
  | nil => exact .nil
  | cons c content => exact .text .nil

/-- The text of bound trees is that of what they were bound from. -/
theorem Resolved.sourceAll (resolved : Resolved bindings nodes trees) :
    Call.sourceAll trees = Node.sourceAll nodes := by
  rw [Call.sourceAll, resolved.relabelAll]

/-- Rendered trees that are parsed and bound again are regenerated to themselves. -/
theorem Regenerated.again (only : OnlyBuiltin bindings evaluate installed)
    (regenerated : Regenerated bindings file room previous trees trees')
    (resolved : Resolved bindings nodes trees)
    (same : Tree.relabelAll Block.reading nodes' =
      Tree.relabelAll Block.reading (Tree.relabelAll Call.block trees'))
    (alike : List.Forall₂ Sibling.Alike previous previous') :
    ∃ again, Resolved bindings nodes' again ∧ Regenerated bindings file room previous' again again := by
  induction regenerated generalizing nodes nodes' previous' with
  | nil =>
    rw [Tree.eq_nil_of_relabelAll same]
    exact ⟨[], .nil, .nil⟩
  | text _ ih =>
    obtain ⟨rest, rfl, later⟩ := Tree.eq_text_of_relabelAll same
    cases resolved with
    | text resolved =>
      obtain ⟨again, bound, fixed⟩ := ih resolved later (List.rel_append alike (.cons .text .nil))
      exact ⟨_, .text bound, .text fixed⟩
  | @kept room previous call body body' more more' transparent _ _ inside outside =>
    obtain ⟨block', inner, rest, rfl, read, within, later⟩ := Tree.eq_block_of_relabelAll same
    cases resolved with
    | block called resolvedBody resolvedMore =>
      obtain ⟨bodyAgain, boundBody, fixedBody⟩ := inside resolvedBody within .nil
      have written : Call.sourceAll bodyAgain = Call.sourceAll body' := by
        rw [boundBody.sourceAll, Node.sourceAll_of_reading within, Call.sourceAll]
      have calledAgain := call_again called read
      have sibling : Sibling.Alike (.ofTree (.block call body'))
          (.ofTree (.block { call with block := block' } bodyAgain)) := by
        rw [Sibling.ofTree, Sibling.ofTree, written]
        exact .block rfl
      obtain ⟨moreAgain, boundMore, fixedMore⟩ :=
        outside resolvedMore later (List.rel_append alike (.cons sibling .nil))
      have named := only.transparent_iff.mp transparent
      refine ⟨_, .block calledAgain boundBody boundMore, .kept ?_ fixedBody fixedMore⟩
      exact only.transparent_iff.mpr ((congrArg Reading.name read).trans named)
  | @replaced room previous call content body more more' opaque' ran _ outside =>
    obtain ⟨block', inner, rest, rfl, read, within, later⟩ := Tree.eq_block_of_relabelAll same
    cases resolved with
    | block called resolvedBody resolvedMore =>
      rw [Tree.relabelAll_ofText, Tree.relabelAll_ofText] at within
      rw [Tree.eq_ofText_of_relabelAll within]
      have calledAgain := call_again called read
      have sibling : Sibling.Alike (.block call content) (.block { call with block := block' } content) :=
        .block rfl
      obtain ⟨moreAgain, boundMore, fixedMore⟩ :=
        outside resolvedMore later (List.rel_append alike (.cons sibling .nil))
      have named : Call.name { call with block := block' } = call.name := congrArg Reading.name read
      have context : Context.Alike (bindings.contextOf file previous call body more)
          (bindings.contextOf file previous' { call with block := block' } (Tree.ofText content) moreAgain) :=
        ⟨rfl, named, rfl, rfl, alike⟩
      obtain ⟨-, anywhere⟩ := only.generates opaque' ran
      refine ⟨_, .block calledAgain (resolved_ofText content) boundMore,
        .replaced ?_ (anywhere _ context _) fixedMore⟩
      intro transparent
      exact opaque' (only.transparent_iff.mpr (named.symm.trans (only.transparent_iff.mp transparent)))

end Again
end Bindings

namespace Pipeline
open Bindings

/-- A content is generated in a run: by a block that is not a section, and that no
such block is around. -/
def Generates (pipeline : Pipeline) (file : Option String) (source content : Text) : Prop :=
  ∃ document trees trees',
    Document.parse pipeline.limits.nesting pipeline.settings file source = .ok document ∧
    pipeline.bindings.resolveAll document.file document.nodes = .ok trees ∧
    Regenerated pipeline.bindings document.file pipeline.limits.levels [] trees trees' ∧
    content ∈ Call.contentsAll trees'

/-- With the default settings and what is built in, a second run changes nothing, if
no content generated by the first holds a comment opener. -/
theorem transform_of_output (pipeline : Pipeline) (evaluate : Evaluator)
    (installed : List Distribution) (file : Option String) (source output : Text)
    (settings : pipeline.settings = .standard)
    (only : OnlyBuiltin pipeline.bindings evaluate installed)
    (done : (pipeline.transform file source).outcome = .ok output)
    (clean : ∀ content, pipeline.Generates file source content →
      ∀ opener ∈ pipeline.settings.openers, ¬opener <:+: content) :
    (pipeline.transform file output).outcome = .ok output := by
  obtain ⟨document, trees, trees', parsed, bound, regenerated, rfl⟩ := transform_eq_ok_iff.mp done
  have plain : ∀ content ∈ Call.contentsAll trees', ∀ opener ∈ Settings.standard.openers,
      ¬opener <:+: content := by
    intro content member
    rw [← settings]
    exact clean content ⟨document, trees, trees', parsed, bound, regenerated, member⟩
  have resolved := resolveAll_eq_ok_iff.mp bound
  rw [settings] at parsed
  -- What was written is parsed to the blocks that were written.
  have legible := Document.legible_of_parse parsed
  rw [← resolved.relabelAll] at legible
  have legible' := regenerated.legible only plain [] [] (by simpa [Call.baresAll] using legible)
  rw [List.nil_append, List.append_nil] at legible'
  obtain ⟨document', parsed', named, same⟩ :=
    Document.parse_of_legible file legible' (Regenerated.shallow parsed resolved regenerated)
  -- They are bound and rendered as they were.
  have named' : document'.file = document.file := by rw [named, Document.file_of_parse parsed]
  obtain ⟨again, bound', fixed⟩ := regenerated.again only resolved same .nil
  refine transform_eq_ok_iff.mpr ⟨document', again, again, ?_, resolveAll_eq_ok_iff.mpr bound', ?_, ?_⟩
  · rw [settings]
    exact parsed'
  · rw [named']
    exact fixed
  · rw [bound'.sourceAll, Node.sourceAll_of_reading same, Call.sourceAll]

def codeBlock : Block :=
  ⟨⟨⟨"rdmx", "section"⟩, [⟨"name", .text "s", ⟨1, 20⟩⟩], "<!-- rdmx :section name:\"s\" -->\n".toList,
    ⟨1, 11⟩⟩, "<!-- rdmx /:section -->\n".toList⟩

def evalBlock : Block :=
  ⟨⟨⟨"rdmx", "eval"⟩, [⟨"section", .text "s", ⟨6, 17⟩⟩], "<!-- rdmx :eval section:\"s\" -->\n".toList,
    ⟨6, 11⟩⟩, "<!-- rdmx /:eval -->".toList⟩

def oldBlock : Block :=
  ⟨⟨⟨"rdmx", "badges"⟩, [], "<!-- rdmx :badges -->".toList, ⟨7, 15⟩⟩, "<!-- rdmx /:badges -->\n".toList⟩

/-- Code in a section, and an evaluation with a body that is not its value yet. -/
def evaluatedNodes : List Node :=
  [.block codeBlock [.text "```python\n1\n```\n".toList],
    .block evalBlock [.text "old ".toList, .block oldBlock [.text ['x']]]]

def evaluatedContent : Text := "```python\n\n```\n".toList

def evaluatedText : Text := Node.sourceAll evaluatedNodes

def evaluatedOutput : Text :=
  codeBlock.start.raw ++ "```python\n1\n```\n".toList ++ codeBlock.footer ++
    (evalBlock.start.raw ++ evaluatedContent ++ evalBlock.footer)

theorem onlyBuiltin_builtinBindings : OnlyBuiltin builtinBindings (fun _ => .value "") [] :=
  registered_builtinBindings

theorem transform_evaluatedText :
    (builtinPipeline.transform none evaluatedText).outcome = .ok evaluatedOutput :=
  ok_of_toOption (by decide +kernel)

/-- The section is kept and the evaluation replaced, so its body is the only content. -/
theorem content_of_evaluated {bindings : Bindings} {evaluate : Evaluator}
    {installed : List Distribution} {file : String} {room : Nat} {trees trees' : List (Tree Call)}
    {content : Text} (only : OnlyBuiltin bindings evaluate installed)
    (resolved : Resolved bindings evaluatedNodes trees)
    (regenerated : Regenerated bindings file room [] trees trees')
    (written : Call.sourceAll trees' = evaluatedOutput) (member : content ∈ Call.contentsAll trees') :
    content = evaluatedContent := by
  cases resolved with
  | @block _ code _ _ _ _ called inner resolved =>
    cases inner with
    | text inner =>
      cases inner
      cases resolved with
      | @block _ eval _ _ _ _ called' _ resolved =>
        cases resolved
        have named : code.name = ⟨"rdmx", "section"⟩ := by rw [Call.name, block_of_call called]; rfl
        have named' : eval.name ≠ ⟨"rdmx", "section"⟩ := by
          rw [Call.name, block_of_call called']
          decide
        cases regenerated with
        | replaced opaque' => exact absurd (only.transparent_iff.mpr named) opaque'
        | kept _ inside regenerated =>
          cases inside with
          | text inside =>
            cases inside
            cases regenerated with
            | kept transparent => exact absurd (only.transparent_iff.mp transparent) named'
            | @replaced _ _ _ found _ _ _ _ _ regenerated =>
              cases regenerated
              simp only [Call.sourceAll_block, Call.sourceAll_text, Call.sourceAll_nil,
                Call.sourceAll_ofText, block_of_call called, block_of_call called', List.append_nil]
                at written
              have value : found = evaluatedContent :=
                List.append_cancel_left (List.append_cancel_right (List.append_cancel_left written))
              have same : content = found := by
                simpa [Call.contentsAll, Call.contents, Settings.standard, named, named'] using member
              exact same.trans value

theorem transform_of_output_evaluated :
    (builtinPipeline.transform none evaluatedText).outcome = .ok evaluatedOutput ∧
      (builtinPipeline.transform none evaluatedOutput).outcome = .ok evaluatedOutput := by
  have parsed : Document.parse 2 .standard none evaluatedText = .ok ⟨"nofile", evaluatedNodes⟩ :=
    ok_of_toOption (by decide +kernel)
  have clean : ∀ opener ∈ Settings.standard.openers, ¬opener <:+: evaluatedContent := by decide +kernel
  refine ⟨transform_evaluatedText, transform_of_output builtinPipeline _ _ none evaluatedText _ rfl
    onlyBuiltin_builtinBindings transform_evaluatedText ?_⟩
  rintro content ⟨document, trees, trees', parsed', bound, regenerated, member⟩
  have again := transform_eq_ok_iff.mpr ⟨document, trees, trees', parsed', bound, regenerated, rfl⟩
  rw [transform_evaluatedText] at again
  obtain rfl : Document.mk "nofile" evaluatedNodes = document := Except.ok.inj (parsed.symm.trans parsed')
  have same := content_of_evaluated onlyBuiltin_builtinBindings (resolved_of_resolveAll bound) regenerated
    (Except.ok.inj again).symm member
  rw [same]
  exact clean

end Pipeline
end Regen
