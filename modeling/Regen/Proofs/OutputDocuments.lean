import Regen.Proofs.BuiltinCharacters
import Regen.Proofs.Idempotence
import Regen.Proofs.ResolutionOrder

/-! What the output of a run is as a document. Written down and parsed again it
mirrors its source, directive by directive, and every directive that is not a
section has the content generated for it as its body; but this is so only where
no content holds a comment opener, and nothing keeps one out. -/
namespace Regen

/-- Nodes and what becomes of them: texts and directives stay, a section around what
becomes of its body, and the others around contents, which are listed in order. -/
inductive Mirrors : List Node → List Node → List Text → Prop
  | nil : Mirrors [] [] []
  | text {content : Text} {more more' : List Node} {contents : List Text} :
    Mirrors more more' contents → Mirrors (.text content :: more) (.text content :: more') contents
  | inside {block block' : Block} {body body' more more' : List Node} {within contents : List Text} :
    block.start.name = ⟨Settings.standard.defaultNamespace, "section"⟩ →
    block'.reading = block.reading → Mirrors body body' within → Mirrors more more' contents →
    Mirrors (.block block body :: more) (.block block' body' :: more') (within ++ contents)
  | generated {block block' : Block} {content : Text} {body more more' : List Node}
      {contents : List Text} :
    block.start.name ≠ ⟨Settings.standard.defaultNamespace, "section"⟩ →
    block'.reading = block.reading → Mirrors more more' contents →
    Mirrors (.block block body :: more) (.block block' (Tree.ofText content) :: more')
      (content :: contents)

/-- A content that is there is one of the texts that the nodes are spelled with. -/
theorem Mirrors.text_mem {nodes nodes' : List Node} {contents : List Text} {content : Text}
    (mirrors : Mirrors nodes nodes' contents) (member : content ∈ contents) (filled : content ≠ []) :
    .text content ∈ Node.baresAll nodes' := by
  induction mirrors with
  | nil => cases member
  | text _ ih => exact List.mem_cons_of_mem _ (ih member)
  | inside _ _ _ _ within after =>
    rw [Node.baresAll_block]
    rcases List.mem_append.mp member with inner | outer
    · exact List.mem_cons_of_mem _ (List.mem_append_left _ (within inner))
    · exact List.mem_cons_of_mem _ (List.mem_append_right _ (List.mem_cons_of_mem _ (after outer)))
  | @generated _ _ content' _ _ _ _ _ _ _ after =>
    rw [Node.baresAll_block]
    rcases List.mem_cons.mp member with rfl | outer
    · have whole : Tree.ofText content = [Tree.text (α := Block) content] := by
        rw [Tree.ofText, if_neg (by simpa using filled)]
      rw [whole]
      simp
    · exact List.mem_cons_of_mem _ (List.mem_append_right _ (List.mem_cons_of_mem _ (after outer)))

namespace Bindings

section Mirrors
variable {bindings : Bindings} {evaluate : Evaluator} {installed : List Distribution}
  {file : String} {room : Nat} {previous : List Sibling} {trees trees' trees'' : List (Tree Call)}
  {nodes nodes' : List Node} {contents : List Text} {content : Text}

/-- Trees are regenerated in one way. -/
theorem Regenerated.unique (regenerated : Regenerated bindings file room previous trees trees')
    (other : Regenerated bindings file room previous trees trees'') : trees' = trees'' := by
  induction regenerated generalizing trees'' with
  | nil =>
    cases other
    rfl
  | text _ ih =>
    cases other with
    | text other => rw [ih other]
  | kept transparent _ _ inside after =>
    cases other with
    | kept _ inner outer =>
      obtain rfl := inside inner
      rw [after outer]
    | replaced opaque' => exact absurd transparent opaque'
  | replaced opaque' ran _ after =>
    cases other with
    | kept transparent => exact absurd transparent opaque'
    | replaced _ ran' outer =>
      obtain ⟨⟩ := Except.ok.inj (ran.symm.trans ran')
      rw [after outer]

/-- Nodes that are read as what was regenerated mirror what it was regenerated from. -/
theorem Regenerated.mirrors (only : OnlyBuiltin bindings evaluate installed)
    (regenerated : Regenerated bindings file room previous trees trees')
    (resolved : Resolved bindings nodes trees)
    (same : Tree.relabelAll Block.reading nodes' =
      Tree.relabelAll Block.reading (Tree.relabelAll Call.block trees')) :
    Mirrors nodes nodes' (Call.contentsAll trees') := by
  induction regenerated generalizing nodes nodes' with
  | nil =>
    cases resolved
    rw [Tree.eq_nil_of_relabelAll same]
    exact .nil
  | text _ ih =>
    obtain ⟨rest, rfl, later⟩ := Tree.eq_text_of_relabelAll same
    cases resolved with
    | text resolved => exact .text (ih resolved later)
  | @kept room previous call body body' more more' transparent _ _ inside outside =>
    obtain ⟨block', inner, rest, rfl, read, within, later⟩ := Tree.eq_block_of_relabelAll same
    cases resolved with
    | block called resolvedBody resolvedMore =>
      have named := only.transparent_iff.mp transparent
      rw [contextOf] at named
      rw [Call.contentsAll, Call.contents, if_pos named]
      obtain rfl := block_of_call called
      exact .inside named read (inside resolvedBody within) (outside resolvedMore later)
  | @replaced room previous call content body more more' opaque' _ _ outside =>
    obtain ⟨block', inner, rest, rfl, read, within, later⟩ := Tree.eq_block_of_relabelAll same
    cases resolved with
    | block called resolvedBody resolvedMore =>
      have other := mt only.transparent_iff.mpr opaque'
      rw [contextOf] at other
      rw [Tree.relabelAll_ofText, Tree.relabelAll_ofText] at within
      rw [Tree.eq_ofText_of_relabelAll within, Call.contentsAll, Call.contents, if_neg other,
        Call.sourceAll_ofText]
      obtain rfl := block_of_call called
      exact .generated other read (outside resolvedMore later)

/-- Nothing that the calls of trees are given, and no version installed, holds a
less-than sign. -/
structure Harmless (bindings : Bindings) (installed : List Distribution) (trees : List (Tree Call)) :
    Prop where
  params : ∀ call ∈ Tree.postorderAll trees, ∀ entry ∈ call.params, '<' ∉ entry.2.display.toList
  package : ∀ value, bindings.vars.at? "package_name" = some value → '<' ∉ value.display.toList
  versions : ∀ found ∈ installed, '<' ∉ found.version.toList

/-- The actions whose contents are put together from what they are given. -/
def splicing : List Header.ActionName := [⟨"rdmx", "section"⟩, ⟨"rdmx", "badges"⟩, ⟨"rdmx", "app_dep"⟩]

/-- Badges and requirements hold no less-than sign that they are not given. -/
theorem OnlyBuiltin.unangled {context : Context} {ε : Type} {children : Run ε Text}
    (only : OnlyBuiltin bindings evaluate installed) (named : context.call.name ∈ splicing)
    (other : context.call.name ≠ ⟨Settings.standard.defaultNamespace, "section"⟩)
    (given : ∀ entry ∈ context.call.params, '<' ∉ entry.2.display.toList)
    (package : ∀ value, context.vars.at? "package_name" = some value → '<' ∉ value.display.toList)
    (versions : ∀ found ∈ installed, '<' ∉ found.version.toList)
    (ran : ((bindings.script context).run children).outcome = .ok (.content content)) :
    '<' ∉ content := by
  simp only [splicing, List.mem_cons, List.not_mem_nil, or_false] at named
  rcases named with same | same | same
  · exact absurd same other
  · rw [only.script_of_named (by rw [same]; rfl), same] at ran
    exact Badge.unangled_of_reply given (Except.ok.inj ran)
  · rw [only.script_of_named (by rw [same]; rfl), same] at ran
    exact Requirement.unangled_of_reply given package versions (Except.ok.inj ran)

theorem Regenerated.unangled (only : OnlyBuiltin bindings evaluate installed)
    (regenerated : Regenerated bindings file room previous trees trees')
    (named : ∀ call ∈ Tree.postorderAll trees, call.name ∈ splicing)
    (harmless : bindings.Harmless installed trees) :
    ∀ content ∈ Call.contentsAll trees', '<' ∉ content := by
  obtain ⟨given, package, versions⟩ := harmless
  induction regenerated with
  | nil => simp [Call.contentsAll]
  | text _ ih =>
    rw [Tree.postorderAll_text] at named given
    exact ih named given
  | @kept room previous call body body' more more' transparent _ _ inside outside =>
    have section' := only.transparent_iff.mp transparent
    rw [contextOf] at section'
    simp only [Tree.postorderAll_block, List.forall_mem_append, List.forall_mem_cons] at named given
    simp only [Call.contentsAll, Call.contents, if_pos section', List.forall_mem_append]
    exact ⟨inside named.1 given.1, outside named.2.2 given.2.2⟩
  | @replaced room previous call content body more more' opaque' ran _ outside =>
    have other := mt only.transparent_iff.mpr opaque'
    rw [contextOf] at other
    simp only [Tree.postorderAll_block, List.forall_mem_append, List.forall_mem_cons] at named given
    simp only [Call.contentsAll, Call.contents, if_neg other, Call.sourceAll_ofText,
      List.forall_mem_append, List.forall_mem_singleton]
    exact ⟨only.unangled named.2.1 other given.2.1 package versions ran, outside named.2.2 given.2.2⟩

end Mirrors
end Bindings

namespace Pipeline
open Bindings

section Output
variable {pipeline : Pipeline} {evaluate : Evaluator} {installed : List Distribution}
  {file : Option String} {source content : Text} {document : Document} {trees trees' : List (Tree Call)}

/-- Output that is parsed to a document which mirrors that of the source, around the
contents that were generated. -/
def Mirrored (pipeline : Pipeline) (file : Option String) (source output : Text) : Prop :=
  ∃ document document' contents,
    Document.parse pipeline.limits.nesting pipeline.settings file source = .ok document ∧
    Document.parse pipeline.limits.nesting pipeline.settings file output = .ok document' ∧
    Mirrors document.nodes document'.nodes contents ∧
    ∀ content, content ∈ contents ↔ pipeline.Generates file source content

/-- The texts of a document hold no opener, and contents are such texts. -/
theorem Mirrored.clean {output : Text} (settings : pipeline.settings = .standard)
    (mirrored : pipeline.Mirrored file source output) (generated : pipeline.Generates file source content) :
    ∀ opener ∈ pipeline.settings.openers, ¬opener <:+: content := by
  obtain ⟨document, document', contents, -, parsed', mirrors, exactly⟩ := mirrored
  rw [settings] at parsed' ⊢
  intro opener member within
  have filled : content ≠ [] := by
    rintro rfl
    have first := Chunk.head_opener member
    rw [List.infix_nil.mp within] at first
    cases first
  have spelled := mirrors.text_mem ((exactly content).mpr generated) filled
  have sound := (Document.legible_of_parse parsed').sound _ spelled
  exact (Chunk.sound_text_iff.mp sound).2 opener member within

end Output

end Pipeline
end Regen
