import Mathlib.Data.List.Forall2
import Regen.Proofs.Regeneration

/-! What the built-in actions generate. A section hands its children on; the other
actions answer from their parameters, the variables and the sections before
them, never from where anything stands, and no content begins with a line break. -/
namespace Regen

/-- A text that does not begin with a line break. -/
def NoBreak (content : Text) : Prop := ¬['\n'] <+: content ∧ ¬['\r', '\n'] <+: content

theorem noBreak_of_head {c : Char} {content : Text} (first : content.head? = some c)
    (feed : c ≠ '\n') (returns : c ≠ '\r') : NoBreak content := by
  constructor
  · rintro ⟨rest, rfl⟩
    exact feed (Option.some.inj first).symm
  · rintro ⟨rest, rfl⟩
    exact returns (Option.some.inj first).symm

theorem noBreak_nil : NoBreak [] := ⟨by simp, by simp⟩

namespace Badge

theorem head_markdown (alt image page : Text) : (markdown alt image page).head? = some '[' := by
  have opens : "[![".toList.head? = some '[' := by decide +kernel
  unfold markdown
  simp only [List.head?_append, opens, Option.some_or]

theorem head_make {kind : BadgeKind} {value badge : Text} (made : make kind value = .ok badge) :
    badge.head? = some '[' := by
  cases kind with
  | version =>
    simp only [make, version] at made
    split at made
    · cases made
    · split at made
      · cases made
      · cases made
        exact head_markdown ..
  | workflow =>
    simp only [make, workflow] at made
    split at made
    · cases made
    · split at made
      · cases made
      · cases made
        exact head_markdown ..
  | license =>
    cases made
    exact head_markdown ..

theorem head_lines {params : Table} {text : Text} (written : lines params = .ok text) :
    ∀ c ∈ text.head?, c = '[' := by
  fun_induction lines params generalizing text with
  | case1 =>
    cases written
    simp
  | case2 key value more other ih => exact ih written
  | case3 => cases written
  | case4 key value more kind asked badge made ih =>
    obtain ⟨rest, -, rfl⟩ := map_eq_ok_iff.mp written
    intro c first
    cases badge with
    | nil => cases head_make made
    | cons d badge =>
      cases head_make made
      cases first
      rfl
  | case5 param more other ih => exact ih written

/-- Badges are written on lines of their own, each of which begins with a bracket. -/
theorem noBreak_of_reply {params : Table} {content : Text} (answered : reply params = .content content) :
    NoBreak content := by
  unfold reply at answered
  split at answered
  · rename_i text written
    cases answered
    have first := head_lines written
    cases content with
    | nil => exact noBreak_nil
    | cons c content =>
      obtain rfl := first c rfl
      exact noBreak_of_head rfl (by decide) (by decide)
  · cases answered

end Badge

namespace Requirement

theorem noBreak_snippet (groups : List Text) (entry : Text) : NoBreak (snippet groups entry) := by
  have opens : "```toml\n".toList.head? = some '\x60' := by decide +kernel
  have first : (snippet groups entry).head? = some '\x60' := by
    unfold snippet
    rw [List.append_assoc, List.head?_append, opens, Option.some_or]
  exact noBreak_of_head first (by decide) (by decide)

theorem noBreak_of_replyFor {params : Table} {package : Value} {version : String} {content : Text}
    (answered : replyFor params package version = .content content) : NoBreak content := by
  unfold replyFor at answered
  split at answered
  · cases answered
  · split at answered
    · cases answered
    · cases answered
      exact noBreak_snippet ..

theorem noBreak_of_reply {installed : List Distribution} {params vars : Table} {content : Text}
    (answered : reply installed params vars = .content content) : NoBreak content := by
  unfold reply at answered
  split at answered
  · cases answered
  · split at answered
    · exact noBreak_of_replyFor answered
    · split at answered
      · cases answered
      · cases answered
      · exact noBreak_of_replyFor answered

end Requirement

namespace Fence

/-- A part without its number. -/
def Part.unnumbered : Part → Option Text × Text
  | .text _ content => (none, content)
  | .code language _ content => (some language, content)

theorem unnumbered_ofRun (line line' : Int) (run : List Text) :
    (ofRun line run).map Part.unnumbered = (ofRun line' run).map Part.unnumbered := by
  cases run <;> rfl

/-- Lines are cut at the same fences whatever number the first of them has. -/
theorem splitLines_elsewhere {run lines : List Text} {line : Int} {parts : List Part}
    (cut : splitLines run line lines = .ok parts) (line' : Int) :
    ∃ parts', splitLines run line' lines = .ok parts' ∧
      parts'.map Part.unnumbered = parts.map Part.unnumbered := by
  fun_induction splitLines run line lines generalizing parts line' with
  | case1 =>
    cases cut
    refine ⟨_, by rw [splitLines], unnumbered_ofRun ..⟩
  | case2 run line first more opened ih =>
    obtain ⟨parts', cut', same⟩ := ih cut (line' + 1)
    refine ⟨parts', ?_, same⟩
    rw [splitLines, opened]
    exact cut'
  | case3 => cases cut
  | case4 => cases cut
  | case5 run line first more language opened code rest closed parts' inner ih =>
    cases cut
    obtain ⟨others, cut', same⟩ := ih inner (line' + code.length + 2)
    refine ⟨ofRun (line' - run.length) run ++ .code language (line' + 1) code.flatten :: others, ?_, ?_⟩
    · rw [splitLines, opened]
      dsimp only
      split
      · rename_i never
        rw [closed] at never
        cases never
      · rename_i code' rest' closed'
        rw [closed] at closed'
        cases closed'
        rw [cut']
    · simp [same, Part.unnumbered, unnumbered_ofRun (line - run.length) (line' - run.length)]

theorem firstCode?_elsewhere {parts parts' : List Part} {tag code : Text} {start : Int}
    (same : parts'.map Part.unnumbered = parts.map Part.unnumbered)
    (found : firstCode? parts = some (tag, start, code)) :
    ∃ start', firstCode? parts' = some (tag, start', code) := by
  induction parts generalizing parts' with
  | nil => cases found
  | cons part parts ih =>
    obtain ⟨part', parts', rfl, alike, later⟩ := List.map_eq_cons_iff.mp same
    cases part with
    | text line content =>
      cases part' with
      | text line' content' =>
        obtain ⟨start', found'⟩ := ih later found
        exact ⟨start', found'⟩
      | code => cases alike
    | code language line content =>
      cases part' with
      | text => cases alike
      | code language' line' content' =>
        cases alike
        cases found
        exact ⟨line', rfl⟩

end Fence

namespace Evaluation

theorem noBreak_fenced (tag content : String) : NoBreak (fenced tag content) := by
  have opens : "```".toList.head? = some '\x60' := by decide +kernel
  have first : (fenced tag content).head? = some '\x60' := by
    unfold fenced
    simp only [String.toList_append, List.head?_append, opens, Option.some_or]
  exact noBreak_of_head first (by decide) (by decide)

/-- The line at which code stands shows in complaints only. -/
theorem reply_content {file : String} {line : Int} {catches : Bool} {evaluation : Evaluation}
    {content : Text} (answered : reply file line catches evaluation = .content content) :
    NoBreak content ∧ ∀ line, reply file line catches evaluation = .content content := by
  cases evaluation with
  | value printed =>
    cases answered
    exact ⟨noBreak_fenced .., fun line => rfl⟩
  | raised banner =>
    cases catches with
    | true =>
      cases answered
      exact ⟨noBreak_fenced .., fun line => rfl⟩
    | false => cases answered
  | unprintable => cases answered
  | leaves => cases answered
  | malformed => cases answered
  | uncompilable => cases answered

/-- The answer to code found at a line. -/
def replyCode (evaluate : Evaluator) (file : String) (catches : Bool) (tag : Text) (start : Int)
    (code : Text) : Reply :=
  if tag ≠ language.toList then
    .failure (.tuple [.text "unsupported_language",
      .text (if tag.isEmpty then "none" else String.ofList tag)])
  else if file.toList.contains '\x00' then .escape ⟨.badValue, "embedded null character"⟩
  else if code.contains '\x00' then
    .escape ⟨.badValue, "source code string cannot contain null bytes"⟩
  else reply file start catches (evaluate code)

section Section
variable {evaluate : Evaluator} {file : String} {name : Value} {catches : Bool} {found : Section}
  {tag code content : Text} {start : Int} {parts : List Fence.Part}

theorem replyCode_content (answered : replyCode evaluate file catches tag start code = .content content) :
    NoBreak content ∧
      ∀ start, replyCode evaluate file catches tag start code = .content content := by
  unfold replyCode at answered
  split at answered
  · cases answered
  · rename_i spoken
    split at answered
    · cases answered
    · rename_i named
      split at answered
      · cases answered
      · rename_i clean
        obtain ⟨level, anywhere⟩ := reply_content answered
        refine ⟨level, fun elsewhere => ?_⟩
        rw [replyCode, if_neg spoken, if_neg named, if_neg clean]
        exact anywhere elsewhere

theorem replySection_of_code
    (cut : Fence.split found.content
      (found.call.loc.line + Text.lineFeeds found.call.block.start.raw) = .ok parts)
    (first : Fence.firstCode? parts = some (tag, start, code)) :
    replySection evaluate file name catches found = replyCode evaluate file catches tag start code := by
  unfold replySection
  simp only [cut, first]
  rfl

/-- A section counts for its content, wherever it was opened. -/
theorem replySection_content
    (answered : replySection evaluate file name catches found = .content content) :
    NoBreak content ∧ ∀ other : Section, other.content = found.content →
      replySection evaluate file name catches other = .content content := by
  cases cut : Fence.split found.content
      (found.call.loc.line + Text.lineFeeds found.call.block.start.raw) with
  | error opened => simp [replySection, cut] at answered
  | ok parts =>
    cases first : Fence.firstCode? parts with
    | none => simp [replySection, cut, first] at answered
    | some part =>
      obtain ⟨tag, start, code⟩ := part
      rw [replySection_of_code cut first] at answered
      obtain ⟨level, anywhere⟩ := replyCode_content answered
      refine ⟨level, fun other same => ?_⟩
      obtain ⟨parts', cut', alike⟩ := Fence.splitLines_elsewhere cut
        (other.call.loc.line + Text.lineFeeds other.call.block.start.raw)
      obtain ⟨start', first'⟩ := Fence.firstCode?_elsewhere alike first
      rw [replySection_of_code (same ▸ cut') first']
      exact anywhere start'

end Section
end Evaluation

/-- Siblings that no later block can tell apart. -/
inductive Sibling.Alike : Sibling → Sibling → Prop
  | text {content : Text} : Alike (.text content) (.text content)
  | block {call call' : Call} {content : Text} : call'.sectionName = call.sectionName →
    Alike (.block call content) (.block call' content)

section Alike
variable {previous previous' : List Sibling} {context context' : Context} {content : Text}

theorem lastSection?_alike {name : String} {found : Section}
    (alike : List.Forall₂ Sibling.Alike previous previous')
    (opened : Context.lastSection? name previous = some found) :
    ∃ found', Context.lastSection? name previous' = some found' ∧ found'.content = found.content := by
  have backwards := List.rel_reverse alike
  unfold Context.lastSection? at opened ⊢
  generalize previous.reverse = before at backwards opened
  generalize previous'.reverse = after at backwards
  induction backwards with
  | nil => cases opened
  | @cons sibling sibling' more more' first _ ih =>
    rw [List.findSome?_cons] at opened ⊢
    cases first with
    | text => exact ih opened
    | @block call call' content same =>
      by_cases named : call.sectionName = some name
      · simp only [named, ↓reduceIte, Option.some.injEq] at opened
        simp only [same, named, ↓reduceIte]
        exact ⟨⟨call', content⟩, rfl, opened ▸ rfl⟩
      · simp only [named, ↓reduceIte] at opened
        simp only [same, named, ↓reduceIte]
        exact ih opened

theorem Evaluation.generate_eq_reply (evaluate : Evaluator) (params : Table) (context : Context) :
    ∃ reply, generate evaluate params context = .reply reply := by
  unfold generate
  dsimp only
  split
  · split
    · exact ⟨_, rfl⟩
    · exact ⟨_, rfl⟩
  · exact ⟨_, rfl⟩

theorem Evaluation.generate_content {evaluate : Evaluator} {params : Table}
    (answered : generate evaluate params context = .reply (.content content)) :
    NoBreak content ∧ ∀ context' : Context, context'.file = context.file →
      List.Forall₂ Sibling.Alike context.previous context'.previous →
        generate evaluate params context' = .reply (.content content) := by
  unfold generate at answered ⊢
  dsimp only at answered ⊢
  split at answered
  · rename_i text named
    cases opened : context.section? text with
    | none => simp [opened] at answered
    | some found =>
      simp only [opened, Script.reply.injEq] at answered
      obtain ⟨level, anywhere⟩ := replySection_content answered
      refine ⟨level, fun context' file alike => ?_⟩
      obtain ⟨found', opened', same⟩ := lastSection?_alike alike opened
      rw [Context.section?, opened', file]
      exact congrArg Script.reply (anywhere found' same)
  · cases answered

/-- What the actions other than sections answer with. -/
theorem Builtin.generate_content {evaluate : Evaluator} {installed : List Distribution} {action : String}
    {params : Table} (other : action ≠ "section") :
    ∃ reply, generate evaluate installed action params context = .reply reply ∧
      ∀ content, reply = .content content → NoBreak content ∧
        ∀ context' : Context, context'.file = context.file → context'.vars = context.vars →
          List.Forall₂ Sibling.Alike context.previous context'.previous →
            generate evaluate installed action params context' = .reply (.content content) := by
  unfold generate
  split
  · refine ⟨_, rfl, fun content answered => ⟨Requirement.noBreak_of_reply answered, ?_⟩⟩
    intro context' _ vars _
    rw [vars, answered]
  · refine ⟨_, rfl, fun content answered => ⟨Badge.noBreak_of_reply answered, ?_⟩⟩
    intro context' _ _ _
    rw [answered]
  · exact absurd rfl other
  · obtain ⟨reply, answered⟩ := Evaluation.generate_eq_reply evaluate params context
    refine ⟨reply, answered, ?_⟩
    rintro content rfl
    obtain ⟨level, anywhere⟩ := Evaluation.generate_content answered
    exact ⟨level, fun context' file _ alike => anywhere context' file alike⟩
  · exact ⟨_, rfl, fun content answered => nomatch answered⟩

end Alike

/-- Contexts that a built-in action cannot tell apart. -/
structure Context.Alike (context context' : Context) : Prop where
  file : context'.file = context.file
  name : context'.call.name = context.call.name
  params : context'.call.params = context.call.params
  vars : context'.vars = context.vars
  previous : List.Forall₂ Sibling.Alike context.previous context'.previous

namespace Bindings

/-- Nothing but what is built in can be called. -/
def OnlyBuiltin (bindings : Bindings) (evaluate : Evaluator) (installed : List Distribution) : Prop :=
  Registry.register [] Settings.standard.defaultNamespace (Builtin.generator evaluate installed) =
    .ok bindings.registry

section OnlyBuiltin
variable {bindings : Bindings} {evaluate : Evaluator} {installed : List Distribution}
  {context context' : Context} {content : Text}

theorem OnlyBuiltin.script_of_named (only : OnlyBuiltin bindings evaluate installed)
    (named : context.call.name.namespaceName = Settings.standard.defaultNamespace) :
    bindings.script context = Builtin.generate evaluate installed context.call.name.action
      context.call.params context :=
  script_of_registered only named

theorem OnlyBuiltin.script_of_other (only : OnlyBuiltin bindings evaluate installed)
    (other : context.call.name.namespaceName ≠ Settings.standard.defaultNamespace) :
    bindings.script context = .reply (.foreign .none) := by
  obtain ⟨entry, -, found⟩ := Registry.entry?_register only
  rw [script, found, if_neg (Ne.symm other)]
  rfl

/-- A section hands its children on. -/
theorem OnlyBuiltin.transparent_iff (only : OnlyBuiltin bindings evaluate installed) :
    (bindings.script context).IsTransparent ↔
      context.call.name = ⟨Settings.standard.defaultNamespace, "section"⟩ := by
  constructor
  · intro transparent
    obtain ⟨next, asks⟩ := transparent.asks
    by_cases named : context.call.name.namespaceName = Settings.standard.defaultNamespace
    · rw [only.script_of_named named] at asks
      by_cases section' : context.call.name.action = "section"
      · rw [← named, ← section']
      · obtain ⟨reply, answered, -⟩ := Builtin.generate_content section'
        rw [answered] at asks
        cases asks
    · rw [only.script_of_other named] at asks
      cases asks
  · intro named
    rw [only.script_of_named (by rw [named]), named]
    exact Script.transparent_isTransparent

/-- What is generated does not begin with a line break, and is generated wherever
the context is alike. -/
theorem OnlyBuiltin.generates (only : OnlyBuiltin bindings evaluate installed) {ε : Type}
    {children : Run ε Text} (opaque' : ¬(bindings.script context).IsTransparent)
    (ran : ((bindings.script context).run children).outcome = .ok (.content content)) :
    NoBreak content ∧ ∀ context', Context.Alike context context' → ∀ {δ : Type} (children : Run δ Text),
      ((bindings.script context').run children).outcome = .ok (.content content) := by
  by_cases named : context.call.name.namespaceName = Settings.standard.defaultNamespace
  · have other : context.call.name.action ≠ "section" := by
      intro same
      exact opaque' (only.transparent_iff.mpr (by rw [← named, ← same]))
    rw [only.script_of_named named] at ran
    obtain ⟨reply, answered, known⟩ := Builtin.generate_content other
    rw [answered] at ran
    cases ran
    obtain ⟨level, anywhere⟩ := known content rfl
    refine ⟨level, fun context' alike δ children => ?_⟩
    rw [only.script_of_named (by rw [alike.name, named]), alike.name, alike.params,
      anywhere context' alike.file alike.vars alike.previous]
    rfl
  · rw [only.script_of_other named] at ran
    cases ran

end OnlyBuiltin
end Bindings
end Regen
