import Regen.Proofs.FirstFailures
import Regen.Proofs.LinesOfCode
import Regen.Proofs.Occurrences

/-! Lines of evaluated code. The code of a section is evaluated as if it began on the line
that follows from the position of the section and the number of lines before the code.
This is its line in the document as far as all those lines end in line feeds; for every
other break among them the line is one too high. -/
namespace Regen

namespace Tree
variable {α β : Type}

/-- There is no block among the trees. -/
def TextOnly (trees : List (Tree α)) : Prop := ∀ tree ∈ trees, tree.isBlock = false

theorem mem_relabelAll {label : α → β} {mark : α} {body forest : List (Tree α)}
    (member : Tree.block mark body ∈ forest) :
    Tree.block (label mark) (relabelAll label body) ∈ relabelAll label forest := by
  induction forest with
  | nil => cases member
  | cons tree more ih =>
    rcases List.mem_cons.mp member with rfl | member
    · exact List.mem_cons_self
    · exact List.mem_cons_of_mem _ (ih member)

end Tree

section History
variable {conduct : Context → Script → Prop} {file : String} {vars : Table} {room : Nat}
  {previous siblings : List Sibling} {trees nodes : List (Tree Call)} {turns pass : List Turn}
  {turn : Turn} {outcome : Except RenderStop (List Sibling)} {name : String} {found : Section}

/-- A pass over texts leaves them as they are. -/
theorem Pass.outputAll_of_textOnly (ran : Pass conduct file vars room previous trees turns (.ok siblings))
    (textOnly : Tree.TextOnly (Tree.relabelAll Call.block trees)) :
    Sibling.outputAll siblings =
      Sibling.outputAll previous ++ Node.sourceAll (Tree.relabelAll Call.block trees) := by
  induction trees generalizing previous turns with
  | nil =>
    cases ran
    simp [Node.sourceAll]
  | cons tree more ih =>
    obtain ⟨first, others⟩ := List.forall_mem_cons.mp textOnly
    cases tree with
    | text content =>
      cases ran with
      | text later =>
        rw [ih later others]
        simp [Sibling.outputAll, Sibling.output, Node.sourceAll, Node.source]
    | block call body => cases first

/-- Every block that takes a turn stands in the document that is rendered. -/
theorem Inside.stands (inside : Inside trees turns nodes pass)
    (ran : Pass conduct file vars room [] trees turns outcome) (taken : turn ∈ pass) :
    ∃ place : Occurrence, place.In (Tree.relabelAll Call.block trees) ∧
      place.block = turn.context.call.block ∧
      place.body = Tree.relabelAll Call.block turn.context.children := by
  induction inside generalizing room outcome with
  | self => exact Occurrence.in_of_mem (Tree.mem_relabelAll (ran.block_mem taken))
  | children outer asked _ ih =>
    obtain ⟨below, ended, within, -⟩ := ran.children outer asked
    obtain ⟨place, stands, block, body⟩ := ih within taken
    obtain ⟨wider, stands, block', body'⟩ := stands.outside (Tree.mem_relabelAll (ran.block_mem outer))
    exact ⟨wider, stands, block'.trans block, body'.trans body⟩

/-- A section that is found has taken its turn in the same pass. -/
theorem Pass.turn_of_section? (ran : Pass conduct file vars room [] trees turns outcome)
    (taken : turn ∈ turns) (finds : turn.context.section? name = some found) :
    ∃ earlier ∈ turns, earlier.context.call = found.call ∧
      earlier.reply = some (.content found.content) := by
  obtain ⟨k, taken⟩ := List.mem_iff_getElem?.mp taken
  obtain ⟨i, -, sees⟩ := ran.sees taken
  obtain ⟨j, -, became, -⟩ := sees.section?_eq_some_iff.mp finds
  cases became with
  | block _ turned called replied => exact ⟨_, List.mem_of_getElem? turned, called, replied⟩

end History

namespace Bindings

/-- The call is one of an action of the built-in generator, registered with its catalogue. -/
def CallsBuiltin (bindings : Bindings) (evaluate : Evaluator) (installed : List Distribution)
    (action : String) (call : Call) : Prop :=
  call.name.action = action ∧ ∃ entry, bindings.registry.entry? call.name.namespaceName = some entry ∧
    Registry.compile call.name.namespaceName (Builtin.generator evaluate installed) = .ok entry

section CallsBuiltin
variable {bindings : Bindings} {evaluate : Evaluator} {installed : List Distribution} {action file : String}
  {context : Context} {room : Nat} {trees : List (Tree Call)} {turns : List Turn} {turn : Turn}
  {outcome : Except RenderStop (List Sibling)} {content : Text}

/-- Calls in the namespace of the built-in generator are calls of it. -/
theorem callsBuiltin_of_registered {registry : Registry} {call : Call}
    (registered : registry.register call.name.namespaceName (Builtin.generator evaluate installed) =
      .ok bindings.registry) : bindings.CallsBuiltin evaluate installed call.name.action call := by
  obtain ⟨entry, compiled, known⟩ := Registry.entry?_register registered
  exact ⟨rfl, entry, by rw [known, if_pos rfl], compiled⟩

theorem script_of_callsBuiltin (builtin : bindings.CallsBuiltin evaluate installed action context.call) :
    bindings.script context = Builtin.generate evaluate installed action context.call.params context := by
  obtain ⟨rfl, entry, known, made⟩ := builtin
  rw [script, known]
  simp only [generator_of_compile made]
  rfl

/-- The content of a section that holds texts only is these texts. -/
theorem content_of_section (ran : Pass bindings.Conducts file bindings.vars room [] trees turns outcome)
    (taken : turn ∈ turns) (opened : bindings.CallsBuiltin evaluate installed "section" turn.context.call)
    (replied : turn.reply = some (.content content))
    (textOnly : Tree.TextOnly (Tree.relabelAll Call.block turn.context.children)) :
    content = Node.sourceAll (Tree.relabelAll Call.block turn.context.children) := by
  obtain ⟨script, ended, conducted, follows, same⟩ := ran.follows taken
  rw [conducted, script_of_callsBuiltin opened] at follows
  change Follows _ _ _ _ _ .transparent _ _ at follows
  obtain rfl : ended = .ok (.content content) := by
    rw [replied] at same
    cases ended with
    | error stop => cases same
    | ok reply =>
      cases same
      rfl
  obtain ⟨below, pass, ended, -, -, inner, came⟩ := follows.pass_of_transparent (by simp)
  cases ended with
  | error stop => cases came
  | ok siblings =>
    cases came
    rw [inner.outputAll_of_textOnly textOnly]
    rfl

end CallsBuiltin
end Bindings

namespace Evaluation
variable {evaluate : Evaluator} {context : Context} {name : String} {found : Section} {code : Text}
  {line : Int}

/-- Whether a call wants exceptions as content. -/
def catches (context : Context) : Bool := ((context.call.params.at? "catch").getD .none).isTruthy

/-- The complaint about a fault on one of the lines of code that begins on a line. -/
def complaint (file : String) (line offset : Int) (message : String) : Value :=
  .text s!"invalid python code in {file}:{line - 1 + offset}: {message}"

theorem generate_of_code (named : context.call.params.at? "section" = some (.text name))
    (finds : context.section? name = some found) {parts : List Fence.Part}
    (cut : Fence.split found.content
      (found.call.loc.line + Text.lineFeeds found.call.block.start.raw) = .ok parts)
    (first : Fence.firstCode? parts = some (language.toList, line, code)) :
    generate evaluate context.call.params context =
      .reply (replyCode evaluate context.file (catches context) language.toList line code) := by
  unfold generate
  simp only [named, Option.getD_some, finds]
  rw [replySection_of_code cut first]
  rfl

theorem replyCode_of_malformed {file : String} {caught : Bool} {offset : Int} {message : String}
    (named : '\x00' ∉ file.toList) (clean : '\x00' ∉ code)
    (malformed : evaluate code = .malformed (some offset) message) :
    replyCode evaluate file caught language.toList line code =
      .failure (complaint file line offset message) := by
  unfold replyCode
  rw [if_neg (by simp), if_neg (by simpa using named), if_neg (by simpa using clean), malformed]
  rfl

end Evaluation

namespace Pipeline
open Bindings Position

/-- For a call, code is evaluated as if it began on a line: the line is given with the code,
and a fault on any line of the code is reported by it. -/
structure EvaluatesFrom (pipeline : Pipeline) (file : Option String) (source : Text) (evaluate : Evaluator)
    (context : Context) (line : Int) (code : Text) : Prop where
  given : pipeline.bindings.script context = .reply (Evaluation.replyCode evaluate context.file
    (Evaluation.catches context) Evaluation.language.toList line code)
  reported : ∀ offset message, '\x00' ∉ context.file.toList → '\x00' ∉ code →
    evaluate code = .malformed (some offset) message →
      (pipeline.transform file source).outcome = .error (.fault
        ⟨context.call.failed (Evaluation.complaint context.file line offset message),
          some context.call.loc, some context.file⟩)

section Evaluated
variable {pipeline : Pipeline} {file : Option String} {source : Text} {document : Document}
  {context : Context} {evaluate : Evaluator} {installed : List Distribution} {name : String}
  {found : Section} {place : Occurrence} {code : Text} {line : Int}

/-- Calls are made by blocks. -/
theorem Calls.called (calls : pipeline.Calls file source context) :
    ∃ block, pipeline.bindings.call block = .ok context.call := by
  obtain ⟨document, trees, turns, nodes, pass, -, bound, ran, inside, turn, taken, rfl⟩ := calls
  exact (resolved_of_resolveAll bound).called (inside.call_mem ran taken)

/-- A reply that makes for a report ends the transformation. -/
theorem outcome_of_reply {reply : Reply} {fault : Fault} (called : pipeline.Calls file source context)
    (replies : pipeline.bindings.script context = .reply reply)
    (settled : reply.settle context.file context.call = .error (.fault fault)) :
    (pipeline.transform file source).outcome = .error (.fault fault) := by
  obtain ⟨document, trees, turns, nodes, pass, parsed, bound, ran, inside, turn, taken, rfl⟩ := called
  obtain ⟨below, ended, inner, -⟩ := inside.ran ran
  obtain ⟨script, ended', conducted, follows, replied⟩ := inner.follows taken
  rw [conducted, replies] at follows
  obtain rfl := follows.of_reply
  rw [inner.file_eq taken] at settled
  have stopped := ran.halts_iff.mpr ⟨nodes, pass, inside, turn, taken, reply, replied, settled⟩
  rw [outcome_transform_of_bound parsed bound, stopped]
  rfl

theorem evaluatesFrom_of_code (called : pipeline.Calls file source context)
    (evaluates : pipeline.bindings.CallsBuiltin evaluate installed "eval" context.call)
    (named : context.call.params.at? "section" = some (.text name))
    (finds : context.section? name = some found) {parts : List Fence.Part}
    (cut : Fence.split found.content
      (found.call.loc.line + Text.lineFeeds found.call.block.start.raw) = .ok parts)
    (first : Fence.firstCode? parts = some (Evaluation.language.toList, line, code)) :
    pipeline.EvaluatesFrom file source evaluate context line code := by
  have given : pipeline.bindings.script context = .reply (Evaluation.replyCode evaluate context.file
      (Evaluation.catches context) Evaluation.language.toList line code) := by
    rw [script_of_callsBuiltin evaluates]
    exact Evaluation.generate_of_code named finds cut first
  refine ⟨given, fun offset message fine clean malformed => ?_⟩
  rw [Evaluation.replyCode_of_malformed fine clean malformed] at given
  obtain ⟨block, made⟩ := called.called
  obtain ⟨-, entry, known, compiled⟩ := evaluates
  have params := writable_of_call compiled known made
  exact outcome_of_reply called given
    (settle_eq_fault_iff.mpr ⟨.failure, context.call.isWritable_failed params rfl _ _⟩)

/-- The section that a call finds is at one place of the document, and has the text that
it holds there for content, if it holds texts only. -/
theorem place_of_section
    (parsed : Document.parse pipeline.limits.nesting pipeline.settings file source = .ok document)
    (called : pipeline.Calls file source context) (finds : context.section? name = some found)
    (opened : pipeline.bindings.CallsBuiltin evaluate installed "section" found.call) :
    ∃ place : Occurrence, place.In document.nodes ∧ place.block = found.call.block ∧
      (Tree.TextOnly place.body → found.content = Node.sourceAll place.body) := by
  obtain ⟨document', trees, turns, nodes, pass, parsed', bound, ran, inside, turn, taken, rfl⟩ := called
  cases parsed.symm.trans parsed'
  obtain ⟨below, ended, inner, -⟩ := inside.ran ran
  obtain ⟨earlier, taken', same, replied⟩ := inner.turn_of_section? taken finds
  obtain ⟨place, stands, block, body⟩ := inside.stands ran taken'
  rw [(resolveAll_eq_ok_iff.mp bound).relabelAll] at stands
  refine ⟨place, stands, by rw [block, same], fun textOnly => ?_⟩
  rw [body] at textOnly ⊢
  exact content_of_section inner taken' (same ▸ opened) replied textOnly

/-- The line of code by the lines before it in its section, and its line in the document. -/
theorem code_line (level : '\n' ∉ pipeline.settings.markerKeyword.toList)
    (parsed : Document.parse pipeline.limits.nesting pipeline.settings file source = .ok document)
    (stands : place.In document.nodes) {before code : List Text}
    (first : Fence.FirstBlock (Node.sourceAll place.body) Evaluation.language.toList before code) :
    ∃ front after, front = place.before ++ place.block.start.raw ++ before.flatten ∧
      source = front ++ code.flatten ++ after ∧
      place.block.start.loc.line + Text.lineFeeds place.block.start.raw + before.length =
        (ofOffset source front.length).line + Text.strayBreaks before := by
  obtain ⟨rest, whole⟩ := first.whole
  have split : source = place.before ++ place.block.start.raw ++ before.flatten ++ code.flatten ++
      (rest ++ place.block.footer ++ place.after) := by
    rw [← Document.source_of_parse parsed, Document.source, stands.sourceAll, Occurrence.source, whole]
    simp
  refine ⟨_, _, rfl, split, ?_⟩
  have begins : ofOffset source (place.before ++ place.block.start.raw ++ before.flatten).length =
      start.advance (place.before ++ place.block.start.raw ++ before.flatten) := by
    rw [ofOffset, split, List.append_assoc (_ ++ _ ++ _), List.take_left]
  rw [begins, Document.line_of_marker level parsed stands, first.length_eq, line_advance, line_advance]
  simp only [Text.lineFeeds, List.count_append]
  omega

/-- The section that an evaluation finds stands at one place of the document. Where it holds
texts only, code is evaluated just if the first fenced block is one of the language that
is evaluated, and then as if it began on a certain line, which is the line of the document
on which it begins, and one more for every line before it that ends in a break other than
a line feed. So it is the line of the document exactly when there is no such break. -/
theorem code_evaluated_from_line (level : '\n' ∉ pipeline.settings.markerKeyword.toList)
    (parsed : Document.parse pipeline.limits.nesting pipeline.settings file source = .ok document)
    (called : pipeline.Calls file source context)
    (evaluates : pipeline.bindings.CallsBuiltin evaluate installed "eval" context.call)
    (named : context.call.params.at? "section" = some (.text name))
    (finds : context.section? name = some found)
    (opened : pipeline.bindings.CallsBuiltin evaluate installed "section" found.call) :
    ∃ place : Occurrence,
      (∀ other : Occurrence, other.In document.nodes ∧ other.block = found.call.block ↔ other = place) ∧
      (Tree.TextOnly place.body →
        (∀ code, Evaluation.CodeOf found code ↔ ∃ before lines,
          Fence.FirstBlock (Node.sourceAll place.body) Evaluation.language.toList before lines ∧
            code = lines.flatten) ∧
        ∀ before code,
          Fence.FirstBlock (Node.sourceAll place.body) Evaluation.language.toList before code →
          ∃ front after line, front = place.before ++ place.block.start.raw ++ before.flatten ∧
            source = front ++ code.flatten ++ after ∧
            pipeline.EvaluatesFrom file source evaluate context line code.flatten ∧
            line = (ofOffset source front.length).line + Text.strayBreaks before ∧
            (line = (ofOffset source front.length).line ↔
              ∀ ending ∈ before, ending.getLast? = some '\n')) := by
  obtain ⟨place, stands, same, content⟩ := place_of_section parsed called finds opened
  refine ⟨place, fun other => ⟨?_, ?_⟩, fun textOnly => ⟨fun code => ?_, fun before code first => ?_⟩⟩
  · rintro ⟨stands', same'⟩
    exact Document.place_unique parsed stands stands' (same'.trans same.symm)
  · rintro rfl
    exact ⟨stands, same⟩
  · rw [← content textOnly]
    constructor
    · rintro ⟨parts, line, cut, found⟩
      obtain ⟨before, lines, first, -, whole⟩ := Fence.firstCode?_split_iff.mp ⟨parts, cut, found⟩
      exact ⟨before, lines, first, whole⟩
    · rintro ⟨before, lines, first, rfl⟩
      obtain ⟨parts, cut, found⟩ := first.firstCode? _
      exact ⟨parts, _, cut, found⟩
  · obtain ⟨front, after, begins, whole, line⟩ := code_line level parsed stands first
    rw [← content textOnly] at first
    obtain ⟨parts, cut, leads⟩ := first.firstCode?
      (found.call.loc.line + Text.lineFeeds found.call.block.start.raw)
    have evaluated := evaluatesFrom_of_code called evaluates named finds cut leads
    rw [Call.loc, ← same, line] at evaluated
    refine ⟨front, after, _, begins, whole, evaluated, rfl, ?_⟩
    rw [← Text.strayBreaks_eq_zero_iff]
    omega

/-- All code has a fault on its first line. -/
def faultyEvaluator : Evaluator := fun _ => .malformed (some 1) "invalid syntax"

/-- What is built in, where all code has a fault. -/
def faultyBindings : Bindings :=
  ⟨(Registry.register [] "rdmx" (Builtin.generator faultyEvaluator [])).toOption.getD [], []⟩

def faultyPipeline : Pipeline := ⟨.standard, ⟨1, 1⟩, faultyBindings, none⟩

theorem registered_faultyBindings :
    Registry.register [] "rdmx" (Builtin.generator faultyEvaluator []) = .ok faultyBindings.registry :=
  ok_getD_of_toBool (by decide +kernel) []

theorem callsBuiltin_faultyBindings {block : Block} {call : Call}
    (called : faultyBindings.call block = .ok call) (named : block.start.name.namespaceName = "rdmx") :
    faultyBindings.CallsBuiltin faultyEvaluator [] block.start.name.action call := by
  have same : call.name = block.start.name := by rw [Call.name, block_of_call called]
  have registered : Registry.register [] call.name.namespaceName (Builtin.generator faultyEvaluator []) =
      .ok faultyBindings.registry := by
    rw [same, named]
    exact registered_faultyBindings
  have builtin := callsBuiltin_of_registered registered
  rwa [same] at builtin

/-- A section with code after some text, and its evaluation. -/
def codeText (outside : Text) : Text :=
  "<!-- rdmx :section name:s -->\n".toList ++ outside ++
    "\x60\x60\x60python\n1 +\n\x60\x60\x60\n<!-- rdmx /:section -->".toList ++
    "<!-- rdmx :eval section:s --><!-- rdmx /:eval -->".toList

def codeSection : Block :=
  ⟨⟨⟨"rdmx", "section"⟩, [⟨"name", .text "s", ⟨1, 20⟩⟩], "<!-- rdmx :section name:s -->\n".toList,
    ⟨1, 11⟩⟩, "<!-- rdmx /:section -->".toList⟩

/-- What the section holds, the lines before the code being on lines of their own. -/
def codeContent : Text := "a\r\nb\n\x60\x60\x60python\n1 +\n\x60\x60\x60\n".toList

def evaluationBlock : Block :=
  ⟨⟨⟨"rdmx", "eval"⟩, [⟨"section", .text "s", ⟨7, 40⟩⟩], "<!-- rdmx :eval section:s -->".toList,
    ⟨7, 34⟩⟩, "<!-- rdmx /:eval -->".toList⟩

theorem parse_codeText : Document.parse 1 .standard none (codeText "a\r\nb\n".toList) =
    .ok ⟨"nofile", [.block codeSection [.text codeContent], .block evaluationBlock []]⟩ :=
  ok_of_toOption (by decide +kernel)

/-- Where the section stands. -/
def codePlace : Occurrence :=
  ⟨[], codeSection, [.text codeContent], Node.sourceAll [.block evaluationBlock []]⟩

/-- The lines before the code. -/
def codeBefore : List Text := ["a\r\n".toList, "b\n".toList, "\x60\x60\x60python\n".toList]

theorem firstBlock_codePlace : Fence.FirstBlock (Node.sourceAll codePlace.body) Evaluation.language.toList
    codeBefore ["1 +\n".toList] := by
  have lined := Text.lined_lines (Node.sourceAll codePlace.body)
  have lines : Text.lines (Node.sourceAll codePlace.body) = ["a\r\n".toList, "b\n".toList] ++
      "\x60\x60\x60python\n".toList :: (["1 +\n".toList] ++ "\x60\x60\x60\n".toList :: []) := by decide +kernel
  rw [lines] at lined
  refine .mk lined ?_ (Fence.opening?_eq_some_iff.mp (by decide)) ?_ (Fence.isClosing_iff.mp (by decide)) .nil
  · intro line member
    exact Fence.plain_of_opening? (by revert line; decide)
  · intro line member closes
    rw [List.mem_singleton.mp member] at closes
    exact absurd (Fence.isClosing_iff.mpr closes) (by decide)

/-- What an evaluation is handed after a section that holds a text. -/
def evaluationContext (vars : Table) (opened evaluated : Call) (content : Text) : Context :=
  ⟨"nofile", evaluated, [], [.block opened content], [], vars⟩

theorem calls_evaluationContext {source content : Text} {opened evaluated : Call}
    {sectionBlock block : Block} {room : Nat} (roomy : pipeline.limits.levels = room + 1)
    (parsed : Document.parse pipeline.limits.nesting pipeline.settings none source =
      .ok ⟨"nofile", [.block sectionBlock [.text content], .block block []]⟩)
    (called : pipeline.bindings.call sectionBlock = .ok opened)
    (called' : pipeline.bindings.call block = .ok evaluated)
    (opens : pipeline.bindings.CallsBuiltin evaluate installed "section" opened)
    (evaluates : pipeline.bindings.CallsBuiltin evaluate installed "eval" evaluated) :
    pipeline.Calls none source (evaluationContext pipeline.bindings.vars opened evaluated content) := by
  have bound : pipeline.bindings.resolveAll "nofile"
      [.block sectionBlock [.text content], .block block []] =
        .ok [.block opened [.text content], .block evaluated []] :=
    resolveAll_of_resolved (.block called (.text .nil) (.block called' .nil .nil))
  have first (context : Context) (same : context.call = opened) :
      pipeline.bindings.script context = .transparent := by
    subst same
    rw [script_of_callsBuiltin opens]
    rfl
  have whole : Sibling.outputAll [.text content] = content := by simp [Sibling.outputAll, Sibling.output]
  rw [← whole]
  obtain ⟨reply, answers⟩ : ∃ reply, pipeline.bindings.script (evaluationContext pipeline.bindings.vars
      opened evaluated (Sibling.outputAll [.text content])) = .reply reply := by
    rw [script_of_callsBuiltin evaluates]
    exact Evaluation.generate_eq_reply ..
  have ran : ∃ turns outcome, Pass pipeline.bindings.Conducts "nofile" pipeline.bindings.vars
      pipeline.limits.levels [] [.block opened [.text content], .block evaluated []] turns outcome ∧
      ∃ turn ∈ turns, turn.context = evaluationContext pipeline.bindings.vars opened evaluated
          (Sibling.outputAll [.text content]) := by
    rw [roomy]
    cases settled : reply.settle "nofile" evaluated with
    | ok content' =>
      exact ⟨_, _, .answered (first _ rfl).symm (.rendered (.text .nil) .reply) rfl
        (.answered answers.symm .reply settled .nil), _, List.mem_cons_of_mem _ List.mem_cons_self, rfl⟩
    | error halt =>
      exact ⟨_, _, .answered (first _ rfl).symm (.rendered (.text .nil) .reply) rfl
        (.reported answers.symm .reply settled), _, List.mem_cons_of_mem _ List.mem_cons_self, rfl⟩
  obtain ⟨turns, outcome, ran, taken⟩ := ran
  rw [← outcome_renderAll_of_pass ran] at ran
  exact ⟨_, _, _, _, _, parsed, bound, ran, .self, taken⟩

end Evaluated

/-- Where all lines before the code end in line feeds, the code is on its line of the document. -/
theorem code_evaluated_from_line_plain :
    '\n' ∉ Settings.standard.markerKeyword.toList ∧ ∃ context found,
      faultyPipeline.Calls none (codeText "a\r\nb\n".toList) context ∧
      faultyBindings.CallsBuiltin faultyEvaluator [] "eval" context.call ∧
      context.call.params.at? "section" = some (.text "s") ∧ context.section? "s" = some found ∧
      faultyBindings.CallsBuiltin faultyEvaluator [] "section" found.call ∧
      codePlace.block = found.call.block ∧ Tree.TextOnly codePlace.body ∧
      Fence.FirstBlock (Node.sourceAll codePlace.body) Evaluation.language.toList codeBefore
        ["1 +\n".toList] ∧
      faultyPipeline.EvaluatesFrom none (codeText "a\r\nb\n".toList) faultyEvaluator context 5
        "1 +\n".toList := by
  have level : '\n' ∉ Settings.standard.markerKeyword.toList := by decide
  have sections : (faultyBindings.call codeSection).toOption.any
      (fun call => call.sectionName = some "s") = true := by decide +kernel
  have given : (faultyBindings.call evaluationBlock).toOption.any
      (fun call => (call.params.at? "section").any (Value.sameKey · (.text "s"))) = true := by decide +kernel
  have last : (ofOffset (codeText "a\r\nb\n".toList)
      (codePlace.before ++ codePlace.block.start.raw ++ codeBefore.flatten).length).line +
        Text.strayBreaks codeBefore = 5 := by decide +kernel
  cases called : faultyBindings.call codeSection with
  | error fault => simp [called, Except.toOption] at sections
  | ok opened =>
    cases called' : faultyBindings.call evaluationBlock with
    | error fault => simp [called', Except.toOption] at given
    | ok evaluated =>
      simp only [called, called', Except.toOption, Option.any_some, decide_eq_true_eq] at sections given
      have named : evaluated.params.at? "section" = some (.text "s") := by
        cases asked : evaluated.params.at? "section" with
        | none => simp [asked] at given
        | some value => simpa [asked] using given
      have opens := callsBuiltin_faultyBindings called rfl
      have evaluates := callsBuiltin_faultyBindings called' rfl
      have calls : faultyPipeline.Calls none (codeText "a\r\nb\n".toList)
          (evaluationContext [] opened evaluated codeContent) :=
        calls_evaluationContext rfl parse_codeText called called' opens evaluates
      have finds : (evaluationContext [] opened evaluated codeContent).section? "s" =
          some ⟨opened, codeContent⟩ := by
        simp [Context.section?, Context.lastSection?, evaluationContext, sections]
      have held : codePlace.block = opened.block := (block_of_call called).symm
      have textOnly : Tree.TextOnly codePlace.body := by simp [codePlace, Tree.TextOnly, Tree.isBlock]
      obtain ⟨place, only, lines⟩ :=
        code_evaluated_from_line level parse_codeText calls evaluates named finds opens
      obtain rfl := (only codePlace).mp ⟨.here, held⟩
      obtain ⟨front, after, line, rfl, -, evaluatesFrom, rfl, -⟩ :=
        (lines textOnly).2 _ _ firstBlock_codePlace
      rw [last] at evaluatesFrom
      exact ⟨level, _, _, calls, evaluates, named, finds, opens, held, textOnly, firstBlock_codePlace,
        evaluatesFrom⟩

/-- A form feed before the code ends a line of the section, and none of the document: the
fault on the first line of the code is reported for the line after it. -/
theorem code_misplaced_after_form_feed :
    (∃ fault, (faultyPipeline.transform none (codeText "a\x0cb\n".toList)).outcome = .error (.fault fault) ∧
      fault.message = "generator error in nofile:6:34, (BuiltIn(), 'eval', " ++
        "\x7b'section': 's', 'catch': False\x7d), got: 'invalid python code in nofile:5: invalid syntax'") ∧
    ∃ front after, codeText "a\x0cb\n".toList = front ++ "1 +\n".toList ++ after ∧
      (ofOffset (codeText "a\x0cb\n".toList) front.length).line = 4 := by
  have failed : (fault? (faultyPipeline.transform none (codeText "a\x0cb\n".toList)).outcome).map
      Fault.message = some ("generator error in nofile:6:34, (BuiltIn(), 'eval', " ++
        "\x7b'section': 's', 'catch': False\x7d), got: 'invalid python code in nofile:5: invalid syntax'") := by
    decide +kernel
  obtain ⟨fault, stopped, message⟩ := Option.map_eq_some_iff.mp failed
  refine ⟨⟨fault, eq_error_of_fault? stopped, message⟩,
    "<!-- rdmx :section name:s -->\na\x0cb\n\x60\x60\x60python\n".toList,
    "\x60\x60\x60\n<!-- rdmx /:section --><!-- rdmx :eval section:s --><!-- rdmx /:eval -->".toList, ?_, ?_⟩
  · decide +kernel
  · decide +kernel

end Pipeline
end Regen
