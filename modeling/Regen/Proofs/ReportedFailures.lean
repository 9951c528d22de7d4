import Regen.Proofs.DocumentPrinting
import Regen.Proofs.RenderingHistory
import Regen.Proofs.TruePositions
import Regen.Proofs.WritableReports

/-! Failures and reports. A document is transformed, or a report says what is wrong
with it, as far as only the built-in actions are called. The failures that no report
covers are few: integers beyond the limit of digits, packages without a name or with one
that cannot be written, and the evaluation of code that holds null characters or goes wrong
where nothing is caught. -/
namespace Regen

namespace Evaluation

/-- The failure without a report that code ends in, if it does. -/
def escape? : Evaluation → Option Escape
  | .unprintable found => some found
  | .leaves found => some found
  | .uncompilable found => some found
  | _ => none

/-- Code never asks to leave the program, nor is it interrupted. -/
def Stays (evaluate : Evaluator) : Prop :=
  ∀ code found, (evaluate code).escape? = some found →
    found.kind ≠ .exit ∧ found.kind ≠ .interrupt

/-- The code that the evaluation of a section is about. -/
def CodeOf (found : Section) (code : Text) : Prop :=
  ∃ parts start, Fence.split found.content
      (found.call.loc.line + Text.lineFeeds found.call.block.start.raw) = .ok parts ∧
    Fence.firstCode? parts = some (language.toList, start, code)

/-- How the evaluation of code in a file fails without a report. -/
inductive Fails (evaluate : Evaluator) (file : String) (code : Text) : Escape → Prop
  | nullInFile : '\x00' ∈ file.toList → Fails evaluate file code ⟨.badValue, "embedded null character"⟩
  | nullInCode : '\x00' ∉ file.toList → '\x00' ∈ code →
    Fails evaluate file code ⟨.badValue, "source code string cannot contain null bytes"⟩
  | evaluated {escape : Escape} : '\x00' ∉ file.toList → '\x00' ∉ code →
    (evaluate code).escape? = some escape → Fails evaluate file code escape

end Evaluation

/-- Calls of built-in actions that end in a failure without a report. -/
inductive Builtin.Escapes (evaluate : Evaluator) (context : Context) : Escape → Prop
  | unnamedPackage {package : Value} :
    context.call.name.action = "app_dep" →
    (∀ version, context.call.params.at? "vsn" ≠ some (.text version)) →
    Requirement.package? context.call.params context.vars = some package → package.isTruthy = false →
    Escapes evaluate context ⟨.badValue, "A distribution name is required."⟩
  | oddPackage {package : Value} :
    context.call.name.action = "app_dep" →
    (∀ version, context.call.params.at? "vsn" ≠ some (.text version)) →
    Requirement.package? context.call.params context.vars = some package → package.isTruthy = true →
    (∀ name, package ≠ .text name) →
    Escapes evaluate context
      ⟨.badType, s!"expected string or bytes-like object, got '{package.kindName}'"⟩
  | longPackage {package : Value} {version : String} {trimmed : Text} :
    context.call.name.action = "app_dep" → context.call.params.at? "vsn" = some (.text version) →
    Requirement.package? context.call.params context.vars = some package →
    Requirement.trimVersion version.toList (Requirement.switchParam context.call.params "patch" false) =
      some trimmed →
    package.isWritable = false → Escapes evaluate context .unwritable
  | evaluation {name : String} {found : Section} {code : Text} {escape : Escape} :
    context.call.name.action = "eval" → context.call.params.at? "section" = some (.text name) →
    context.section? name = some found → Evaluation.CodeOf found code →
    Evaluation.Fails evaluate context.file code escape → Escapes evaluate context escape

/-- Only evaluated code could ask to leave the program. -/
theorem Builtin.Escapes.kind_ne {evaluate : Evaluator} {context : Context} {escape : Escape}
    (stays : Evaluation.Stays evaluate) (escapes : Builtin.Escapes evaluate context escape) :
    escape.kind ≠ .exit ∧ escape.kind ≠ .interrupt := by
  cases escapes with
  | evaluation _ _ _ _ fails =>
    cases fails with
    | nullInFile => exact ⟨nofun, nofun⟩
    | nullInCode => exact ⟨nofun, nofun⟩
    | evaluated _ _ ended => exact stays _ _ ended
  | _ => exact ⟨nofun, nofun⟩

namespace Requirement

section Reply
variable {installed : List Distribution} {params vars : Table} {package : Value} {version : String}
  {escape : Escape}

/-- With a version as it should be, a requirement fails on a name that cannot be written. -/
theorem replyFor_eq_escape_iff : replyFor params package version = .escape escape ↔
    (∃ trimmed, trimVersion version.toList (switchParam params "patch" false) = some trimmed) ∧
      package.isWritable = false ∧ escape = .unwritable := by
  unfold replyFor
  cases trimmed : trimVersion version.toList (switchParam params "patch" false) with
  | none => simp
  | some release =>
    dsimp only
    rw [← Value.write_eq_error_iff]
    cases written : package.write with
    | error found => simp
    | ok name => simp

theorem installedVersion_eq_error_iff : installedVersion installed package = .error escape ↔
    (package.isTruthy = false ∧ escape = ⟨.badValue, "A distribution name is required."⟩) ∨
    (package.isTruthy = true ∧ (∀ name, package ≠ .text name) ∧
      escape = ⟨.badType, s!"expected string or bytes-like object, got '{package.kindName}'"⟩) := by
  unfold installedVersion
  cases named : package.isTruthy with
  | false => simp [eq_comm]
  | true =>
    simp only [Bool.not_true, Bool.false_eq_true, ↓reduceIte, reduceCtorEq, false_and, true_and,
      false_or]
    split
    · simp
    · rename_i other
      simp only [Except.error.injEq]
      constructor
      · intro same
        exact ⟨other, same.symm⟩
      · intro same
        exact same.2.symm

/-- A requirement fails without a report when a version is looked up for what is no name,
or a name is to be written that cannot be. -/
theorem reply_eq_escape_iff : reply installed params vars = .escape escape ↔
    ∃ package, package? params vars = some package ∧
      ((∃ version, params.at? "vsn" = some (.text version) ∧
        replyFor params package version = .escape escape) ∨
      (∀ version, params.at? "vsn" ≠ some (.text version)) ∧
        installedVersion installed package = .error escape) := by
  unfold reply
  cases meant : package? params vars with
  | none => simp
  | some package =>
    dsimp only
    split
    · rename_i version given
      simp [given]
    · rename_i absent
      have without : ∀ version, params.at? "vsn" ≠ some (.text version) := absent
      cases looked : installedVersion installed package with
      | error stop => simp [looked, without]
      | ok answer =>
        obtain ⟨name, rfl⟩ := text_of_installedVersion looked
        cases answer with
        | none => simp [looked, without]
        | some version => simp [looked, without, replyFor_eq_escape_iff, Value.isWritable]

end Reply
end Requirement

namespace Badge

theorem reply_ne_escape {params : Table} {escape : Escape} : reply params ≠ .escape escape := by
  unfold reply
  split <;> simp

end Badge

namespace Evaluation

section Section
variable {evaluate : Evaluator} {file : String} {name : Value} {catches : Bool} {found : Section}
  {params : Table} {context : Context} {escape : Escape}

theorem reply_eq_escape_iff {line : Int} {evaluation : Evaluation} :
    reply file line catches evaluation = .escape escape ↔ evaluation.escape? = some escape := by
  cases evaluation with
  | raised banner => cases catches <;> simp [reply, escape?]
  | _ => simp [reply, escape?]

theorem replyCode_eq_escape_iff {tag code : Text} {start : Int} :
    replyCode evaluate file catches tag start code = .escape escape ↔
      tag = language.toList ∧ Fails evaluate file code escape := by
  unfold replyCode
  by_cases spoken : tag = language.toList
  · by_cases named : '\x00' ∈ file.toList
    · simp only [spoken, ne_eq, not_true_eq_false, ↓reduceIte, List.contains_iff_mem, named,
        Reply.escape.injEq, true_and]
      constructor
      · rintro rfl
        exact .nullInFile named
      · intro fails
        cases fails with
        | nullInFile => rfl
        | nullInCode fine => exact absurd named fine
        | evaluated fine => exact absurd named fine
    · by_cases clean : '\x00' ∈ code
      · simp only [spoken, ne_eq, not_true_eq_false, ↓reduceIte, List.contains_iff_mem, named,
          clean, Reply.escape.injEq, true_and]
        constructor
        · rintro rfl
          exact .nullInCode named clean
        · intro fails
          cases fails with
          | nullInFile null => exact absurd null named
          | nullInCode => rfl
          | evaluated _ fine => exact absurd clean fine
      · simp only [spoken, ne_eq, not_true_eq_false, ↓reduceIte, List.contains_iff_mem, named,
          clean, reply_eq_escape_iff, true_and]
        constructor
        · exact .evaluated named clean
        · intro fails
          cases fails with
          | nullInFile null => exact absurd null named
          | nullInCode _ null => exact absurd null clean
          | evaluated _ _ ended => exact ended
  · simp [spoken]

theorem replySection_eq_escape_iff :
    replySection evaluate file name catches found = .escape escape ↔
      ∃ code, CodeOf found code ∧ Fails evaluate file code escape := by
  unfold CodeOf
  cases cut : Fence.split found.content
      (found.call.loc.line + Text.lineFeeds found.call.block.start.raw) with
  | error opened => simp [replySection, cut]
  | ok parts =>
    cases first : Fence.firstCode? parts with
    | none => simp [replySection, cut, first]
    | some part =>
      obtain ⟨tag, start, code⟩ := part
      rw [replySection_of_code cut first, replyCode_eq_escape_iff]
      constructor
      · rintro ⟨spoken, fails⟩
        exact ⟨code, ⟨parts, start, rfl, by rw [first, spoken]⟩, fails⟩
      · rintro ⟨code', ⟨parts', start', same, first'⟩, fails⟩
        cases same
        rw [first] at first'
        cases first'
        exact ⟨rfl, fails⟩

/-- Evaluation fails without a report where its code does. -/
theorem generate_eq_escape_iff :
    generate evaluate params context = .reply (.escape escape) ↔
      ∃ text found code, params.at? "section" = some (.text text) ∧ context.section? text = some found ∧
        CodeOf found code ∧ Fails evaluate context.file code escape := by
  unfold generate
  dsimp only
  split
  · rename_i text named
    have given : params.at? "section" = some (.text text) := by
      cases wanted : params.at? "section" with
      | none => simp [wanted] at named
      | some value => simpa [wanted] using named
    cases opened : context.section? text with
    | none => simp [given, opened]
    | some found => simp [given, opened, replySection_eq_escape_iff]
  · rename_i other
    constructor
    · nofun
    · rintro ⟨text, found, code, given, -⟩
      exact absurd (by rw [given]; rfl) (other text)

end Section
end Evaluation

namespace Builtin

section Generate
variable {evaluate : Evaluator} {context : Context} {escape : Escape}

/-- A built-in action other than a section fails without a report in these calls only. -/
theorem generate_eq_escape_iff (installed : List Distribution) :
    generate evaluate installed context.call.name.action context.call.params context =
      .reply (.escape escape) ↔ Escapes evaluate context escape := by
  constructor
  · intro failed
    unfold generate at failed
    split at failed
    · rename_i named
      obtain ⟨package, meant, ⟨version, given, failed⟩ | ⟨absent, failed⟩⟩ :=
        Requirement.reply_eq_escape_iff.mp (Script.reply.inj failed)
      · obtain ⟨⟨trimmed, done⟩, unwritable, rfl⟩ := Requirement.replyFor_eq_escape_iff.mp failed
        exact .longPackage named given meant done unwritable
      · rcases Requirement.installedVersion_eq_error_iff.mp failed with
          ⟨empty, rfl⟩ | ⟨given, other, rfl⟩
        · exact .unnamedPackage named absent meant empty
        · exact .oddPackage named absent meant given other
    · exact absurd (Script.reply.inj failed) Badge.reply_ne_escape
    · cases failed
    · rename_i named
      obtain ⟨text, found, code, given, opened, written, fails⟩ :=
        Evaluation.generate_eq_escape_iff.mp failed
      exact .evaluation named given opened written fails
    · cases failed
  · intro escapes
    cases escapes with
    | unnamedPackage named absent meant empty =>
      rw [named]
      exact congrArg Script.reply (Requirement.reply_eq_escape_iff.mpr ⟨_, meant, .inr ⟨absent,
        Requirement.installedVersion_eq_error_iff.mpr (.inl ⟨empty, rfl⟩)⟩⟩)
    | oddPackage named absent meant given other =>
      rw [named]
      exact congrArg Script.reply (Requirement.reply_eq_escape_iff.mpr ⟨_, meant, .inr ⟨absent,
        Requirement.installedVersion_eq_error_iff.mpr (.inr ⟨given, other, rfl⟩)⟩⟩)
    | longPackage named given meant done unwritable =>
      rw [named]
      exact congrArg Script.reply (Requirement.reply_eq_escape_iff.mpr ⟨_, meant, .inl ⟨_, given,
        Requirement.replyFor_eq_escape_iff.mpr ⟨⟨_, done⟩, unwritable, rfl⟩⟩⟩)
    | evaluation named given opened written fails =>
      rw [named]
      exact Evaluation.generate_eq_escape_iff.mpr ⟨_, _, _, given, opened, written, fails⟩

end Generate
end Builtin

section History
variable {conduct : Context → Script → Prop} {file : String} {vars : Table} {room : Nat}
  {trees nodes : List (Tree Call)} {turns pass : List Turn} {turn : Turn}
  {outcome : Except RenderStop (List Sibling)}

theorem Tree.mem_postorderAll {α : Type} {mark : α} {body trees : List (Tree α)}
    (mem : Tree.block mark body ∈ trees) :
    mark ∈ postorderAll trees ∧ ∀ inner ∈ postorderAll body, inner ∈ postorderAll trees := by
  induction trees with
  | nil => cases mem
  | cons tree more ih =>
    rcases List.mem_cons.mp mem with rfl | mem
    · constructor
      · simp
      · intro inner within
        simp [within]
    · obtain ⟨here, inside⟩ := ih mem
      simp only [postorderAll, List.mem_append]
      exact ⟨.inr here, fun inner within => .inr (inside inner within)⟩

theorem Follows.of_reply {body : List (Tree Call)} {passes : List (List Turn)} {answer : Reply}
    {ended : Except RenderStop Reply}
    (follows : Follows conduct file vars room body (.reply answer) passes ended) :
    ended = .ok answer := by
  cases follows
  rfl

/-- A transparent script replies with content. -/
theorem Follows.content_of_transparent {body : List (Tree Call)} {passes : List (List Turn)}
    {reply : Reply} (follows : Follows conduct file vars room body .transparent passes (.ok reply)) :
    ∃ text, reply = .content text := by
  cases follows with
  | rendered _ follows =>
    cases follows
    exact ⟨_, rfl⟩

/-- Only blocks of the forest that is rendered take turns, however far inside. -/
theorem Inside.call_mem (inside : Inside trees turns nodes pass)
    (ran : Pass conduct file vars room [] trees turns outcome) (taken : turn ∈ pass) :
    turn.context.call ∈ Tree.postorderAll trees := by
  induction inside generalizing room outcome with
  | self => exact (Tree.mem_postorderAll (ran.block_mem taken)).1
  | children outer asked _ ih =>
    obtain ⟨below, ended, within, -⟩ := ran.children outer asked
    exact (Tree.mem_postorderAll (ran.block_mem outer)).2 _ (ih within taken)

end History

namespace Bindings

section OnlyBuiltin
variable {bindings : Bindings} {namespaceName file : String} {evaluate : Evaluator}
  {installed : List Distribution} {nodes : List Node} {trees : List (Tree Call)} {turns : List Turn}
  {previous : List Sibling} {room : Nat} {turn : Turn} {call : Call} {escape : Escape}
  {outcome : Except RenderStop (List Sibling)}

theorem Resolved.called (resolved : Resolved bindings nodes trees)
    (mem : call ∈ Tree.postorderAll trees) : ∃ block, bindings.call block = .ok call := by
  induction resolved with
  | nil => cases mem
  | text _ ih => exact ih mem
  | @block block _ _ _ _ _ called _ _ inside after =>
    rw [Tree.postorderAll_block, List.mem_append, List.mem_cons] at mem
    rcases mem with mem | rfl | mem
    · exact inside mem
    · exact ⟨block, called⟩
    · exact after mem

/-- Only built-in actions are called. -/
theorem entry?_of_call
    (only : Registry.register [] namespaceName (Builtin.generator evaluate installed) =
      .ok bindings.registry) {block : Block} (called : bindings.call block = .ok call) :
    call.name.namespaceName = namespaceName ∧ ∃ entry,
      Registry.compile namespaceName (Builtin.generator evaluate installed) = .ok entry ∧
      bindings.registry.entry? call.name.namespaceName = some entry := by
  obtain ⟨entry, -, -, known, -, -, -, -, same⟩ := made_of_call called
  rw [Call.name, same]
  refine ⟨?_, entry, Registry.compile_of_known only known, known⟩
  obtain ⟨own, -, found⟩ := Registry.entry?_register only
  rw [found] at known
  by_contra other
  rw [if_neg (Ne.symm other)] at known
  cases known

/-- A turn of a built-in action is about a failure without a report in these calls only. -/
theorem reports_escape_iff
    (only : Registry.register [] namespaceName (Builtin.generator evaluate installed) =
      .ok bindings.registry)
    (ran : Pass bindings.Conducts file bindings.vars room previous trees turns outcome)
    (taken : turn ∈ turns) {block : Block} (called : bindings.call block = .ok turn.context.call) :
    turn.Reports file (.escape escape) ↔ Builtin.Escapes evaluate turn.context escape := by
  obtain ⟨script, ended, conducted, follows, replied⟩ := ran.follows taken
  obtain ⟨named, entry, made, known⟩ := entry?_of_call only called
  rw [conducted, script_of_registered only named] at follows
  change Follows _ _ _ _ _ (Builtin.generate evaluate installed _ _ _) _ _ at follows
  have writable := writable_of_call made known called
  rw [← Builtin.generate_eq_escape_iff installed]
  constructor
  · rintro ⟨reply, replied', settled⟩
    rw [replied'] at replied
    obtain rfl : ended = .ok reply := by
      cases ended with
      | error stop => cases replied
      | ok answer =>
        cases replied
        rfl
    by_cases opens : turn.context.call.name.action = "section"
    · -- A section replies with the text of its children.
      rw [opens] at follows
      obtain ⟨text, rfl⟩ := follows.content_of_transparent
      cases settled
    · obtain ⟨answer, answered, -⟩ := Builtin.generate_content opens
      rw [answered] at follows ⊢
      cases follows.of_reply
      rw [(Reply.settle_eq_escape_iff writable
        (Builtin.isWritable_of_generate writable answered)).mp settled]
  · intro failed
    rw [failed] at follows
    rw [follows.of_reply] at replied
    exact ⟨_, replied, rfl⟩

end OnlyBuiltin
end Bindings

namespace Header

/-- Tokens are withheld without a report for integers beyond the limit only. -/
theorem integer_of_ofLexemes {lexemes : List Lexeme} {loc : Position} {digits : Nat}
    (failed : Token.ofLexemes loc lexemes = .error (.numeralTooLong digits)) :
    ∃ lexeme ∈ lexemes, lexeme.kind = .integer ∧ lexeme.text.length = digits ∧ numeralLimit < digits := by
  induction lexemes generalizing loc with
  | nil => cases failed
  | cons lexeme more ih =>
    unfold Token.ofLexemes at failed
    split at failed
    · rename_i fault found
      cases failed
      unfold Lexeme.fault? at found
      split at found
      · cases found
      · rename_i kind
        split at found
        · rename_i long
          cases found
          exact ⟨lexeme, List.mem_cons_self, kind, rfl, long⟩
        · cases found
      · cases found
    · split at failed
      · cases failed
      · obtain ⟨found, mem, rest⟩ := ih failed
        exact ⟨found, List.mem_cons_of_mem lexeme mem, rest⟩

end Header

namespace Chunk

/-- A marker of the source holds an integer of too many digits. -/
def LongNumeral (settings : Settings) (source : Text) (digits : Nat) : Prop :=
  numeralLimit < digits ∧ ∃ raw opener header, raw <:+: source ∧
    HeaderOf settings raw opener header ∧
    ∃ lexeme ∈ Header.lexemes header, lexeme.kind = .integer ∧ lexeme.text.length = digits

section Scan
variable {settings : Settings} {file : String} {source header raw text : Text} {loc : Position}
  {halt : Halt} {escape : Escape}

theorem integer_of_ofMarker (failed : ofMarker settings file header raw loc = .error (.escape escape)) :
    ∃ digits, escape = ⟨.badValue, Header.numeralTooLongMessage digits⟩ ∧
      ∃ lexeme ∈ Header.lexemes header, lexeme.kind = .integer ∧ lexeme.text.length = digits ∧
        numeralLimit < digits := by
  unfold ofMarker at failed
  split at failed
  · rename_i fault tokenized
    cases fault with
    | illegal => cases failed
    | numeralTooLong digits =>
      cases failed
      exact ⟨digits, rfl, Header.integer_of_ofLexemes tokenized⟩
  · split at failed
    · rename_i fault parsed
      cases fault <;> cases failed
    · cases failed
    · cases failed

theorem Scans.longNumeral (scans : Scans settings file loc text (.error (.escape escape))) :
    ∃ digits, escape = ⟨.badValue, Header.numeralTooLongMessage digits⟩ ∧
      LongNumeral settings text digits := by
  generalize stopped : (Except.error (.escape escape) : Except Halt (List Chunk)) = outcome at scans
  induction scans with
  | plain => cases stopped
  | unclosed => cases stopped
  | refused cut refuses =>
    cases stopped
    obtain ⟨digits, rfl, lexeme, mem, kind, size, long⟩ := integer_of_ofMarker refuses
    refine ⟨digits, rfl, long, cut.raw, cut.opener, cut.header, ?_, cut.headerOf, lexeme, mem, kind, size⟩
    exact ⟨cut.run, cut.rest, by simp [Cut.text]⟩
  | @marked loc marker outcome cut reads more ih =>
    cases outcome with
    | ok chunks => cases stopped
    | error halt =>
      cases stopped
      obtain ⟨digits, same, long, raw, opener, header, ⟨before, after, within⟩, written, found⟩ := ih rfl
      refine ⟨digits, same, long, raw, opener, header, ?_, written, found⟩
      exact ⟨cut.run ++ cut.raw ++ before, after, by simp [Cut.text, ← within]⟩

end Scan
end Chunk

namespace Pipeline
open Bindings

/-- A generator is called in a context when a document is transformed. -/
def Calls (pipeline : Pipeline) (file : Option String) (source : Text) (context : Context) : Prop :=
  ∃ document trees turns nodes pass,
    Document.parse pipeline.limits.nesting pipeline.settings file source = .ok document ∧
    pipeline.bindings.resolveAll document.file document.nodes = .ok trees ∧
    Pass pipeline.bindings.Conducts document.file pipeline.bindings.vars pipeline.limits.levels [] trees turns
      (pipeline.bindings.renderAll document.file pipeline.limits.levels [] trees).outcome ∧
    Inside trees turns nodes pass ∧ ∃ turn ∈ pass, turn.context = context

/-- The failures of a transformation that no report covers. -/
inductive Unreported (pipeline : Pipeline) (evaluate : Evaluator) (file : Option String) (source : Text) :
    Escape → Prop
  | numeral {digits : Nat} : Chunk.LongNumeral pipeline.settings source digits →
    Unreported pipeline evaluate file source ⟨.badValue, Header.numeralTooLongMessage digits⟩
  | call {context : Context} {escape : Escape} : pipeline.Calls file source context →
    Builtin.Escapes evaluate context escape → escape.kind ≠ .recursion →
    Unreported pipeline evaluate file source escape

section Transform
variable {pipeline : Pipeline} {file : Option String} {source : Text} {document : Document}
  {trees : List (Tree Call)} {halt : Halt} {escape : Escape} {namespaceName : String}
  {evaluate : Evaluator} {installed : List Distribution} {context : Context}

theorem outcome_transform_of_unparsed
    (unparsed : Document.parse pipeline.limits.nesting pipeline.settings file source = .error halt) :
    (pipeline.transform file source).outcome = .error halt := by
  rw [transform, Run.outcome_bind, outcome_parse, unparsed]
  rfl

theorem outcome_transform_of_refused
    (parsed : Document.parse pipeline.limits.nesting pipeline.settings file source = .ok document)
    (refused : pipeline.bindings.resolveAll document.file document.nodes = .error halt) :
    (pipeline.transform file source).outcome = .error halt := by
  obtain ⟨chunks, ran⟩ := (events_parse parsed).2
  rw [transform_of_refused ran refused]

/-- A document is not parsed without a report for the sake of an integer only. -/
theorem longNumeral_of_parse
    (unparsed : Document.parse pipeline.limits.nesting pipeline.settings file source =
      .error (.escape escape)) :
    ∃ digits, escape = ⟨.badValue, Header.numeralTooLongMessage digits⟩ ∧
      Chunk.LongNumeral pipeline.settings source digits := by
  unfold Document.parse at unparsed
  split at unparsed
  · rename_i halt stopped
    cases unparsed
    have scans := Chunk.scanFrom_scans pipeline.settings (Document.nameIn pipeline.settings file)
      .start source
    rw [Chunk.scan] at stopped
    rw [stopped] at scans
    exact scans.longNumeral
  · rename_i chunks scanned
    unfold Document.ofChunks at unparsed
    split at unparsed <;> cases unparsed

theorem Unreported.kind_ne (stays : Evaluation.Stays evaluate)
    (unreported : Unreported pipeline evaluate file source escape) :
    escape.kind ≠ .exit ∧ escape.kind ≠ .interrupt ∧ escape.kind ≠ .recursion := by
  cases unreported with
  | numeral long => exact ⟨nofun, nofun, nofun⟩
  | call called escapes shallow =>
    obtain ⟨stays, uninterrupted⟩ := escapes.kind_ne stays
    exact ⟨stays, uninterrupted, shallow⟩

/-- What stopped a transformation while rendering is reported, or is a failure of a call. -/
theorem stopped_of_render
    (only : Registry.register [] namespaceName (Builtin.generator evaluate installed) =
      .ok pipeline.bindings.registry)
    (parsed : Document.parse pipeline.limits.nesting pipeline.settings file source = .ok document)
    (bound : pipeline.bindings.resolveAll document.file document.nodes = .ok trees) {stop : RenderStop}
    (rendered : (pipeline.bindings.renderAll document.file pipeline.limits.levels [] trees).outcome =
      .error stop) :
    (∃ fault, stopAt document stop = .fault fault) ∨
      ∃ escape, stopAt document stop = .escape escape ∧
        Unreported pipeline evaluate file source escape := by
  cases stop with
  | tooDeep => exact .inl ⟨_, rfl⟩
  | halt halt =>
    cases halt with
    | fault fault => exact .inl ⟨fault, rfl⟩
    | escape escape =>
      by_cases deep : escape.kind = .recursion
      · exact .inl ⟨_, if_pos deep⟩
      · refine .inr ⟨escape, if_neg deep, ?_⟩
        obtain ⟨turns, ran, -⟩ :=
          pass_of_renderAll pipeline.bindings document.file pipeline.limits.levels [] trees
        obtain ⟨nodes, pass, inside, turn, taken, reports⟩ := ran.halts_iff.mp rendered
        obtain ⟨below, ended, inner, -⟩ := inside.ran ran
        obtain ⟨block, called⟩ := (resolved_of_resolveAll bound).called (inside.call_mem ran taken)
        exact .call ⟨document, trees, turns, nodes, pass, parsed, bound, ran, inside, turn, taken, rfl⟩
          ((reports_escape_iff only inner taken called).mp reports) deep

/-- With built-in actions only and code that never asks to leave the program, a document is
transformed or the failure is reported, but for integers of too many digits, packages that
have no name or none that can be written, and evaluation that fails where nothing is caught.
Calls of the latter two kinds do end so, unless what they do goes too deep, which is put
down to the nesting of blocks. -/
theorem failures_reported (stays : Evaluation.Stays evaluate)
    (only : Registry.register [] namespaceName (Builtin.generator evaluate installed) =
      .ok pipeline.bindings.registry) (file : Option String) (source : Text) :
    ((∃ output, (pipeline.transform file source).outcome = .ok output) ∨
      (∃ fault, (pipeline.transform file source).outcome = .error (.fault fault)) ∨
      ∃ escape, (pipeline.transform file source).outcome = .error (.escape escape) ∧
        Unreported pipeline evaluate file source escape ∧
        escape.kind ≠ .exit ∧ escape.kind ≠ .interrupt ∧ escape.kind ≠ .recursion) ∧
    ∀ context escape, pipeline.Calls file source context → Builtin.Escapes evaluate context escape →
      (escape.kind ≠ .recursion → (pipeline.transform file source).outcome = .error (.escape escape)) ∧
      (escape.kind = .recursion → ∃ document,
        Document.parse pipeline.limits.nesting pipeline.settings file source = .ok document ∧
        (pipeline.transform file source).outcome = .error (tooDeep document)) := by
  constructor
  · cases parsed : Document.parse pipeline.limits.nesting pipeline.settings file source with
    | error halt =>
      rw [outcome_transform_of_unparsed parsed]
      cases halt with
      | fault fault => exact .inr (.inl ⟨fault, rfl⟩)
      | escape escape =>
        obtain ⟨digits, rfl, long⟩ := longNumeral_of_parse parsed
        have unreported : Unreported pipeline evaluate file source _ := .numeral long
        exact .inr (.inr ⟨_, rfl, unreported, unreported.kind_ne stays⟩)
    | ok document =>
      cases bound : pipeline.bindings.resolveAll document.file document.nodes with
      | error halt =>
        rw [outcome_transform_of_refused parsed bound]
        obtain ⟨-, block, -, fault, -, -, refuses, rfl⟩ := resolveAll_eq_error_iff.mp bound
        rcases refuses.cause (Registry.wellTyped_builtin only) with ⟨cause, rfl⟩ | ⟨unnameable, -⟩
        · exact .inr (.inl ⟨_, rfl⟩)
        · exact absurd unnameable (not_unnameable only)
      | ok trees =>
        rw [outcome_transform_of_bound parsed bound]
        cases rendered :
            (pipeline.bindings.renderAll document.file pipeline.limits.levels [] trees).outcome with
        | ok siblings => exact .inl ⟨_, rfl⟩
        | error stop =>
          rcases stopped_of_render only parsed bound rendered with
            ⟨fault, stopped⟩ | ⟨escape, stopped, unreported⟩
          · exact .inr (.inl ⟨fault, congrArg _ stopped⟩)
          · exact .inr (.inr ⟨escape, congrArg _ stopped, unreported, unreported.kind_ne stays⟩)
  · rintro context escape ⟨document, trees, turns, nodes, pass, parsed, bound, ran, inside, turn, taken, rfl⟩
      escapes
    obtain ⟨below, ended, inner, -⟩ := inside.ran ran
    obtain ⟨block, called⟩ := (resolved_of_resolveAll bound).called (inside.call_mem ran taken)
    have stopped := ran.halts_iff.mpr
      ⟨nodes, pass, inside, turn, taken, (reports_escape_iff only inner taken called).mpr escapes⟩
    rw [outcome_transform_of_bound parsed bound, stopped]
    exact ⟨fun shallow => congrArg _ (if_neg shallow), fun deep => ⟨document, parsed, congrArg _ (if_pos deep)⟩⟩

end Transform

/-- A requirement for a package without a name. -/
def unnamedText : Text :=
  "<!-- rdmx :app_dep package:\"\" -->\n".toList ++ "<!-- rdmx /:app_dep -->\n".toList

theorem transform_unnamedText : (builtinPipeline.transform none unnamedText).outcome =
    .error (.escape ⟨.badValue, "A distribution name is required."⟩) :=
  eq_error_of_escape? (by decide +kernel)

/-- Code without a value never asks to leave the program. -/
theorem stays_value : Evaluation.Stays fun _ => .value "" := by
  intro code found ended
  cases ended

theorem failures_reported_unnamed : Unreported builtinPipeline (fun _ => .value "") none unnamedText
    ⟨.badValue, "A distribution name is required."⟩ := by
  have only : Registry.register [] "rdmx" (Builtin.generator (fun _ => .value "") []) =
      .ok builtinPipeline.bindings.registry := registered_builtinBindings
  obtain ⟨⟨output, ended⟩ | ⟨fault, ended⟩ | ⟨escape, ended, unreported, -⟩, -⟩ :=
    failures_reported stays_value only none unnamedText
  · rw [transform_unnamedText] at ended
    cases ended
  · rw [transform_unnamedText] at ended
    cases ended
  · rw [transform_unnamedText] at ended
    cases ended
    exact unreported

/-- A marker that holds nothing but an integer. -/
def numeralText (digits : Text) : Text := "<!-- rdmx ".toList ++ (digits ++ [' ', '-', '-', '>'])

theorem guarded_numeral {digits : Text} (numeral : digits.all Text.isAsciiDigit = true) :
    Printing.Guarded (digits ++ [' ']) := by
  apply Printing.guarded_of_noDash
  intro c mem
  rcases List.mem_append.mp mem with mem | mem
  · rintro rfl
    exact absurd (List.all_eq_true.mp numeral _ mem) (by decide)
  · rw [List.mem_singleton.mp mem]
    decide

/-- The pieces of such a marker. -/
def numeralPieces (digits : Text) : Chunk.Pieces :=
  ⟨"<!-- rdmx ".toList, digits ++ [' '], ['-', '-', '>'], []⟩

theorem opens_numeral : "<!-- rdmx ".toList ∈ Settings.standard.openers := by decide +kernel

theorem closes_numeral {digits : Text} (numeral : digits.all Text.isAsciiDigit = true) :
    Chunk.untilCloser ((numeralPieces digits).tail ++ []) =
      some (digits ++ [' '], ['-', '-', '>'], []) := by
  have closes := Printing.untilCloser_of_guarded (guarded_numeral numeral) (.inl rfl) []
  have tail : (numeralPieces digits).tail = digits ++ [' '] ++ ['-', '-', '>'] ++ [] := rfl
  rw [tail, List.append_nil, List.append_nil]
  exact closes

theorem owns_nothing : Chunk.Owns [] [] := ⟨.inl rfl, fun _ => by simp⟩

/-- The cut of such a marker. -/
def numeralCut (digits : Text) (numeral : digits.all Text.isAsciiDigit = true) :
    Chunk.Cut .standard where
  toPieces := numeralPieces digits
  run := []
  rest := []
  opens := opens_numeral
  clear := Chunk.clear_nil _
  closes := closes_numeral numeral
  owns := owns_nothing

/-- A document with an integer beyond the limit is not even scanned. -/
theorem scan_numeralText {digits : Text} (file : String) (numeral : digits.all Text.isAsciiDigit = true)
    (long : numeralLimit < digits.length) : Chunk.scan .standard file (numeralText digits) =
      .error (.escape ⟨.badValue, Header.numeralTooLongMessage digits.length⟩) := by
  have whole : (numeralCut digits numeral).text = numeralText digits := by
    change [] ++ (("<!-- rdmx ".toList ++ ((digits ++ [' ']) ++ ['-', '-', '>'] ++ [])) ++ []) =
      "<!-- rdmx ".toList ++ (digits ++ ([' '] ++ ['-', '-', '>']))
    generalize "<!-- rdmx ".toList = opener
    simp only [List.nil_append, List.append_nil, List.append_assoc]
  have tokenized : ∀ loc, Header.tokenize (digits ++ [' ']) loc =
      .error (.numeralTooLong digits.length) := by
    intro loc
    cases digits with
    | nil => cases long
    | cons c tail =>
      have first : Header.scanLexeme c (tail ++ [' ']) = (.integer, tail.length) :=
        Header.scanLexeme_digits numeral fun d first => .inl (by cases first; decide)
      rw [Header.tokenize, List.cons_append, Header.lexemes, first]
      simp only [List.take_left, Header.Token.ofLexemes, Header.Lexeme.fault?, if_pos long]
  rw [← whole]
  refine Chunk.scanFrom_refused (numeralCut digits numeral) ?_
  have header : (numeralCut digits numeral).header = digits ++ [' '] := rfl
  rw [Chunk.ofMarker, header, tokenized]
  simp only [Chunk.faultOfToken]

/-- An integer beyond the limit is not reported. -/
theorem numeral_unreported : Evaluation.Stays (fun _ => .value "") ∧
    Registry.register [] "rdmx" (Builtin.generator (fun _ => .value "") []) =
      .ok builtinPipeline.bindings.registry ∧
    (builtinPipeline.transform none (numeralText (List.replicate 4301 '1'))).outcome =
      .error (.escape ⟨.badValue, Header.numeralTooLongMessage 4301⟩) ∧
    ¬∀ source, (∃ output, (builtinPipeline.transform none source).outcome = .ok output) ∨
      ∃ fault, (builtinPipeline.transform none source).outcome = .error (.fault fault) := by
  have ended : (builtinPipeline.transform none (numeralText (List.replicate 4301 '1'))).outcome =
      .error (.escape ⟨.badValue, Header.numeralTooLongMessage 4301⟩) := by
    have numeral : (List.replicate 4301 '1').all Text.isAsciiDigit = true := by
      rw [List.all_replicate]
      decide
    have scanned := scan_numeralText (Document.nameIn Settings.standard none) numeral
      (by rw [List.length_replicate]; decide)
    rw [List.length_replicate] at scanned
    apply outcome_transform_of_unparsed
    rw [Document.parse]
    split
    · rename_i halt stopped
      exact congrArg Except.error (Except.error.inj (stopped.symm.trans scanned))
    · rename_i chunks fine
      exact nomatch fine.symm.trans scanned
  refine ⟨stays_value, registered_builtinBindings, ended, ?_⟩
  intro closed
  rcases closed (numeralText (List.replicate 4301 '1')) with ⟨output, other⟩ | ⟨fault, other⟩
  · rw [ended] at other
    cases other
  · rw [ended] at other
    cases other

end Pipeline
end Regen
