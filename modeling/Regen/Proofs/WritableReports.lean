import Regen.Proofs.BuiltinContents
import Regen.Proofs.ResolutionOrder
import Regen.Proofs.TypedParameters

/-! Reports that can be written. The parameters of the built-in actions hold texts and
truth values, given or by default, so what such an action reports can be written, and
so can the name of a section that it opens. -/
namespace Regen

namespace Value

theorem entriesWritable_iff {entries : Table} : entriesWritable entries = true ↔
    ∀ entry ∈ entries, entry.1.isWritable = true ∧ entry.2.isWritable = true := by
  induction entries with
  | nil => simp [entriesWritable]
  | cons entry more ih => simp [entriesWritable, ih]

end Value

theorem ParamType.Has.isWritable {type : ParamType} {value : Value} (has : type.Has value)
    (short : type = .string ∨ type = .boolean) : value.isWritable = true := by
  rcases short with rfl | rfl
  · cases has
    rfl
  · cases has
    rfl

theorem Param.isWritable_keyValue (param : Param) : param.keyValue.isWritable = true := by
  unfold keyValue
  cases param.key <;> rfl

namespace Schema

/-- Only texts and truth values are taken, and defaults can be written. -/
def Writable (schema : Schema) : Prop :=
  schema.admitsOthers = false ∧ ∀ param ∈ schema.params,
    (param.spec.type = .string ∨ param.spec.type = .boolean) ∧ param.key = some param.word ∧
      param.spec.default.isWritable = true

instance (schema : Schema) : Decidable schema.Writable :=
  inferInstanceAs (Decidable (schema.admitsOthers = false ∧ ∀ param ∈ schema.params,
    (param.spec.type = .string ∨ param.spec.type = .boolean) ∧ param.key = some param.word ∧
      param.spec.default.isWritable = true))

section Checked
variable {schema : Schema} {given : Entries} {params : Table} {key : String} {value : Value}
  {received : Value × Value}

/-- What is handed on is of the type of a declared parameter. -/
theorem Writable.of_accepted (writable : schema.Writable) (distinct : (given.map Prod.fst).Nodup)
    (fine : schema.problems given = []) (there : (key, value) ∈ given)
    (accepted : schema.accepted (key, value) = .ok received) :
    received.1.isWritable = true ∧ received.2.isWritable = true := by
  unfold Schema.accepted at accepted
  split at accepted
  · rename_i param known
    cases accepted
    have declared := List.mem_of_find?_eq_some known
    have named : param.key = some key := by simpa using List.find?_some known
    obtain ⟨short, keyed, -⟩ := writable.2 param declared
    have passes := declaredProblem?_of_problems fine declared
    rw [declaredProblem?, Option.some.inj (keyed.symm.trans named),
      (Assoc.get?_eq_some_iff distinct).mpr there] at passes
    cases taken : param.spec.type.accept? value with
    | none => simp [taken] at passes
    | some received =>
      exact ⟨rfl, (ParamType.accept?_eq_some_iff.mp taken).has.isWritable short⟩
  · split at accepted
    · cases accepted
    · rename_i unknown
      have listed : ParamProblem.unknown key ∈ schema.problems given := by
        rw [problems, writable.1, List.mem_append]
        exact .inr (List.mem_map.mpr ⟨(key, value), List.mem_filter.mpr ⟨there, by simpa using unknown⟩, rfl⟩)
      rw [fine] at listed
      cases listed

theorem Writable.of_check (writable : schema.Writable) (passed : schema.check given = .ok params) :
    Value.entriesWritable params = true := by
  obtain ⟨distinct, fine, taken, rfl, each⟩ := check_eq_ok passed
  refine Value.entriesWritable_iff.mpr fun received held => ?_
  rcases List.mem_append.mp held with held | held
  · obtain ⟨entry, there, accepted⟩ := each _ held
    exact writable.of_accepted distinct fine there accepted
  · obtain ⟨param, declared, made⟩ := List.mem_filterMap.mp held
    split at made
    · cases made
    · cases made
      exact ⟨param.isWritable_keyValue, (writable.2 param declared).2.2⟩

end Checked
end Schema

section Builtin
variable {registry : Registry} {bindings : Bindings} {namespaceName name other : String}
  {evaluate : Evaluator} {installed : List Distribution} {entry : Registered} {action : Action}
  {block : Block} {call : Call}

namespace Registry

/-- What holds of the actions of the built-in catalogue holds of them under any namespace. -/
theorem forall_declared_of_builtin {P : Value × Action → Prop} [DecidablePred P]
    (made : compile namespaceName (Builtin.generator evaluate installed) = .ok entry)
    (each : (actionsOf "BuiltIn()" "rdmx" (Table.ofEntries Builtin.catalog)).toOption.all
      (fun actions => decide (∀ declared ∈ actions, P declared)) = true) :
    ∀ declared ∈ entry.declared, P declared := by
  obtain ⟨entries, table, -, declared⟩ := compile_eq_ok_iff.mp made
  cases table
  rw [actionsOf_elsewhere declared "BuiltIn()" "rdmx"] at each
  exact of_decide_eq_true each

theorem writable_of_declared
    (made : compile namespaceName (Builtin.generator evaluate installed) = .ok entry)
    (declared : entry.action? name = some action) : action.schema.Writable :=
  forall_declared_of_builtin (P := fun declared => declared.2.schema.Writable) made
    (by decide +kernel) _ (Registered.mem_of_action? declared)

/-- Where only the built-in generator is registered, every entry is its own. -/
theorem compile_of_known
    (only : register [] namespaceName (Builtin.generator evaluate installed) = .ok registry)
    (known : registry.entry? name = some entry) :
    compile namespaceName (Builtin.generator evaluate installed) = .ok entry := by
  obtain ⟨own, made, found⟩ := entry?_register only
  rw [found] at known
  split at known
  · cases known
    exact made
  · cases known

/-- The built-in catalogue is not at fault. -/
theorem wellTyped_builtin
    (only : register [] namespaceName (Builtin.generator evaluate installed) = .ok registry) :
    registry.WellTyped := by
  unfold register at only
  split at only
  · rename_i entry made
    rw [← Except.ok.inj only]
    intro named mem
    cases List.mem_singleton.mp mem
    exact forall_declared_of_builtin (P := fun declared => declared.2.WellTyped) made (by decide +kernel)
  · cases only

end Registry

namespace Bindings

theorem writable_of_call
    (made : Registry.compile namespaceName (Builtin.generator evaluate installed) = .ok entry)
    (known : bindings.registry.entry? call.name.namespaceName = some entry)
    (called : bindings.call block = .ok call) : Value.entriesWritable call.params = true := by
  obtain ⟨found, action, given, known', declared, -, checked, -, same⟩ := made_of_call called
  rw [Call.name, same, known'] at known
  cases known
  exact (Registry.writable_of_declared made declared).of_check checked

/-- Built-in actions leave every section with a name that can be written. -/
theorem not_unnameable
    (only : Registry.register [] namespaceName (Builtin.generator evaluate installed) =
      .ok bindings.registry) : ¬bindings.Unnameable block := by
  rintro ⟨entry, action, given, params, value, known, declared, -, checked, -, -, held, unwritable⟩
  have made := Registry.compile_of_known only known
  have writable := (Registry.writable_of_declared made declared).of_check checked
  obtain ⟨found, member, rfl⟩ := Table.mem_of_get? held
  rw [(Value.entriesWritable_iff.mp writable _ member).2] at unwritable
  cases unwritable

end Bindings
end Builtin

/-- What a reply is about can be written. -/
def Reply.IsWritable : Reply → Prop
  | .content _ => True
  | .failure reason => reason.isWritable
  | .foreign answer => answer.isWritable
  | .undefined name => name.isWritable
  | .noSection name => name.isWritable
  | .escape _ => True

theorem Halt.report_of_isWritable {fault : Fault} (writable : fault.isWritable = true) :
    Halt.report fault = .fault fault :=
  if_pos writable

/-- The failure of a call can be reported if its parameters and the reason can be written. -/
theorem Call.isWritable_failed {call : Call} (params : Value.entriesWritable call.params = true)
    {reason : Value} (writable : reason.isWritable = true) (loc : Option Position) (file : Option String) :
    Fault.isWritable ⟨call.failed reason, loc, file⟩ = true := by
  simp [Fault.isWritable, Cause.told, Call.failed, generatorValue, Value.isWritable, params, writable]

/-- A reply about what can be written is a report, unless it is a failure without one. -/
theorem Reply.settle_eq_escape_iff {reply : Reply} {file : String} {call : Call} {found : Escape}
    (params : Value.entriesWritable call.params = true) (writable : reply.IsWritable) :
    reply.settle file call = .error (.escape found) ↔ reply = .escape found := by
  cases reply with
  | content text => simp [settle]
  | failure reason =>
    rw [settle, Halt.report_of_isWritable (call.isWritable_failed params writable _ _)]
    simp
  | foreign answer =>
    rw [settle, Halt.report_of_isWritable]
    · simp
    · exact call.isWritable_failed params writable none none
  | undefined name =>
    rw [settle, Halt.report_of_isWritable]
    · simp
    · simpa [Fault.isWritable, Cause.told, Reply.IsWritable] using writable
  | noSection name =>
    have reason : (Value.tuple [.text "section_not_found", name]).isWritable = true := by
      simpa [Value.isWritable, Value.areWritable, Reply.IsWritable] using writable
    rw [settle, Halt.report_of_isWritable (call.isWritable_failed params reason _ _)]
    simp
  | escape other => simp [settle]

section Generate
variable {evaluate : Evaluator} {installed : List Distribution} {params vars : Table} {context : Context}
  {package : Value} {version file : String} {name : Value} {catches : Bool} {found : Section}
  {reply : Reply}

theorem Requirement.isWritable_replyFor : (replyFor params package version).IsWritable := by
  unfold replyFor
  split
  · rfl
  · split <;> exact trivial

/-- Packages are looked up by name. -/
theorem Requirement.text_of_installedVersion {answer : Option String}
    (looked : installedVersion installed package = .ok answer) : ∃ name, package = .text name := by
  unfold installedVersion at looked
  split at looked
  · cases looked
  · split at looked
    · exact ⟨_, rfl⟩
    · cases looked

theorem Requirement.isWritable_reply : (Requirement.reply installed params vars).IsWritable := by
  unfold Requirement.reply
  split
  · rfl
  · split
    · exact isWritable_replyFor
    · split
      · exact trivial
      · rename_i absent
        obtain ⟨name, rfl⟩ := text_of_installedVersion absent
        rfl
      · exact isWritable_replyFor

theorem Badge.isWritable_reply : (Badge.reply params).IsWritable := by
  unfold Badge.reply
  split
  · trivial
  · rfl

theorem Evaluation.isWritable_reply {line : Int} {evaluation : Evaluation} :
    (Evaluation.reply file line catches evaluation).IsWritable := by
  cases evaluation with
  | raised banner => cases catches <;> trivial
  | _ => trivial

theorem Evaluation.isWritable_replySection (writable : name.isWritable = true) :
    (replySection evaluate file name catches found).IsWritable := by
  unfold replySection
  dsimp only
  split
  · rfl
  · split
    · simpa [Reply.IsWritable, Value.isWritable, Value.areWritable] using writable
    · split
      · rfl
      · split
        · trivial
        · split
          · trivial
          · exact isWritable_reply

/-- Whatever a built-in action other than a section replies can be written. -/
theorem Builtin.isWritable_of_generate (writable : Value.entriesWritable params = true) {action : String}
    (answered : generate evaluate installed action params context = .reply reply) : reply.IsWritable := by
  unfold generate at answered
  split at answered
  · cases answered
    exact Requirement.isWritable_reply
  · cases answered
    exact Badge.isWritable_reply
  · cases answered
  · have named : ((params.at? "section").getD .none).isWritable = true := by
      cases given : params.at? "section" with
      | none => rfl
      | some value =>
        obtain ⟨entry, member, rfl⟩ := Table.mem_of_get? given
        exact (Value.entriesWritable_iff.mp writable _ member).2
    unfold Evaluation.generate at answered
    dsimp only at answered
    split at answered
    · split at answered
      · cases answered
        simpa [Reply.IsWritable, Value.isWritable, Value.areWritable] using named
      · cases answered
        exact Evaluation.isWritable_replySection named
    · cases answered
      simpa [Reply.IsWritable, Value.isWritable, Value.areWritable] using named
  · cases answered
    rfl

end Generate
end Regen
