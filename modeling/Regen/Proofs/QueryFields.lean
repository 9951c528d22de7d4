import Regen.Proofs.PlainReferences
import Regen.Url.Query

/-! Fields of queries. A query of ASCII characters in which nothing stands for anything else
gives its fields as they are written, and the first that gives a name a value decides what
is found under the name. -/
namespace Regen.Url.Query

/-- Each character stands for itself in a query. -/
def Literal (text : Text) : Prop := ∀ c ∈ text, c.toNat < 128 ∧ c ≠ '%' ∧ c ≠ '+'

/-- The first field of the form `name=value` whose value is not empty. -/
inductive FirstValue (name : Text) : List Text → Text → Prop
  | here {value : Text} {more : List Text} : value ≠ [] →
    FirstValue name ((name ++ '=' :: value) :: more) value
  | later {field value : Text} {more : List Text} :
    (∀ other, other ≠ [] → field ≠ name ++ '=' :: other) → FirstValue name more value →
    FirstValue name (field :: more) value

section Decoding
variable {text : Text} {c : Char}

theorem toNat_byte (ascii : c.toNat < 128) : (UInt8.ofNat c.toNat).toNat = c.toNat := by
  rw [UInt8.toNat_ofNat']
  omega

theorem bytesOf_literal (literal : Literal text) :
    bytesOf text = text.map fun c => UInt8.ofNat c.toNat := by
  induction text with
  | nil => rfl
  | cons c text ih =>
    obtain ⟨⟨-, unescaped, -⟩, later⟩ := List.forall_mem_cons.mp literal
    have step : bytesOf (c :: text) = UInt8.ofNat c.toNat :: bytesOf text :=
      bytesOf.eq_2 c text fun _ _ _ escape _ => unescaped escape
    rw [step, ih later, List.map_cons]

/-- Bytes below 128 are read one by one. -/
theorem decodeLenient_ascii (ascii : ∀ c ∈ text, c.toNat < 128) :
    Utf8.decodeLenient (text.map fun c => UInt8.ofNat c.toNat) = text := by
  induction text with
  | nil => rfl
  | cons c text ih =>
    obtain ⟨here, later⟩ := List.forall_mem_cons.mp ascii
    have low : UInt8.ofNat c.toNat < 0x80 := by
      rw [UInt8.lt_iff_toNat_lt, toNat_byte here]
      exact here
    have char : Utf8.readChar (UInt8.ofNat c.toNat) (text.map fun c => UInt8.ofNat c.toNat) = .char c 1 := by
      unfold Utf8.readChar
      rw [if_pos low, toNat_byte here, Char.ofNat_toNat]
    have rest := ih later
    unfold Utf8.decodeLenient at rest ⊢
    rw [List.map_cons, Utf8.decodeLenientFrom]
    simp only [char, rest]

theorem decodeFrom_literal (run : Text) (literal : Literal (run.reverse ++ text)) :
    decodeFrom run text = run.reverse ++ text := by
  induction text generalizing run with
  | nil =>
    rw [decodeFrom, bytesOf_literal (by simpa using literal), decodeLenient_ascii, List.append_nil]
    exact fun c member => (literal c (List.mem_append_left _ member)).1
  | cons c text ih =>
    have ascii : isAscii c = true := decide_eq_true (literal c (by simp)).1
    have whole : (c :: run).reverse ++ text = run.reverse ++ c :: text := by simp
    rw [decodeFrom, if_pos ascii, ih (c :: run) (whole ▸ literal), whole]

theorem decode_literal (literal : Literal text) : decode text = text := by
  have unchanged : text.map (fun c => if c = '+' then ' ' else c) = text := by
    refine (List.map_congr_left fun c member => ?_).trans (List.map_id text)
    exact if_neg (literal c member).2.2
  rw [decode, unchanged]
  exact decodeFrom_literal [] literal

end Decoding

section Fields
variable {name field value query : Text} {all : List Text}

/-- The name and the value of a field that has one. -/
def field? (field : Text) : Option (Text × Text) :=
  match Text.cutAt '=' field with
  | (name, some value) => if value.isEmpty then none else some (decode name, decode value)
  | (_, none) => none

theorem field?_eq_some_iff (literal : Literal field) : field? field = some (name, value) ↔
    '=' ∉ name ∧ value ≠ [] ∧ field = name ++ '=' :: value := by
  cases cut : Text.cutAt '=' field with
  | mk front after =>
    obtain ⟨clear, whole⟩ := Text.cutAt_eq_iff.mp cut
    unfold field?
    rw [cut]
    cases after with
    | none =>
      refine ⟨nofun, ?_⟩
      rintro ⟨-, -, rfl⟩
      rw [Text.behind_none, List.append_nil] at whole
      exact absurd (whole ▸ List.mem_append_right name List.mem_cons_self) clear
    | some after =>
      rw [Text.behind_some] at whole
      have front' : decode front = front :=
        decode_literal fun c member => literal c (whole ▸ List.mem_append_left _ member)
      have after' : decode after = after :=
        decode_literal fun c member =>
          literal c (whole ▸ List.mem_append_right _ (List.mem_cons_of_mem _ member))
      simp only [front', after', Option.ite_none_left_eq_some, Option.some.injEq, Prod.mk.injEq]
      constructor
      · rintro ⟨filled, rfl, rfl⟩
        exact ⟨clear, by simpa using filled, whole⟩
      · rintro ⟨clear', filled, written⟩
        have cut' : Text.cutAt '=' field = (name, some value) :=
          Text.cutAt_eq_iff.mpr ⟨clear', written⟩
        obtain ⟨rfl, same⟩ := Prod.mk.inj (cut.symm.trans cut')
        cases same
        exact ⟨by simpa using filled, rfl, rfl⟩

theorem lookup_filterMap_iff (unequal : '=' ∉ name) (literal : ∀ field ∈ all, Literal field) :
    (all.filterMap field?).lookup name = some value ↔ FirstValue name all value := by
  induction all with
  | nil => exact ⟨nofun, nofun⟩
  | cons field more ih =>
    obtain ⟨here, later⟩ := List.forall_mem_cons.mp literal
    have ih := ih later
    by_cases gives : ∃ other, field? field = some (name, other)
    · obtain ⟨other, found⟩ := gives
      obtain ⟨-, filled, rfl⟩ := (field?_eq_some_iff here).mp found
      rw [List.filterMap_cons_some found, List.lookup_cons_self, Option.some_inj]
      constructor
      · rintro rfl
        exact .here filled
      · intro first
        generalize whole : name ++ '=' :: other = field at first
        cases first with
        | here => exact (List.cons.inj (List.append_cancel_left whole)).2
        | later none => exact absurd whole.symm (none other filled)
    · have none : ∀ other, other ≠ [] → field ≠ name ++ '=' :: other :=
        fun other filled written => gives ⟨other, (field?_eq_some_iff here).mpr ⟨unequal, filled, written⟩⟩
      have skipped : ((field :: more).filterMap field?).lookup name = (more.filterMap field?).lookup name := by
        cases found : field? field with
        | none => rw [List.filterMap_cons_none found]
        | some pair =>
          have other : (name == pair.1) = false := by
            apply beq_eq_false_iff_ne.mpr
            rintro rfl
            exact gives ⟨pair.2, found⟩
          rw [List.filterMap_cons_some found, List.lookup_cons, other]
      rw [skipped, ih]
      constructor
      · exact .later none
      · intro first
        cases first with
        | here filled => exact absurd rfl (none value filled)
        | later _ first => exact first

/-- Under a name stands the first value that a field gives it. -/
theorem lookup_fields_iff (unequal : '=' ∉ name) (literal : Literal query) :
    (fields query).lookup name = some value ↔ FirstValue name (Text.splitOn '&' query) value := by
  have each : ∀ field ∈ Text.splitOn '&' query, Literal field :=
    fun field listed c member => literal c (Text.inside_of_field listed member).1
  exact lookup_filterMap_iff unequal each

/-- The value is a part of one of the fields. -/
theorem FirstValue.mem (first : FirstValue name all value) : ∃ field ∈ all, value ⊆ field := by
  induction first with
  | here => exact ⟨_, List.mem_cons_self, fun c member => List.mem_append_right _ (List.mem_cons_of_mem _ member)⟩
  | later _ _ ih =>
    obtain ⟨field, listed, inside⟩ := ih
    exact ⟨field, List.mem_cons_of_mem _ listed, inside⟩

end Fields
end Regen.Url.Query
