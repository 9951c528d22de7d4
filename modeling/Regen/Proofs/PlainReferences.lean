import Regen.Proofs.Cuts
import Regen.Url

/-! Plain references. A visible name with a query behind it, in which no character marks
another part of an address, is read as this name and this query, and on the page of a
directory it denotes what the two texts spell one after the other. -/
namespace Regen.Url

/-- A name and a query of visible characters. Whatever begins a scheme, an authority or a
fragment stands behind the question mark only, or not at all. -/
structure Plain (name : Text) (query : Option Text) : Prop where
  visible : ∀ c ∈ name ++ Text.behind '?' query, 32 < c.toNat
  noFragment : '#' ∉ name ++ Text.behind '?' query
  noQuery : '?' ∉ name
  noScheme : ':' ∉ name
  noSlash : '/' ∉ name

/-- The address of a directory: its path is the names of directories with a slash behind
each, and there is nothing after it. -/
structure IsDirectory (base : Url) (names : List Text) : Prop where
  path : base.path = '/' :: names.flatMap (· ++ ['/'])
  query : base.query = []
  fragment : base.fragment = []
  named : ∀ name ∈ names, name ≠ [] ∧ '/' ∉ name
  dotless : ∀ name ∈ names, name ≠ ['.'] ∧ name ≠ ['.', '.']

/-- The code points of the letters and digits of ASCII. -/
theorem code_of_isAlphanum {c : Char} (alphanumeric : c.isAlphanum = true) :
    (48 ≤ c.toNat ∧ c.toNat ≤ 57) ∨ (65 ≤ c.toNat ∧ c.toNat ≤ 90) ∨ (97 ≤ c.toNat ∧ c.toNat ≤ 122) := by
  change (decide (c.val ≥ 65 ∧ c.val ≤ 90) || (decide (c.val ≥ 97) && decide (c.val ≤ 122)) ||
    (decide (c.val ≥ 48) && decide (c.val ≤ 57))) = true at alphanumeric
  simp only [Bool.or_eq_true, Bool.and_eq_true, decide_eq_true_eq, ge_iff_le,
    UInt32.le_iff_toNat_le] at alphanumeric
  rcases alphanumeric with (upper | lower) | digit
  · exact .inr (.inl upper)
  · exact .inr (.inr lower)
  · exact .inl digit

/-- What is neither a letter nor a digit, nor one of the marks, is in no text made of these. -/
theorem clear_of_marks {c : Char} {marks text : Text}
    (made : ∀ c ∈ text, c.isAlphanum = true ∨ c ∈ marks)
    (other : c.isAlphanum = false ∧ c ∉ marks) : c ∉ text := by
  intro member
  rcases made c member with alphanumeric | mark
  · rw [other.1] at alphanumeric
    cases alphanumeric
  · exact other.2 mark

section Reading
variable {name text : Text} {query : Option Text}

theorem clean_eq_self (visible : ∀ c ∈ text, 32 < c.toNat) :
    (text.dropWhile isMargin).filter (fun c => !isDropped c) = text := by
  have kept : ∀ c ∈ text, isMargin c = false ∧ (!isDropped c) = true := by
    intro c member
    have above := visible c member
    constructor
    · exact decide_eq_false (by omega)
    · simp only [isDropped, Bool.not_eq_true', Bool.or_eq_false_iff, beq_eq_false_iff_ne, ne_eq]
      refine ⟨⟨?_, ?_⟩, ?_⟩ <;> rintro rfl <;> exact absurd above (by decide)
  have begins : text.dropWhile isMargin = text := by
    apply List.dropWhile_eq_self_iff.mpr
    intro filled margin
    rw [(kept _ (List.getElem_mem filled)).1] at margin
    cases margin
  rw [begins]
  exact List.filter_eq_self.mpr fun c member => (kept c member).2

/-- What stands in front of the first colon is no scheme where it holds a question mark. -/
theorem readScheme_of_noScheme (noScheme : ':' ∉ name) :
    readScheme (name ++ Text.behind '?' query) = none := by
  cases query with
  | none =>
    have cut : Text.cutAt ':' (name ++ Text.behind '?' none) = (name, none) :=
      Text.cutAt_eq_iff.mpr ⟨noScheme, rfl⟩
    rw [readScheme, cut]
    cases name <;> rfl
  | some query =>
    cases cut : Text.cutAt ':' (name ++ '?' :: query) with
    | mk front after =>
      rw [readScheme, Text.behind_some, cut]
      cases after with
      | none => cases front <;> rfl
      | some after =>
        obtain ⟨clear, whole⟩ := Text.cutAt_eq_iff.mp cut
        have marked : '?' ∈ front := by
          rcases List.append_eq_append_iff.mp whole with ⟨more, rfl, rest⟩ | ⟨more, rfl, rest⟩
          · cases more with
            | nil => cases rest
            | cons c more =>
              obtain ⟨rfl, -⟩ := List.cons.inj rest
              simp
          · cases more with
            | nil => cases rest
            | cons c more =>
              obtain ⟨rfl, -⟩ := List.cons.inj rest
              exact absurd (List.mem_append_right front List.mem_cons_self) noScheme
        cases front with
        | nil => rfl
        | cons first front =>
          have refused : (isLetter first && front.all isSchemeChar) = false := by
            rcases List.mem_cons.mp marked with rfl | member
            · rfl
            · have no : front.all isSchemeChar = false := List.all_eq_false.mpr ⟨_, member, by decide⟩
              rw [no, Bool.and_false]
          simp only [refused, Bool.false_eq_true, ↓reduceIte]

theorem readAuthority_of_noSlash (noSlash : '/' ∉ name) :
    readAuthority (name ++ Text.behind '?' query) = ([], name ++ Text.behind '?' query) := by
  unfold readAuthority
  split
  · rename_i rest whole
    cases name with
    | nil => cases query <;> cases whole
    | cons c name =>
      obtain ⟨rfl, -⟩ := List.cons.inj whole
      exact absurd List.mem_cons_self noSlash
  · rfl

/-- A plain reference is read as its name and its query. -/
theorem Plain.read (plain : Plain name query) (scheme : Text) :
    read scheme (name ++ Text.behind '?' query) = .ok ⟨scheme, [], name, query.getD [], []⟩ := by
  have whole : Text.cutAt '#' (name ++ Text.behind '?' query) = (name ++ Text.behind '?' query, none) :=
    Text.cutAt_eq_iff.mpr ⟨plain.noFragment, (List.append_nil _).symm⟩
  have split : Text.cutAt '?' (name ++ Text.behind '?' query) = (name, query) :=
    Text.cutAt_behind plain.noQuery
  unfold Url.read
  simp only [clean_eq_self plain.visible, readScheme_of_noScheme plain.noScheme, Option.getD_none,
    readAuthority_of_noSlash plain.noSlash, whole, split]
  rfl

end Reading

section Joining
variable {base : Url} {name : Text} {names segments : List Text} {query : Option Text}

/-- Segments none of which is made of dots alone stay as they are. -/
theorem resolveDots_eq_self (dotless : ∀ segment ∈ segments, segment ≠ ['.'] ∧ segment ≠ ['.', '.']) :
    resolveDots segments = segments := by
  have walk : ∀ kept : List Text, segments.foldl
      (fun kept segment =>
        if segment = ['.', '.'] then kept.dropLast
        else if segment = ['.'] then kept
        else kept ++ [segment]) kept = kept ++ segments := by
    induction segments with
    | nil => exact fun kept => (List.append_nil kept).symm
    | cons segment segments ih =>
      obtain ⟨⟨single, double⟩, later⟩ := List.forall_mem_cons.mp dotless
      intro kept
      rw [List.foldl_cons, if_neg double, if_neg single, ih later, List.append_assoc,
        List.singleton_append]
  exact walk []

theorem cutParameters_of_segment (noSlash : '/' ∉ name) (noParameters : ';' ∉ name) :
    cutParameters name = (name, []) := by
  have segment : (name.reverse.takeWhile (· ≠ '/')).reverse = name := by
    rw [List.takeWhile_eq_self_iff.mpr, List.reverse_reverse]
    intro c member
    have other : c ≠ '/' := fun same => noSlash (same ▸ List.mem_reverse.mp member)
    exact decide_eq_true other
  have cut : Text.cutAt ';' name = (name, none) :=
    Text.cutAt_eq_iff.mpr ⟨noParameters, (List.append_nil name).symm⟩
  unfold cutParameters
  simp only [segment, cut, Nat.sub_self, List.take_zero, List.nil_append, Option.getD_none]

/-- The parameters of a directory's path would stand behind its last slash. -/
theorem cutParameters_of_directory (front : Text) : cutParameters (front ++ ['/']) = (front ++ ['/'], []) := by
  have segment : ((front ++ ['/']).reverse.takeWhile (· ≠ '/')).reverse = [] := by simp
  have all : (front ++ ['/']).take ((front ++ ['/']).length - 0) = front ++ ['/'] := List.take_length
  unfold cutParameters
  simp only [segment, Text.cutAt, List.length_nil, List.append_nil, Option.getD_none, all]

theorem IsDirectory.slashed (directed : base.IsDirectory names) : ∃ front, base.path = front ++ ['/'] := by
  rw [directed.path]
  rcases List.eq_nil_or_concat names with rfl | ⟨front, last, rfl⟩
  · exact ⟨[], rfl⟩
  · exact ⟨'/' :: (front.flatMap (· ++ ['/']) ++ last), by simp⟩

theorem IsDirectory.fields (directed : base.IsDirectory names) :
    directory base.path = [] :: names ++ [[]] := by
  have fields : Text.splitOn '/' base.path = ([] :: names) ++ [[]] := by
    have clear : ∀ field ∈ [] :: names, '/' ∉ field :=
      List.forall_mem_cons.mpr ⟨List.not_mem_nil, fun field listed => (directed.named field listed).2⟩
    rw [directed.path, ← Text.splitOn_flatMap clear List.not_mem_nil]
    simp
  have ended : ([] :: names ++ [[]]).getLastD [] = ([] : Text) := List.getLastD_concat ..
  unfold directory
  simp only [fields, ended, ↓reduceIte]

/-- The path of a name in a directory is the path of the directory and the name. -/
theorem IsDirectory.joinPath (directed : base.IsDirectory names) (named : name ≠ []) (noSlash : '/' ∉ name)
    (dotless : name ≠ ['.'] ∧ name ≠ ['.', '.']) : joinPath base.path name = base.path ++ name := by
  have relative : name.head? ≠ some '/' := fun first => noSlash (List.mem_of_mem_head? first)
  have inner : (names ++ [[]]).filter (fun piece => !piece.isEmpty) = names := by
    rw [List.filter_append, List.filter_eq_self.mpr]
    · simp
    · intro piece listed
      simp [(directed.named piece listed).1]
  have segments : Text.dropEmptyInner (directory base.path ++ Text.splitOn '/' name) =
      [] :: names ++ [name] := by
    rw [directed.fields, Text.splitOn_of_clear noSlash]
    exact (Text.dropEmptyInner_concat [] (names ++ [[]]) name).trans (by rw [inner])
  have kept : resolveDots ([] :: names ++ [name]) = [] :: names ++ [name] := by
    apply resolveDots_eq_self
    intro segment listed
    simp only [List.cons_append, List.mem_cons, List.mem_append, List.not_mem_nil, or_false] at listed
    rcases listed with rfl | earlier | rfl
    · exact ⟨by decide, by decide⟩
    · exact directed.dotless segment earlier
    · exact dotless
  have last : ([] :: names ++ [name]).getLastD [] = name := List.getLastD_concat ..
  unfold Url.joinPath
  simp only [relative, ↓reduceIte, segments, last, kept, dotless, decide_false, Bool.or_self,
    Bool.false_eq_true, List.append_nil, Text.joinWith_concat]
  rw [directed.path]
  simp

/-- A directory is written as its path behind the authority. -/
theorem IsDirectory.write (directed : base.IsDirectory names) :
    base.write = base.scheme ++ "://".toList ++ base.authority ++ base.path := by
  have rooted : base.path.head? = some '/' := by rw [directed.path, List.head?_cons]
  unfold Url.write
  simp [rooted, directed.query, directed.fragment]

/-- A plain reference on the page of a directory denotes what is written when it is put behind
the address of the directory. A question mark with nothing behind it would be lost. -/
theorem IsDirectory.join (directed : base.IsDirectory names) (plain : Plain name query) (named : name ≠ [])
    (dotless : name ≠ ['.'] ∧ name ≠ ['.', '.']) (noParameters : ';' ∉ name) (asked : query ≠ some []) :
    join base (name ++ Text.behind '?' query) = .ok (base.write ++ name ++ Text.behind '?' query) := by
  have filled : (name ++ Text.behind '?' query).isEmpty = false := by
    simp [List.isEmpty_eq_false_iff, named]
  have base' : cutParameters base.path = (base.path, []) := by
    obtain ⟨front, slashed⟩ := directed.slashed
    rw [slashed]
    exact cutParameters_of_directory front
  have joined : joinUrl base ⟨base.scheme, [], name, query.getD [], []⟩ =
      { base with path := base.path ++ name, query := query.getD [] } := by
    unfold joinUrl
    simp [cutParameters_of_segment plain.noSlash noParameters, named, base', withParameters,
      directed.joinPath named plain.noSlash dotless, directed.fragment]
  have rooted : (base.path ++ name).head? = some '/' := by simp [directed.path]
  unfold Url.join
  simp only [filled, Bool.false_eq_true, ↓reduceIte, plain.read, joined]
  rw [directed.write]
  unfold Url.write
  cases query with
  | none => simp [rooted, directed.fragment]
  | some query =>
    have asked' : query ≠ [] := fun none => asked (none ▸ rfl)
    simp [rooted, directed.fragment, asked']

end Joining
end Regen.Url
