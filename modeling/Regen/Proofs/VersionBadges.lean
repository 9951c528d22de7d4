import Regen.Builtin.Badge
import Regen.Proofs.PlainReferences

/-! Badges of versions. A name of a package is on one line with the addresses it is put into:
whatever query is behind it, it is read as the path, and the address of the image is spelled
by the page of the images, the name and the query. -/
namespace Regen.Badge

/-- A letter or digit of ASCII, and more of these, dots, underscores and dashes behind it. -/
inductive IsPackageName : Text → Prop
  | mk {first : Char} {rest : Text} : first.isAlphanum = true →
    (∀ c ∈ rest, c.isAlphanum = true ∨ c ∈ ['.', '_', '-']) → IsPackageName (first :: rest)

/-- Visible characters of ASCII, at least one, but neither a number sign nor a bar. -/
structure IsImageQuery (query : Text) : Prop where
  filled : query ≠ []
  visible : ∀ c ∈ query, 32 < c.toNat ∧ c.toNat < 127
  inside : '#' ∉ query ∧ '|' ∉ query

section Named
variable {name : Text} {query : Option Text}

theorem IsPackageName.clear {c : Char} (named : IsPackageName name)
    (other : c.isAlphanum = false ∧ c ∉ ['.', '_', '-']) : c ∉ name := by
  cases named with
  | mk first rest =>
    exact Url.clear_of_marks (List.forall_mem_cons.mpr ⟨.inl first, rest⟩) other

theorem IsPackageName.visible (named : IsPackageName name) : ∀ c ∈ name, 32 < c.toNat := by
  have alphanumeric : ∀ c : Char, c.isAlphanum = true → 32 < c.toNat := by
    intro c holds
    have code := Url.code_of_isAlphanum holds
    omega
  cases named with
  | mk first rest =>
    refine List.forall_mem_cons.mpr ⟨alphanumeric _ first, fun c member => ?_⟩
    rcases rest c member with holds | mark
    · exact alphanumeric c holds
    · simp only [List.mem_cons, List.not_mem_nil, or_false] at mark
      rcases mark with rfl | rfl | rfl <;> decide

/-- A name is no segment made of dots, as it begins with none. -/
theorem IsPackageName.dotless (named : IsPackageName name) : name ≠ ['.'] ∧ name ≠ ['.', '.'] := by
  cases named with
  | mk first rest =>
    constructor <;> intro dots <;> obtain ⟨rfl, -⟩ := List.cons.inj dots <;> cases first

theorem IsPackageName.plain (named : IsPackageName name) (asked : ∀ text ∈ query, IsImageQuery text) :
    Url.Plain name query where
  visible c member := by
    rcases List.mem_append.mp member with member | member
    · exact named.visible c member
    · cases query with
      | none => cases member
      | some query =>
        rcases List.mem_cons.mp member with rfl | member
        · decide
        · exact ((asked query rfl).visible c member).1
  noFragment := by
    have name' : '#' ∉ name := named.clear (by decide)
    cases query with
    | none => simpa using name'
    | some query => simpa [name'] using (asked query rfl).inside.1
  noQuery := named.clear (by decide)
  noScheme := named.clear (by decide)
  noSlash := named.clear (by decide)

end Named

theorem isDirectory_versionImages : versionImages.IsDirectory ["pypi".toList, "v".toList] where
  path := rfl
  query := rfl
  fragment := rfl
  named := by decide
  dotless := by decide

/-- For every name of a package, with or without a query for the image behind it, whatever
characters the query is made of, the reference is put behind the page of the images as it
stands, and is cut at its first question mark. So the badge shows the image for the name and
the query, links to the page of the package, and has the alternative text that a bar announces. -/
theorem version_of_package {name : Text} {query alt : Option Text} (named : IsPackageName name)
    (asked : ∀ text ∈ query, IsImageQuery text) :
    Url.join versionImages (name ++ Text.behind '?' query) =
      .ok ("https://img.shields.io/pypi/v/".toList ++ name ++ Text.behind '?' query) ∧
    Url.read [] (name ++ Text.behind '?' query) = .ok ⟨[], [], name, query.getD [], []⟩ ∧
    version (name ++ Text.behind '?' query ++ Text.behind '|' alt) =
      .ok (markdown (alt.getD "PyPI Version".toList)
        ("https://img.shields.io/pypi/v/".toList ++ name ++ Text.behind '?' query)
        ("https://pypi.org/project/".toList ++ name ++ ['/'])) := by
  have plain := named.plain asked
  have filled : name ≠ [] := by
    cases named
    exact List.cons_ne_nil _ _
  have queried : query ≠ some [] := fun empty => (asked [] empty).filled rfl
  have joined : Url.join versionImages (name ++ Text.behind '?' query) =
      .ok ("https://img.shields.io/pypi/v/".toList ++ name ++ Text.behind '?' query) :=
    isDirectory_versionImages.join plain filled named.dotless (named.clear (by decide)) queried
  have read := plain.read []
  have barless : '|' ∉ name ++ Text.behind '?' query := by
    have name' : '|' ∉ name := named.clear (by decide)
    cases query with
    | none => simpa using name'
    | some query => simpa [name'] using (asked query rfl).inside.2
  refine ⟨joined, read, ?_⟩
  unfold version cutAlt
  simp only [Text.cutAt_behind barless, joined, read]
  rfl

/-- A query full of marks that have a meaning elsewhere, and an empty alternative text. -/
theorem version_of_package_marks : IsPackageName "a.b-".toList ∧ IsImageQuery "x:y//[?z;".toList ∧
    version "a.b-?x:y//[?z;|".toList =
      .ok "[![](https://img.shields.io/pypi/v/a.b-?x:y//[?z;)](https://pypi.org/project/a.b-/)".toList := by
  have marked : ".b-".toList.all (fun c => c.isAlphanum || "._-".toList.contains c) = true := by decide
  have shown : "x:y//[?z;".toList.all (fun c => 32 < c.toNat && c.toNat < 127) = true := by decide
  have named : IsPackageName "a.b-".toList :=
    .mk (by decide) fun c member => by simpa using List.all_eq_true.mp marked c member
  have asked : IsImageQuery "x:y//[?z;".toList :=
    ⟨by decide, fun c member => by simpa using List.all_eq_true.mp shown c member, by decide⟩
  have made := (@version_of_package _ _ (some []) named
    (fun text given => Option.some.inj given ▸ asked : ∀ text ∈ some "x:y//[?z;".toList, IsImageQuery text)).2.2
  exact ⟨named, asked, made⟩

end Regen.Badge
