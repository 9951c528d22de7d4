import Mathlib.Data.List.Basic
import Regen.Builtin.Badge
import Regen.Proofs.QueryFields

/-! Badges of workflows. A value is cut at its bar, its first two slashes and the question
mark behind them, and the two addresses of the badge are put together from the pieces. What
is missing is noticed but for one thing: a query in the place of the file name. -/
namespace Regen.Badge

open Url.Query (FirstValue)

/-- A letter or digit of ASCII, or a mark that references are written with. -/
def IsReferenceChar (c : Char) : Prop :=
  c.isAlphanum = true ∨ c ∈ ['.', '_', '/', '?', '=', '&', '-']

/-- The parts of a value that has two slashes, each of which may be empty. The query is what
is behind the first question mark after the slashes. -/
structure Written (value owner repo file : Text) (query : Option Text) : Prop where
  whole : value = owner ++ '/' :: repo ++ '/' :: (file ++ Text.behind '?' query)
  owner : '/' ∉ owner
  repo : '/' ∉ repo
  file : '?' ∉ file

/-- A character of a branch as the query of a link has it. -/
def escaped (c : Char) : Text :=
  if c = '/' then "%2F".toList
  else if c = '?' then "%3F".toList
  else if c = '=' then "%3D".toList
  else [c]

/-- The page of a workflow. -/
def workflowPage (owner repo file : Text) : Text :=
  "https://github.com/".toList ++ owner ++ '/' :: repo ++ "/actions/workflows/".toList ++ file

/-- A link to a page, for the first branch that a query gives if it gives one. -/
structure LinksTo (page query link : Text) : Prop where
  filtered : ∀ branch, FirstValue "branch".toList (Text.splitOn '&' query) branch →
    link = page ++ "?query=branch%3A".toList ++ branch.flatMap escaped
  bare : (∀ branch, ¬FirstValue "branch".toList (Text.splitOn '&' query) branch) → link = page

section Characters
variable {c : Char} {query branch : Text}

theorem IsReferenceChar.code (refers : IsReferenceChar c) : 32 < c.toNat ∧ c.toNat < 128 := by
  rcases refers with alphanumeric | mark
  · have code := Url.code_of_isAlphanum alphanumeric
    omega
  · simp only [List.mem_cons, List.not_mem_nil, or_false] at mark
    rcases mark with rfl | rfl | rfl | rfl | rfl | rfl | rfl <;> decide

theorem clear_of_refers {value : Text} (refers : ∀ c ∈ value, IsReferenceChar c)
    (other : c.isAlphanum = false ∧ c ∉ ['.', '_', '/', '?', '=', '&', '-']) : c ∉ value :=
  Url.clear_of_marks refers other

theorem literal_of_refers (refers : ∀ c ∈ query, IsReferenceChar c) : Url.Query.Literal query := by
  intro c member
  refine ⟨(refers c member).code.2, ?_, ?_⟩
  · rintro rfl
    exact clear_of_refers refers (by decide) member
  · rintro rfl
    exact clear_of_refers refers (by decide) member

theorem isUnreserved_of_isAlphanum (alphanumeric : c.isAlphanum = true) :
    Url.Query.isUnreserved c = true := by
  have letterOrDigit : Url.isLetter c = true ∨ Text.isAsciiDigit c = true := by
    simp only [Url.isLetter, Text.isAsciiDigit, Bool.or_eq_true, Bool.and_eq_true, decide_eq_true_eq,
      Char.le_def, UInt32.le_iff_toNat_le]
    rcases Url.code_of_isAlphanum alphanumeric with digit | upper | lower
    · exact .inr digit
    · exact .inl (.inr upper)
    · exact .inl (.inl lower)
  rcases letterOrDigit with letter | digit
  · simp [Url.Query.isUnreserved, letter]
  · simp [Url.Query.isUnreserved, digit]

theorem encodeChar_of_refers (refers : IsReferenceChar c) (inside : c ≠ '&') :
    Url.Query.encodeChar c = escaped c := by
  rcases refers with alphanumeric | mark
  · have other : ∀ d : Char, d.isAlphanum = false → c ≠ d := by
      rintro d none rfl
      rw [none] at alphanumeric
      cases alphanumeric
    rw [Url.Query.encodeChar, if_neg (other ' ' rfl), if_pos (isUnreserved_of_isAlphanum alphanumeric),
      escaped, if_neg (other '/' rfl), if_neg (other '?' rfl), if_neg (other '=' rfl)]
  · simp only [List.mem_cons, List.not_mem_nil, or_false, inside, false_or] at mark
    rcases mark with rfl | rfl | rfl | rfl | rfl | rfl <;> decide +kernel

/-- The filter for a branch, as the query of the link has it. -/
theorem encode_of_refers (refers : ∀ c ∈ branch, IsReferenceChar c) (inside : '&' ∉ branch) :
    Url.Query.encode ("branch:".toList ++ branch) = "branch%3A".toList ++ branch.flatMap escaped := by
  have front : "branch:".toList.flatMap Url.Query.encodeChar = "branch%3A".toList := by decide +kernel
  have each : branch.flatMap Url.Query.encodeChar = branch.flatMap escaped :=
    List.flatMap_congr fun c member =>
      encodeChar_of_refers (refers c member) fun same => inside (same ▸ member)
  rw [Url.Query.encode, List.flatMap_append, front, each]

end Characters

section Workflow
variable {value owner repo file third query : Text}

theorem workflowParts?_eq_some_iff : workflowParts? value = some (owner, repo, third) ↔
    value = owner ++ '/' :: repo ++ '/' :: third ∧ '/' ∉ owner ∧ '/' ∉ repo ∧
      owner ≠ [] ∧ repo ≠ [] ∧ third ≠ [] := by
  constructor
  · intro found
    unfold workflowParts? at found
    split at found
    · cases found
    · rename_i first rest cut
      split at found
      · cases found
      · rename_i second last cut'
        simp only [Option.ite_none_left_eq_some, Bool.or_eq_true, List.isEmpty_iff, not_or,
          Option.some.injEq, Prod.mk.injEq] at found
        obtain ⟨⟨⟨owned, named⟩, filled⟩, rfl, rfl, rfl⟩ := found
        obtain ⟨clear, rfl⟩ := Text.cutAt_eq_iff.mp cut
        obtain ⟨clear', rfl⟩ := Text.cutAt_eq_iff.mp cut'
        refine ⟨by simp, clear, clear', owned, named, filled⟩
  · rintro ⟨rfl, clear, clear', owned, named, filled⟩
    have cut : Text.cutAt '/' (owner ++ '/' :: repo ++ '/' :: third) = (owner, some (repo ++ '/' :: third)) :=
      Text.cutAt_eq_iff.mpr ⟨clear, by simp⟩
    have cut' : Text.cutAt '/' (repo ++ '/' :: third) = (repo, some third) :=
      Text.cutAt_eq_iff.mpr ⟨clear', rfl⟩
    rw [workflowParts?, cut]
    simp [cut', owned, named, filled]

/-- A value is cut into its parts in one way. -/
theorem Written.unique {query query' : Option Text} {owner' repo' file' : Text}
    (written : Written value owner repo file query) (written' : Written value owner' repo' file' query') :
    owner = owner' ∧ repo = repo' ∧ file = file' ∧ query = query' := by
  have cut {owner repo file query} (written : Written value owner repo file query) :
      Text.cutAt '/' value = (owner, some (repo ++ '/' :: (file ++ Text.behind '?' query))) :=
    Text.cutAt_eq_iff.mpr ⟨written.owner, by rw [written.whole]; simp⟩
  obtain ⟨rfl, rest⟩ := Prod.mk.inj ((cut written).symm.trans (cut written'))
  have second {repo file query} (written : Written value owner repo file query) :
      Text.cutAt '/' (repo ++ '/' :: (file ++ Text.behind '?' query)) =
        (repo, some (file ++ Text.behind '?' query)) :=
    Text.cutAt_eq_iff.mpr ⟨written.repo, rfl⟩
  have same := second written
  rw [Option.some.inj rest, second written'] at same
  obtain ⟨rfl, third⟩ := Prod.mk.inj same
  have last : Text.cutAt '?' (file ++ Text.behind '?' query) = (file, query) :=
    Text.cutAt_behind written.file
  rw [← Option.some.inj third, Text.cutAt_behind written'.file] at last
  obtain ⟨rfl, rfl⟩ := Prod.mk.inj last
  exact ⟨rfl, rfl, rfl, rfl⟩

/-- A value whose parts are there has a third part: a file name, or a query in its place. -/
theorem Written.workflowParts? {query : Option Text} (written : Written value owner repo file query)
    (owned : owner ≠ []) (named : repo ≠ []) (filled : ¬(file = [] ∧ query = none)) :
    workflowParts? value = some (owner, repo, file ++ Text.behind '?' query) := by
  refine workflowParts?_eq_some_iff.mpr
    ⟨written.whole, written.owner, written.repo, owned, named, fun empty => filled ?_⟩
  obtain ⟨none, behind⟩ := List.append_eq_nil_iff.mp empty
  cases query with
  | none => exact ⟨none, rfl⟩
  | some query => cases behind

/-- The parts are missed where there are no two slashes, or nothing before, between or behind
them. -/
theorem workflowParts?_eq_none_iff : workflowParts? value = none ↔
    ∀ owner repo file query, Written value owner repo file query →
      owner = [] ∨ repo = [] ∨ (file = [] ∧ query = none) := by
  constructor
  · intro missed owner repo file query written
    by_contra there
    simp only [not_or] at there
    rw [written.workflowParts? there.1 there.2.1 there.2.2] at missed
    cases missed
  · intro missing
    apply Option.eq_none_iff_forall_ne_some.mpr
    rintro ⟨owner, repo, third⟩ found
    obtain ⟨whole, clear, clear', owned, named, filled⟩ := workflowParts?_eq_some_iff.mp found
    cases cut : Text.cutAt '?' third with
    | mk file query =>
      obtain ⟨inside, rfl⟩ := Text.cutAt_eq_iff.mp cut
      rcases missing owner repo file query ⟨whole, clear, clear', inside⟩ with empty | empty | ⟨rfl, rfl⟩
      · exact owned empty
      · exact named empty
      · exact filled rfl

theorem plain_of_refers {query : Option Text} (refers : ∀ c ∈ file ++ Text.behind '?' query, IsReferenceChar c)
    (noQuery : '?' ∉ file) (flat : '/' ∉ file) : Url.Plain file query where
  visible c member := (refers c member).code.1
  noFragment := clear_of_refers refers (by decide)
  noQuery := noQuery
  noScheme := clear_of_refers (fun c member => refers c (List.mem_append_left _ member)) (by decide)
  noSlash := flat

/-- The page of a workflow's runs is a link for the first branch that the query gives. -/
theorem linksTo_runsPage (refers : ∀ c ∈ query, IsReferenceChar c) (owner repo file : Text) :
    LinksTo (workflowPage owner repo file) query (runsPage owner repo ⟨[], [], file, query, []⟩) := by
  have found {branch : Text} : (Url.Query.fields query).lookup "branch".toList = some branch ↔
      FirstValue "branch".toList (Text.splitOn '&' query) branch :=
    Url.Query.lookup_fields_iff (by decide) (literal_of_refers refers)
  constructor
  · intro branch first
    have listed : ∀ c ∈ branch, c ∈ query ∧ (c == '&') = false := by
      intro c member
      obtain ⟨field, listed, inside⟩ := first.mem
      exact Text.inside_of_field listed (inside member)
    have encoded := encode_of_refers (fun c member => refers c (listed c member).1)
      (fun member => by simpa using (listed '&' member).2)
    have asked : runsQuery query = "query=branch%3A".toList ++ branch.flatMap escaped := by
      unfold runsQuery
      rw [found.mpr first]
      simp only [encoded]
      rfl
    unfold runsPage Url.write workflowPage
    simp [asked]
  · intro none
    have asked : runsQuery query = [] := by
      unfold runsQuery
      cases given : (Url.Query.fields query).lookup "branch".toList with
      | none => rfl
      | some branch => exact absurd (found.mp given) (none branch)
    unfold runsPage Url.write workflowPage
    simp [asked]

/-- A badge is made for parts that are there. -/
theorem workflow_of_written {query : Option Text} (refers : ∀ c ∈ value, IsReferenceChar c)
    (alt : Option Text) (written : Written value owner repo file query) (flat : '/' ∉ file) (owned : owner ≠ [])
    (named : repo ≠ []) (filled : ¬(file = [] ∧ query = none)) :
    workflow (value ++ Text.behind '|' alt) =
      .ok (markdown (alt.getD "Build Status".toList)
        ("https://img.shields.io/github/actions/workflow/status/".toList ++ value)
        (runsPage owner repo ⟨[], [], file, query.getD [], []⟩)) := by
  have cut : Text.cutAt '|' (value ++ Text.behind '|' alt) = (value, alt) :=
    Text.cutAt_behind (clear_of_refers refers (by decide))
  have inside : ∀ c ∈ file ++ Text.behind '?' query, IsReferenceChar c := by
    intro c member
    apply refers
    rw [written.whole]
    exact List.mem_append_right _ (List.mem_cons_of_mem _ member)
  have read := (plain_of_refers inside written.file flat).read []
  have image : workflowImages ++ owner ++ '/' :: repo ++ '/' :: (file ++ Text.behind '?' query) =
      "https://img.shields.io/github/actions/workflow/status/".toList ++ value := by
    rw [written.whole]
    unfold workflowImages
    simp only [List.append_assoc, List.cons_append]
  unfold workflow cutAlt
  simp only [cut, written.workflowParts? owned named filled, read, image]

theorem workflow_of_missed {alt : Option Text} (refers : ∀ c ∈ value, IsReferenceChar c)
    (missed : workflowParts? value = none) :
    workflow (value ++ Text.behind '|' alt) = .error (.noWorkflow value) := by
  have cut : Text.cutAt '|' (value ++ Text.behind '|' alt) = (value, alt) :=
    Text.cutAt_behind (clear_of_refers refers (by decide))
  unfold workflow cutAlt
  simp only [cut, missed]

end Workflow

/-- Whatever characters of references a value is made of, provided that no slash stands in its
file name, it is refused exactly when it has no two slashes, or nothing before, between or
behind them. A file name that is missing is overlooked where a query stands behind the slashes
all the same. Otherwise the image is the one for the value as it stands, and the link is to the
page of the workflow, with the first branch that the query gives as a filter. -/
theorem workflow_of_parts {value : Text} {alt : Option Text} (refers : ∀ c ∈ value, IsReferenceChar c)
    (flat : ∀ owner repo file query, Written value owner repo file query → '/' ∉ file) :
    (workflow (value ++ Text.behind '|' alt) = .error (.noWorkflow value) ↔
      ∀ owner repo file query, Written value owner repo file query →
        owner = [] ∨ repo = [] ∨ (file = [] ∧ query = none)) ∧
    ∀ owner repo file query, Written value owner repo file query →
      owner ≠ [] → repo ≠ [] → ¬(file = [] ∧ query = none) →
      ∃ link, LinksTo (workflowPage owner repo file) (query.getD []) link ∧
        workflow (value ++ Text.behind '|' alt) =
          .ok (markdown (alt.getD "Build Status".toList)
            ("https://img.shields.io/github/actions/workflow/status/".toList ++ value) link) := by
  constructor
  · rw [← workflowParts?_eq_none_iff]
    constructor
    · intro refused
      apply workflowParts?_eq_none_iff.mpr
      intro owner repo file query written
      by_contra there
      simp only [not_or] at there
      have made := workflow_of_written refers alt written (flat owner repo file query written)
        there.1 there.2.1 there.2.2
      rw [refused] at made
      cases made
    · exact workflow_of_missed refers
  · intro owner repo file query written owned named filled
    have asked : ∀ c ∈ query.getD [], IsReferenceChar c := by
      intro c member
      cases query with
      | none => cases member
      | some query =>
        apply refers
        rw [written.whole]
        simp only [Text.behind_some, List.mem_append, List.mem_cons]
        exact .inr (.inr (.inr (.inr member)))
    have made := workflow_of_written refers alt written (flat owner repo file query written)
      owned named filled
    exact ⟨_, linksTo_runsPage asked owner repo file, made⟩

def branchedValue : Text := "me/app/ci.yaml?branch=&x=1&branch=a/b&branch=dev".toList

theorem written_branchedValue : Written branchedValue "me".toList "app".toList "ci.yaml".toList
    (some "branch=&x=1&branch=a/b&branch=dev".toList) :=
  ⟨rfl, by decide, by decide, by decide⟩

/-- The first branch of the query is blank and the second one counts. -/
theorem workflow_of_parts_branch :
    FirstValue "branch".toList (Text.splitOn '&' "branch=&x=1&branch=a/b&branch=dev".toList) "a/b".toList ∧
    workflow (branchedValue ++ "|CI".toList) =
      .ok ("[![CI](https://img.shields.io/github/actions/workflow/status/".toList ++ branchedValue ++
        ")](https://github.com/me/app/actions/workflows/ci.yaml?query=branch%3Aa%2Fb)".toList) := by
  have reads {text : Text} (all : text.all (fun c => c.isAlphanum || "._/?=&-".toList.contains c) = true)
      (c : Char) (member : c ∈ text) : IsReferenceChar c := by
    simpa [IsReferenceChar] using List.all_eq_true.mp all c member
  have refers : ∀ c ∈ branchedValue, IsReferenceChar c := reads (by decide)
  have asked : ∀ c ∈ "branch=&x=1&branch=a/b&branch=dev".toList, IsReferenceChar c :=
    reads (by decide)
  have flat : ∀ owner repo file query, Written branchedValue owner repo file query → '/' ∉ file := by
    intro owner repo file query written
    obtain ⟨-, -, rfl, -⟩ := written_branchedValue.unique written
    decide
  have first : FirstValue "branch".toList
      (Text.splitOn '&' "branch=&x=1&branch=a/b&branch=dev".toList) "a/b".toList :=
    (Url.Query.lookup_fields_iff (by decide) (literal_of_refers asked)).mp (by decide +kernel)
  obtain ⟨link, links, made⟩ := (@workflow_of_parts _ (some "CI".toList) refers flat).2 _ _ _ _
    written_branchedValue (by decide) (by decide) (by decide)
  refine ⟨first, made.trans ?_⟩
  rw [links.filtered _ first]
  exact congrArg Except.ok (by decide +kernel)

/-- A query in the place of the file name is taken for one, and the link leads to no workflow. -/
theorem workflow_of_query_alone :
    Written "me/app/?branch=main".toList "me".toList "app".toList [] (some "branch=main".toList) ∧
    workflow "me/app/?branch=main".toList =
      .ok ("[![Build Status]".toList ++
        "(https://img.shields.io/github/actions/workflow/status/me/app/?branch=main)]".toList ++
        "(https://github.com/me/app/actions/workflows/?query=branch%3Amain)".toList) :=
  ⟨⟨rfl, by decide, by decide, by decide⟩, by decide +kernel⟩

end Regen.Badge
