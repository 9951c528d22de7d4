import Regen.Proofs.BuiltinContents
import Regen.Proofs.Cuts
import Regen.Proofs.TrimmedVersions
import Regen.Proofs.WorkflowBadges

/-! Where the characters of badges and requirements come from. They are put together
from parts of the values they are asked for and from fixed texts, and what is encoded
for an address holds no less-than sign, so none is written that no value holds. -/
namespace Regen

namespace Text
variable {c separator : Char} {text piece rest : Text} {pieces : List Text}

theorem mem_of_cutAt_fst (member : c ∈ (cutAt separator text).1) : c ∈ text := by
  rw [← cutAt_restores separator text]
  exact List.mem_append_left _ member

theorem mem_of_cutAt_snd (cut : (cutAt separator text).2 = some rest) (member : c ∈ rest) :
    c ∈ text := by
  rw [← cutAt_restores separator text, cut]
  exact List.mem_append_right _ (List.mem_cons_of_mem _ member)

/-- What follows a separator, or nothing, or a standard text. -/
theorem mem_of_cutAt_getD {standard : Text} (member : c ∈ (cutAt separator text).2.getD standard) :
    c ∈ text ∨ c ∈ standard := by
  cases cut : (cutAt separator text).2 with
  | none => exact .inr (by simpa [cut] using member)
  | some rest => exact .inl (mem_of_cutAt_snd cut (by simpa [cut] using member))

theorem mem_of_getLastD (member : c ∈ pieces.getLastD []) : ∃ piece ∈ pieces, c ∈ piece := by
  cases pieces with
  | nil => cases member
  | cons first more =>
    have last : (first :: more).getLastD [] ∈ first :: more := by
      rw [List.getLastD_eq_getLast?, List.getLast?_eq_some_getLast (List.cons_ne_nil _ _)]
      exact List.getLast_mem _
    exact ⟨_, last, member⟩

theorem mem_of_dropEmptyInner (kept : piece ∈ dropEmptyInner pieces) (member : c ∈ piece) :
    ∃ piece ∈ pieces, c ∈ piece := by
  unfold dropEmptyInner at kept
  split at kept
  · cases kept
  · exact ⟨piece, kept, member⟩
  · rename_i first more _
    simp only [List.cons_append, List.mem_cons, List.mem_append, List.mem_filter,
      List.not_mem_nil, or_false] at kept
    rcases kept with rfl | ⟨inner, -⟩ | rfl
    · exact ⟨piece, List.mem_cons_self, member⟩
    · exact ⟨piece, List.mem_cons_of_mem _ (List.dropLast_subset _ inner), member⟩
    · obtain ⟨other, listed, inner⟩ := mem_of_getLastD member
      exact ⟨other, List.mem_cons_of_mem _ listed, inner⟩

theorem mem_of_strip (member : c ∈ strip text) : c ∈ text :=
  (List.dropWhile_suffix isBlank).mem (mem_of_trimEnd member)

end Text

namespace Url
variable {text base path reference : Text} {segments : List Text} {piece : Text}

/-- An address none of whose parts holds a less-than sign. -/
structure Unangled (url : Url) : Prop where
  scheme : '<' ∉ url.scheme
  authority : '<' ∉ url.authority
  path : '<' ∉ url.path
  query : '<' ∉ url.query
  fragment : '<' ∉ url.fragment

theorem toLower_eq_angle {c : Char} (lower : c.toLower = '<') : c = '<' := by
  unfold Char.toLower at lower
  split at lower
  · rename_i upper
    have least : 65 ≤ c.val.toNat := UInt32.le_iff_toNat_le.mp upper.1
    have most : c.val.toNat ≤ 90 := UInt32.le_iff_toNat_le.mp upper.2
    have code : (c.val.toNat + 32) % 4294967296 = 60 := congrArg (fun d : Char => d.val.toNat) lower
    omega
  · exact lower

theorem unangled_of_readScheme {scheme rest : Text} (noAngle : '<' ∉ text)
    (found : readScheme text = some (scheme, rest)) : '<' ∉ scheme ∧ '<' ∉ rest := by
  have first : '<' ∉ (Text.cutAt ':' text).1 := mt Text.mem_of_cutAt_fst noAngle
  unfold readScheme at found
  split at found
  · rename_i letter name after cut
    split at found
    · cases found
      rw [cut] at first
      constructor
      · intro member
        obtain ⟨c, known, lower⟩ := List.mem_map.mp member
        exact first (toLower_eq_angle lower ▸ known)
      · exact mt (Text.mem_of_cutAt_snd (by rw [cut])) noAngle
    · cases found
  · cases found

theorem unangled_of_readAuthority (noAngle : '<' ∉ text) :
    '<' ∉ (readAuthority text).1 ∧ '<' ∉ (readAuthority text).2 := by
  unfold readAuthority
  split
  · simp only [List.mem_cons, not_or] at noAngle
    exact ⟨mt (fun member => (List.takeWhile_sublist _).mem member) noAngle.2.2,
      mt (fun member => (List.dropWhile_sublist _).mem member) noAngle.2.2⟩
  · exact ⟨List.not_mem_nil, noAngle⟩

theorem unangled_of_read {scheme : Text} {url : Url} (noAngle : '<' ∉ text) (schemed : '<' ∉ scheme)
    (done : read scheme text = .ok url) : url.Unangled := by
  have cleaned : '<' ∉ (text.dropWhile isMargin).filter fun c => !isDropped c := by
    intro member
    exact noAngle ((List.dropWhile_sublist _).mem (List.mem_filter.mp member).1)
  unfold read at done
  dsimp only at done
  generalize (text.dropWhile isMargin).filter (fun c => !isDropped c) = clean at cleaned done
  have parts : '<' ∉ ((readScheme clean).getD (scheme, clean)).1 ∧
      '<' ∉ ((readScheme clean).getD (scheme, clean)).2 := by
    cases found : readScheme clean with
    | none => exact ⟨schemed, cleaned⟩
    | some pair => exact unangled_of_readScheme cleaned found
  obtain ⟨schemed', after⟩ := parts
  obtain ⟨authority, after⟩ := unangled_of_readAuthority after
  generalize (readAuthority ((readScheme clean).getD (scheme, clean)).2).2 = later at after done
  have address : '<' ∉ (Text.cutAt '#' later).1 := mt Text.mem_of_cutAt_fst after
  split at done
  · cases done
  · split at done
    · cases done
    · cases done
      refine ⟨schemed', authority, mt Text.mem_of_cutAt_fst address, ?_, ?_⟩
      · intro member
        rcases Text.mem_of_cutAt_getD member with query | none
        · exact address query
        · cases none
      · intro member
        rcases Text.mem_of_cutAt_getD member with fragment | none
        · exact after fragment
        · cases none

theorem Unangled.write {url : Url} (unangled : url.Unangled) : '<' ∉ url.write := by
  obtain ⟨scheme, authority, path, query, fragment⟩ := unangled
  unfold Url.write
  dsimp only
  simp only [List.mem_append, List.mem_cons, not_or]
  refine ⟨⟨⟨⟨scheme, by decide, by decide, by decide, authority⟩, ?_⟩, ?_⟩, ?_⟩
  · split
    · exact path
    · simpa using path
  · split
    · exact List.not_mem_nil
    · simpa using query
  · split
    · exact List.not_mem_nil
    · simpa using fragment

theorem mem_of_resolveDots (kept : piece ∈ resolveDots segments) : piece ∈ segments := by
  have walk : ∀ (more before : List Text),
      piece ∈ more.foldl (fun kept segment =>
        if segment = ['.', '.'] then kept.dropLast
        else if segment = ['.'] then kept
        else kept ++ [segment]) before → piece ∈ before ∨ piece ∈ more := by
    intro more
    induction more with
    | nil => exact fun before found => .inl found
    | cons segment more ih =>
      intro before found
      rcases ih _ found with earlier | later
      · dsimp only at earlier
        split at earlier
        · exact .inl (List.dropLast_subset _ earlier)
        · split at earlier
          · exact .inl earlier
          · rcases List.mem_append.mp earlier with old | new
            · exact .inl old
            · exact .inr (List.mem_cons.mpr (.inl (List.mem_singleton.mp new)))
      · exact .inr (List.mem_cons_of_mem _ later)
  rcases walk segments [] kept with none | found
  · cases none
  · exact found

theorem mem_of_directory {c : Char} (field : piece ∈ directory path) (member : c ∈ piece) : c ∈ path := by
  unfold directory at field
  dsimp only at field
  split at field
  · exact (Text.inside_of_field field member).1
  · exact (Text.inside_of_field (List.dropLast_subset _ field) member).1

theorem unangled_joinPath (noAngle : '<' ∉ base) (noAngle' : '<' ∉ path) : '<' ∉ joinPath base path := by
  have fields : ∀ piece ∈ (if path.head? = some '/' then Text.splitOn '/' path
      else Text.dropEmptyInner (directory base ++ Text.splitOn '/' path)), '<' ∉ piece := by
    intro piece listed member
    split at listed
    · exact noAngle' (Text.inside_of_field listed member).1
    · obtain ⟨other, listed, member⟩ := Text.mem_of_dropEmptyInner listed member
      rcases List.mem_append.mp listed with old | new
      · exact noAngle (mem_of_directory old member)
      · exact noAngle' (Text.inside_of_field new member).1
  unfold joinPath
  dsimp only
  generalize (if path.head? = some '/' then Text.splitOn '/' path
    else Text.dropEmptyInner (directory base ++ Text.splitOn '/' path)) = segments at fields
  -- Whether an empty segment is put at the end makes no difference.
  generalize ended : (if segments.getLastD [] = ['.'] || segments.getLastD [] = ['.', '.'] then
    [([] : Text)] else []) = last
  have joined : '<' ∉ Text.joinWith ['/'] (resolveDots segments ++ last) := by
    intro member
    rcases Text.mem_of_joinWith member with slash | ⟨piece, listed, member⟩
    · exact absurd slash (by decide)
    · rcases List.mem_append.mp listed with kept | added
      · exact fields piece (mem_of_resolveDots kept) member
      · rw [← ended] at added
        split at added
        · cases List.mem_singleton.mp added
          cases member
        · cases added
  split
  · decide
  · exact joined

theorem unangled_cutParameters (noAngle : '<' ∉ path) :
    '<' ∉ (cutParameters path).1 ∧ '<' ∉ (cutParameters path).2 := by
  have segment : '<' ∉ (path.reverse.takeWhile (· ≠ '/')).reverse := by
    intro member
    exact noAngle (List.mem_reverse.mp ((List.takeWhile_sublist _).mem (List.mem_reverse.mp member)))
  constructor
  · intro member
    rcases List.mem_append.mp member with before | name
    · exact noAngle (List.mem_of_mem_take before)
    · exact segment (Text.mem_of_cutAt_fst name)
  · intro member
    rcases Text.mem_of_cutAt_getD member with parameters | none
    · exact segment parameters
    · cases none

theorem unangled_withParameters {parameters : Text} (noAngle : '<' ∉ path) (noAngle' : '<' ∉ parameters) :
    '<' ∉ withParameters path parameters := by
  unfold withParameters
  split
  · exact noAngle
  · simp [noAngle, noAngle']

theorem Unangled.joinUrl {base reference : Url} (unangled : base.Unangled)
    (unangled' : reference.Unangled) : (base.joinUrl reference).Unangled := by
  obtain ⟨path, parameters⟩ := unangled_cutParameters unangled'.path
  unfold Url.joinUrl
  dsimp only
  split
  · exact { unangled' with path := unangled_withParameters path parameters }
  · split
    · refine { unangled with query := ?_, fragment := unangled'.fragment }
      dsimp only
      split
      · exact unangled.query
      · exact unangled'.query
    · exact { unangled with
        path := unangled_withParameters
          (unangled_joinPath (unangled_cutParameters unangled.path).1 path) parameters
        query := unangled'.query
        fragment := unangled'.fragment }

theorem unangled_join {base : Url} {image : Text} (unangled : base.Unangled) (noAngle : '<' ∉ reference)
    (done : join base reference = .ok image) : '<' ∉ image := by
  unfold join at done
  split at done
  · cases done
    exact unangled.write
  · split at done
    · cases done
    · rename_i url read
      cases done
      split
      · exact (unangled.joinUrl (unangled_of_read noAngle unangled.scheme read)).write
      · exact noAngle

theorem upperDigit_ne_angle : ∀ n < 16, Query.upperDigit n ≠ '<' := by decide

/-- A less-than sign is encoded. -/
theorem unangled_encode (text : Text) : '<' ∉ Query.encode text := by
  intro member
  obtain ⟨c, -, member⟩ := List.mem_flatMap.mp member
  unfold Query.encodeChar at member
  split at member
  · exact absurd member (by decide)
  · split at member
    · rename_i unreserved
      obtain rfl := List.mem_singleton.mp member
      exact absurd unreserved (by decide)
    · obtain ⟨byte, -, member⟩ := List.mem_flatMap.mp member
      have bound := byte.toNat_lt
      simp only [Query.encodeByte, List.mem_cons, List.not_mem_nil, or_false] at member
      rcases member with percent | high | low
      · exact absurd percent (by decide)
      · exact upperDigit_ne_angle _ (by omega) high.symm
      · exact upperDigit_ne_angle _ (by omega) low.symm

end Url

namespace Badge
variable {value : Text} {badge : Text} {kind : BadgeKind} {params : Table} {content : Text}

theorem unangled_cutAlt (standard : String) (noAngle : '<' ∉ value)
    (noAngle' : '<' ∉ standard.toList) :
    '<' ∉ (cutAlt value standard).1 ∧ '<' ∉ (cutAlt value standard).2 := by
  constructor
  · exact mt Text.mem_of_cutAt_fst noAngle
  · intro member
    rcases Text.mem_of_cutAt_getD member with given | fixed
    · exact noAngle given
    · exact noAngle' fixed

theorem unangled_markdown {alt image page : Text} (noAngle : '<' ∉ alt) (noAngle' : '<' ∉ image)
    (noAngle'' : '<' ∉ page) : '<' ∉ markdown alt image page := by
  have opens : '<' ∉ "[![".toList := by decide
  have between : '<' ∉ "](".toList := by decide
  have closes : '<' ∉ ")](".toList := by decide
  unfold markdown
  simp only [List.mem_append, not_or]
  exact ⟨⟨⟨⟨⟨⟨opens, noAngle⟩, between⟩, noAngle'⟩, closes⟩, noAngle''⟩, by decide⟩

theorem unangled_packagePage {name : Text} (noAngle : '<' ∉ name) : '<' ∉ packagePage name := by
  have pages : '<' ∉ packagePages := by decide
  simp only [packagePage, List.mem_append, not_or]
  exact ⟨⟨pages, noAngle⟩, by decide⟩

theorem unangled_version (noAngle : '<' ∉ value) (made : version value = .ok badge) : '<' ∉ badge := by
  obtain ⟨reference, alt⟩ := unangled_cutAlt "PyPI Version" noAngle (by decide)
  have images : versionImages.Unangled :=
    ⟨by decide, by decide, by decide, by decide, by decide⟩
  unfold version at made
  dsimp only at made
  split at made
  · cases made
  · rename_i image joined
    split at made
    · cases made
    · rename_i url read
      cases made
      exact unangled_markdown alt (Url.unangled_join images reference joined)
        (unangled_packagePage (Url.unangled_of_read reference List.not_mem_nil read).path)

theorem unangled_workflowParts? {owner repo file : Text} (noAngle : '<' ∉ value)
    (found : workflowParts? value = some (owner, repo, file)) :
    '<' ∉ owner ∧ '<' ∉ repo ∧ '<' ∉ file := by
  obtain ⟨rfl, -⟩ := workflowParts?_eq_some_iff.mp found
  simp only [List.mem_append, List.mem_cons, not_or] at noAngle
  exact ⟨noAngle.1.1, noAngle.1.2.2, noAngle.2.2⟩

theorem unangled_runsQuery (query : Text) : '<' ∉ runsQuery query := by
  have fixed : '<' ∉ "query=".toList := by decide
  unfold runsQuery
  split
  · exact List.not_mem_nil
  · simp only [List.mem_append, not_or]
    exact ⟨fixed, Url.unangled_encode _⟩

theorem unangled_workflow (noAngle : '<' ∉ value) (made : workflow value = .ok badge) : '<' ∉ badge := by
  obtain ⟨target, alt⟩ := unangled_cutAlt "Build Status" noAngle (by decide)
  have images : '<' ∉ workflowImages := by decide
  have scheme : '<' ∉ "https".toList := by decide
  have host : '<' ∉ "github.com".toList := by decide
  have actions : '<' ∉ "/actions/workflows/".toList := by decide
  unfold workflow at made
  dsimp only at made
  split at made
  · cases made
  · rename_i owner repo file parts
    obtain ⟨owned, named, filed⟩ := unangled_workflowParts? target parts
    split at made
    · cases made
    · rename_i url read
      cases made
      have address := Url.unangled_of_read filed List.not_mem_nil read
      have runs : (⟨"https".toList, "github.com".toList,
          '/' :: owner ++ '/' :: repo ++ "/actions/workflows/".toList ++ url.path,
          runsQuery url.query, []⟩ : Url).Unangled := by
        refine ⟨scheme, host, ?_, unangled_runsQuery _, List.not_mem_nil⟩
        simp only [List.mem_append, List.mem_cons, not_or]
        exact ⟨⟨⟨⟨by decide, owned⟩, by decide, named⟩, actions⟩, address.path⟩
      refine unangled_markdown alt ?_ runs.write
      simp only [List.mem_append, List.mem_cons, not_or]
      exact ⟨⟨⟨images, owned⟩, by decide, named⟩, by decide, filed⟩

theorem unangled_license (noAngle : '<' ∉ value) : '<' ∉ license value := by
  obtain ⟨package, alt⟩ := unangled_cutAlt "License" noAngle (by decide)
  have images : '<' ∉ licenseImages := by decide
  have ending : '<' ∉ ".svg".toList := by decide
  refine unangled_markdown alt ?_ (unangled_packagePage package)
  simp only [List.mem_append, not_or]
  exact ⟨⟨images, package⟩, ending⟩

theorem unangled_make (noAngle : '<' ∉ value) (made : make kind value = .ok badge) : '<' ∉ badge := by
  cases kind with
  | version => exact unangled_version noAngle made
  | workflow => exact unangled_workflow noAngle made
  | license =>
    cases made
    exact unangled_license noAngle

/-- Badges hold no less-than sign that no value holds. -/
theorem unangled_of_reply (noAngle : ∀ entry ∈ params, '<' ∉ entry.2.display.toList)
    (answered : reply params = .content content) : '<' ∉ content := by
  have written : ∀ text, lines params = .ok text → '<' ∉ text := by
    intro text written
    clear answered
    fun_induction lines params generalizing text with
    | case1 =>
      cases written
      exact List.not_mem_nil
    | case2 key value more other ih =>
      exact ih (fun entry member => noAngle entry (List.mem_cons_of_mem _ member)) text written
    | case3 => cases written
    | case4 key value more kind asked badge made ih =>
      obtain ⟨rest, later, rfl⟩ := map_eq_ok_iff.mp written
      have here := unangled_make (noAngle _ List.mem_cons_self) made
      have after := ih (fun entry member => noAngle entry (List.mem_cons_of_mem _ member)) rest later
      simp [here, after]
    | case5 param more other ih =>
      exact ih (fun entry member => noAngle entry (List.mem_cons_of_mem _ member)) text written
  unfold reply at answered
  split at answered
  · rename_i text done
    cases answered
    exact written _ done
  · cases answered

end Badge

namespace Requirement

variable {text version : Text} {params vars : Table} {package : Value} {content : Text}
  {installed : List Distribution} {release : Release} {patch : Bool}

/-- A trimmed version is made of characters of the version, a dot and a zero. -/
theorem unangled_trimVersion {trimmed : Text} (noAngle : '<' ∉ version)
    (done : trimVersion version patch = some trimmed) : '<' ∉ trimmed := by
  obtain ⟨release, -, whole, rfl⟩ := trimVersion_eq_some_iff.mp done
  intro member
  rcases release.mem_of_mem_trimmed member with kept | dot | zero
  · exact noAngle (Text.mem_of_strip (whole ▸ kept))
  · cases dot
  · cases zero

theorem unangled_names {listed : String} (noAngle : '<' ∉ listed.toList) :
    ∀ name ∈ names listed, '<' ∉ name := by
  intro name member found
  obtain ⟨field, fields, rfl⟩ := List.mem_map.mp (List.mem_filter.mp member).1
  exact noAngle (Text.inside_of_field fields (Text.mem_of_strip found)).1

theorem unangled_write {package version extras : String} (noAngle : '<' ∉ package.toList)
    (noAngle' : '<' ∉ version.toList) (noAngle'' : '<' ∉ extras.toList) :
    '<' ∉ write package version extras := by
  have joined : '<' ∉ Text.joinWith [','] (names extras) := by
    intro member
    rcases Text.mem_of_joinWith member with comma | ⟨name, listed, member⟩
    · exact absurd comma (by decide)
    · exact unangled_names noAngle'' name listed member
  unfold write
  dsimp only
  split
  · simp [noAngle, noAngle']
  · simp [noAngle, noAngle', joined]

theorem unangled_snippet {groups : List Text} {entry : Text} (noAngle : ∀ group ∈ groups, '<' ∉ group)
    (noAngle' : '<' ∉ entry) : '<' ∉ snippet groups entry := by
  have lists : ∀ key : Text, '<' ∉ key → '<' ∉ listing key entry := by
    intro key plain
    have opens : '<' ∉ " = [\n".toList := by decide
    have closes : '<' ∉ "]\n".toList := by decide
    simp only [listing, List.mem_append, not_or]
    exact ⟨⟨⟨plain, opens⟩, noAngle'⟩, closes⟩
  have fence : '<' ∉ "```toml\n".toList := by decide
  have fence' : '<' ∉ "```\n".toList := by decide
  have project : '<' ∉ "[project]\n".toList := by decide
  have optional : '<' ∉ "[project.optional-dependencies]\n".toList := by decide
  have grouped : '<' ∉ groups.flatMap (listing · entry) := by
    intro member
    obtain ⟨group, listed, member⟩ := List.mem_flatMap.mp member
    exact lists group (noAngle group listed) member
  unfold snippet
  dsimp only
  simp only [List.mem_append, not_or]
  refine ⟨⟨fence, ?_⟩, fence'⟩
  split
  · simp only [List.mem_append, not_or]
    exact ⟨project, lists _ (by decide)⟩
  · simp only [List.mem_append, not_or]
    exact ⟨optional, grouped⟩

theorem unangled_textParam (noAngle : ∀ entry ∈ params, '<' ∉ entry.2.display.toList) (key : String) :
    '<' ∉ (textParam params key).toList := by
  unfold textParam
  split
  · rename_i text found
    obtain ⟨entry, listed, same⟩ := Table.mem_of_get? found
    have plain := noAngle entry listed
    rwa [same] at plain
  · decide

theorem unangled_of_replyFor {version : String} (noAngle : ∀ entry ∈ params, '<' ∉ entry.2.display.toList)
    (named : '<' ∉ package.display.toList) (numbered : '<' ∉ version.toList)
    (answered : replyFor params package version = .content content) : '<' ∉ content := by
  unfold replyFor at answered
  split at answered
  · cases answered
  · rename_i trimmed found
    split at answered
    · cases answered
    · rename_i name wrote
      cases answered
      obtain ⟨-, rfl⟩ := Value.write_eq_ok_iff.mp wrote
      have numbered' : '<' ∉ (String.ofList trimmed).toList := by
        simpa using unangled_trimVersion numbered found
      have written := unangled_write named numbered' (unangled_textParam noAngle "extras")
      refine unangled_snippet (unangled_names (unangled_textParam noAngle "only")) ?_
      split <;> simp [written]

/-- A requirement holds no less-than sign that no value and no version holds. -/
theorem unangled_of_reply (noAngle : ∀ entry ∈ params, '<' ∉ entry.2.display.toList)
    (standard : ∀ value, vars.at? "package_name" = some value → '<' ∉ value.display.toList)
    (versions : ∀ found ∈ installed, '<' ∉ found.version.toList)
    (answered : reply installed params vars = .content content) : '<' ∉ content := by
  have named : ∀ package, package? params vars = some package → '<' ∉ package.display.toList := by
    intro package meant
    unfold package? at meant
    split at meant
    · rename_i given found
      split at meant
      · exact standard package meant
      · cases meant
        obtain ⟨entry, listed, rfl⟩ := Table.mem_of_get? found
        exact noAngle entry listed
    · exact standard package meant
  unfold reply at answered
  split at answered
  · cases answered
  · rename_i package meant
    split at answered
    · rename_i version found
      obtain ⟨entry, listed, same⟩ := Table.mem_of_get? found
      have plain := noAngle entry listed
      rw [same] at plain
      exact unangled_of_replyFor noAngle (named package meant) plain answered
    · split at answered
      · cases answered
      · cases answered
      · rename_i version found
        refine unangled_of_replyFor noAngle (named package meant) ?_ answered
        unfold installedVersion at found
        split at found
        · cases found
        · split at found
          · obtain ⟨distribution, first, rfl⟩ := Option.map_eq_some_iff.mp (Except.ok.inj found)
            exact versions distribution (List.mem_of_find?_eq_some first)
          · cases found

end Requirement
end Regen
