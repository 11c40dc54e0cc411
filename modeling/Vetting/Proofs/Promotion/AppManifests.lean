import Vetting.Promotion.VehicleHal
import Vetting.Proofs.Markup.Source
import Vetting.Proofs.Promotion.CheckLines
import Vetting.Proofs.Promotion.Occurrences
import Vetting.Proofs.Text.AnyCase

/-! Manifests of apps in place of the manifest of the service. A forbidden text is told of a required
file exactly when it stands in the content of the file, in any letter case. Of the forbidden texts of
the service one is the beginning of a root tag, with one blank before the first key; so the root tag
of an app is told by itself only when it is laid out like that.
-/

namespace Vetting

open Text

namespace RuleSet

variable {rules : RuleSet} {tree : FileTree} {draft : Path} {contents : List (List Char)}
  {findings : Findings} {path file : String} {content : List Char}

-----------------------------------------------------------------------------------------
-- Lines about forbidden texts
-----------------------------------------------------------------------------------------

theorem Reads.unique {other : List Char} (reads : Reads tree draft path content)
    (again : Reads tree draft path other)
    : content = other := by
  obtain ⟨source, bytes, resolved, read, rfl⟩ := reads
  obtain ⟨_, _, sameSource, sameBytes, rfl⟩ := again
  obtain rfl := Except.ok.inj (resolved.symm.trans sameSource)
  obtain rfl := Except.ok.inj (read.symm.trans sameBytes)
  rfl

/-- The required files come with what can be read in them. -/
theorem mem_filesWith (reads : List.Forall₂ (Reads tree draft) rules.requiredFiles contents)
    : (path, content) ∈ rules.filesWith contents
      ↔ path ∈ rules.requiredFiles ∧ Reads tree draft path content := by
  obtain ⟨length, read⟩ := List.forall₂_iff_zip.mp reads
  constructor
  · exact fun member => ⟨(List.of_mem_zip member).1, read member⟩
  · rintro ⟨required, reads⟩
    obtain ⟨i, bound, rfl⟩ := List.getElem_of_mem required
    have member : (rules.requiredFiles[i], contents[i]) ∈ rules.filesWith contents := by
      rw [filesWith, ← List.getElem_zip (h := by simpa [← length] using bound)]
      exact List.getElem_mem _
    rwa [reads.unique (read member)]

/-- A line about a forbidden text in a file is no other line: no path of a required file starts like
it, and none but that of the file ends it.
-/
structure TellsApart (rules : RuleSet) (file : String) : Prop where
  starts : ∀ path ∈ rules.requiredFiles, path.toList.head? ≠ some 'F'
  ends
    : ∀ path ∈ rules.requiredFiles,
        path ≠ file → ¬ (path.toList <:+ file.toList ∨ file.toList <:+ path.toList)

theorem TellsApart.eq_of_forbidden (apart : rules.TellsApart file) (required : path ∈ rules.requiredFiles)
    {text other : String}
    (same : "Forbidden content '" ++ text ++ "' found in " ++ file
      = "Forbidden content '" ++ other ++ "' found in " ++ path)
    : path = file := by
  by_contra differs
  have own : file.toList <:+ ("Forbidden content '" ++ text ++ "' found in " ++ file).toList := by
    rw [String.toList_append]
    exact List.suffix_append _ _
  have others : path.toList <:+ ("Forbidden content '" ++ text ++ "' found in " ++ file).toList := by
    rw [same, String.toList_append]
    exact List.suffix_append _ _
  exact apart.ends path required differs (List.suffix_or_suffix_of_suffix others own)

/-- No line about a forbidden text starts with the path of a required file and a colon. -/
theorem TellsApart.ne_of_check (apart : rules.TellsApart file) (required : path ∈ rules.requiredFiles)
    {line text : String} (starts : path.toList ++ [':'] <+: line.toList)
    : "Forbidden content '" ++ text ++ "' found in " ++ file ≠ line := by
  rintro rfl
  obtain ⟨more, opening⟩ : ∃ more, "Forbidden content '".toList = 'F' :: more :=
    ⟨_, String.toList_ofList⟩
  rw [String.toList_append, String.toList_append, String.toList_append, opening] at starts
  have other := apart.starts path required
  cases known : path.toList with
  | nil =>
      rw [known] at starts
      exact absurd (List.cons_prefix_cons.mp starts).1 (by decide)
  | cons c _ =>
      rw [known] at starts other
      exact other (congrArg some (List.cons_prefix_cons.mp starts).1)

theorem prefix_toList_append (one two : String) : one.toList <+: (one ++ two).toList := by
  rw [String.toList_append]
  exact List.prefix_append _ _

theorem prefix_toList_colon {more : List Char}
    : path.toList ++ [':'] <+: (path ++ String.ofList (':' :: more)).toList := by
  rw [String.toList_append, String.toList_ofList, List.prefix_append_right_inj]
  exact List.cons_prefix_cons.mpr ⟨rfl, List.nil_prefix⟩

/-- A line about a forbidden text in a file is told exactly when there is one. -/
theorem forbidden_told_iff (apart : rules.TellsApart file)
    (checked : rules.findings tree draft = .ok findings) (required : file ∈ rules.requiredFiles)
    (reads : Reads tree draft file content)
    : (∃ text, "Forbidden content '" ++ text ++ "' found in " ++ file ∈ findings.errors)
      ↔ firstForbidden content rules.forbidden ≠ none := by
  obtain ⟨contents, all, rfl⟩ := findings_eq_ok.mp checked
  constructor
  · rintro ⟨text, told⟩
    obtain ⟨origin, comes⟩ := (rules.errors_inOrder contents).mem_iff.mp told
    generalize shown : "Forbidden content '" ++ text ++ "' found in " ++ file = line at comes
    cases comes with
    | @forbidden i path other text' place found =>
        obtain ⟨listed, read⟩ := (mem_filesWith all).mp (List.mem_of_getElem? place)
        obtain rfl := apart.eq_of_forbidden listed shown
        rw [reads.unique read, found]
        exact Option.some_ne_none _
    | @failed i j path other check place _ _ _ _ =>
        obtain ⟨listed, _⟩ := (mem_filesWith all).mp (List.mem_of_getElem? place)
        refine absurd shown (apart.ne_of_check listed ?_)
        exact prefix_toList_colon.trans (prefix_toList_append _ _)
    | @broken i j path other check fault place _ _ _ =>
        obtain ⟨listed, _⟩ := (mem_filesWith all).mp (List.mem_of_getElem? place)
        refine absurd shown (apart.ne_of_check listed ?_)
        exact prefix_toList_colon.trans <| (prefix_toList_append _ _).trans <|
          (prefix_toList_append _ _).trans (prefix_toList_append _ _)
  · intro found
    obtain ⟨text, first⟩ := Option.ne_none_iff_exists'.mp found
    obtain ⟨i, place⟩ := List.mem_iff_getElem?.mp ((mem_filesWith all).mpr ⟨required, reads⟩)
    exact ⟨text, (rules.errors_inOrder contents).mem_iff.mpr ⟨_, .forbidden place first⟩⟩

end RuleSet

namespace VehicleHal

open Markup

variable {tree : FileTree} {draft : Path} {findings : Findings} {content : List Char}

/-- The path of another required file: it does not start like a line about a forbidden text, and ends
in other letters than the manifest.
-/
structure IsOther (path : List Char) : Prop where
  start : path.head? ≠ some 'F'
  ending : (path.reverse.take 2).length = 2 ∧ path.reverse.take 2 ≠ ['l', 'm']

theorem toList_append_eq {one two : String} {ones twos : List Char} (first : one.toList = ones)
    (second : two.toList = twos)
    : (one ++ two).toList = ones ++ twos := by
  rw [String.toList_append, first, second]

theorem IsOther.of_eq {path : String} {chars : List Char} (same : path.toList = chars)
    (start : chars.head? ≠ some 'F')
    (ending : (chars.reverse.take 2).length = 2 ∧ chars.reverse.take 2 ≠ ['l', 'm'])
    : IsOther path.toList :=
  same ▸ ⟨start, ending⟩

theorem isOther_of_ne : ∀ path ∈ ruleSet.requiredFiles, path ≠ serviceManifest → IsOther path.toList := by
  have literal {chars : List Char} : (String.ofList chars).toList = chars := String.toList_ofList
  simp only [ruleSet, List.forall_mem_cons]
  refine ⟨?_, ?_, ?_, ?_, ?_, ?_, ?_, fun other => absurd rfl other, ?_, ?_, ?_, by simp⟩
  iterate 3
    exact fun _ => .of_eq (toList_append_eq (toList_append_eq literal literal) literal)
      (by decide) (by decide)
  all_goals
    exact fun _ => .of_eq (toList_append_eq literal literal) (by decide) (by decide)

/-- Where one path ends another, both end in the same two letters. -/
theorem take_reverse_eq {one two : List Char} (ends : one <:+ two)
    (long : (one.reverse.take 2).length = 2)
    : one.reverse.take 2 = two.reverse.take 2 := by
  obtain ⟨start, rfl⟩ := ends
  rw [List.length_take] at long
  rw [List.reverse_append, List.take_append_of_le_length (by omega)]

theorem tellsApart : ruleSet.TellsApart serviceManifest := by
  have literal {chars : List Char} : (String.ofList chars).toList = chars := String.toList_ofList
  have own
      : serviceManifest.toList.head? = some 'h'
        ∧ serviceManifest.toList.reverse.take 2 = ['l', 'm'] := by
    rw [show serviceManifest.toList = _ from toList_append_eq literal literal]
    decide
  constructor
  · intro path required
    by_cases same : path = serviceManifest
    · rw [same, own.1]
      decide
    · exact (isOther_of_ne path required same).start
  · intro path required differs ends
    obtain ⟨long, other⟩ := (isOther_of_ne path required differs).ending
    rcases ends with ends | ends
    · exact other ((take_reverse_eq ends long).trans own.2)
    · exact other ((take_reverse_eq ends (by rw [own.2]; rfl)).symm.trans own.2)

/-- The forbidden texts are ones that a lower-case text has only where they stand in some letter case.
-/
theorem mentions_forbidden_iff {text : String} (listed : text ∈ ruleSet.forbidden)
    : text ≠ "" ∧ (Vetting.mentions content text = true ↔ OccursAnyCase content text.toList) := by
  have plain : ∀ text ∈ ruleSet.forbidden,
      text.toList ≠ []
      ∧ text.toList.all (fun c => decide (c.toNat < 128)) = true
      ∧ 'k' ∉ text.toList.map Char.toLower
      ∧ (text.toList.map Char.toLower).getLast? ≠ some 'i' := by
    simp [ruleSet]
  obtain ⟨nonempty, small, noK, ends⟩ := plain text listed
  refine ⟨fun empty => nonempty (by rw [empty]; rfl), ?_⟩
  have below : ∀ c ∈ text.toList, c.toNat < 128 := by simpa using small
  rw [Vetting.mentions, lower_of_small below]
  exact contains_lower_iff nonempty below noK ends

/-- A forbidden text is told of the manifest exactly when one stands in it, in any letter case. -/
theorem manifest_told_iff (checked : ruleSet.findings tree draft = .ok findings)
    (reads : RuleSet.Reads tree draft serviceManifest content)
    : (∃ text, "Forbidden content '" ++ text ++ "' found in " ++ serviceManifest ∈ findings.errors)
      ↔ ∃ text ∈ ruleSet.forbidden, OccursAnyCase content text.toList := by
  have required : serviceManifest ∈ ruleSet.requiredFiles := by simp [ruleSet]
  rw [RuleSet.forbidden_told_iff tellsApart checked required reads, firstForbidden_ne_none_iff]
  refine exists_congr fun text => and_congr_right fun listed => ?_
  obtain ⟨nonempty, occurs⟩
      : text ≠ "" ∧ (Vetting.mentions content text = true ↔ OccursAnyCase content text.toList) :=
    mentions_forbidden_iff listed
  rw [occurs]
  exact and_iff_right nonempty

-----------------------------------------------------------------------------------------
-- Root tags of apps
-----------------------------------------------------------------------------------------

/-- A word that does not have a character stands before it. -/
theorem prefix_of_prefix_append_cons {α : Type} {word front back : List α} {c : α}
    (starts : word <+: front ++ c :: back) (absent : c ∉ word)
    : word <+: front := by
  rcases List.prefix_or_prefix_of_prefix starts (List.prefix_append _ _) with within | ⟨rest, rfl⟩
  · exact within
  · have behind := (List.prefix_append_right_inj front).mp starts
    cases rest with
    | nil => simp
    | cons d _ =>
        obtain ⟨rfl, _⟩ := List.cons_prefix_cons.mp behind
        exact absurd (by simp) absent

theorem mem_of_isSpace {c : Char} (blank : isSpace c = true) : c ∈ [' ', '\t', '\n', '\r'] := by
  simpa [isSpace, or_assoc] using blank

theorem toLower_of_isSpace {c : Char} (blank : isSpace c = true) : c.toLower = c := by
  have own : [' ', '\t', '\n', '\r'].all (fun c => c.toLower == c) = true := by decide
  simpa using List.all_eq_true.mp own c (mem_of_isSpace blank)

/-- A root tag is laid out like the beginning of one that is forbidden exactly when its first key stands
behind one blank, and starts like the name of the space of names.
-/
theorem startsWithAnyCase_tag_iff {tag back : List Char} {key value : String}
    {others : List (String × String)} (named : tagName tag = "manifest".toList)
    (read : attributes tag = .ok ((key, value) :: others))
    : startsWithAnyCase "manifest xmlns:android".toList (tag ++ back) = true
      ↔ firstGap tag = [' '] ∧ startsWithAnyCase "xmlns:android".toList key.toList = true := by
  obtain ⟨c, behind, whole, ends⟩ := eq_of_attributes read
  have blanks : ∀ d ∈ firstGap tag, isSpace d = true := fun d member => List.mem_takeWhile_imp member
  have gap := firstGap_ne_nil whole (by simp)
  have spelled : "manifest xmlns:android".toList = "manifest".toList ++ ' ' :: "xmlns:android".toList := by
    simp
  have word : "xmlns:android".toList.map Char.toLower
      = ['x', 'm', 'l', 'n', 's', ':', 'a', 'n', 'd', 'r', 'o', 'i', 'd'] := by
    simp
  have noEnd : c.toLower ∉ "xmlns:android".toList.map Char.toLower := by
    have absent : ['=', ' ', '\t', '\n', '\r'].all (fun c => decide (c.toLower
        ∉ ['x', 'm', 'l', 'n', 's', ':', 'a', 'n', 'd', 'r', 'o', 'i', 'd'])) = true := by
      decide
    rw [word]
    have member := List.mem_cons.mpr (ends.imp_right mem_of_isSpace)
    exact of_decide_eq_true (List.all_eq_true.mp absent c member)
  rw [startsWithAnyCase_iff, startsWithAnyCase_iff, spelled]
  generalize firstGap tag = blank at *
  rw [whole, named]
  simp only [List.map_append, List.map_cons, List.append_assoc, List.prefix_append_right_inj]
  constructor
  · intro starts
    cases blank with
    | nil => exact absurd rfl gap
    | cons first more =>
        obtain ⟨here, rest⟩ := List.cons_prefix_cons.mp starts
        obtain ⟨firstBlank, moreBlank⟩ := List.forall_mem_cons.mp blanks
        have one : ' ' = first := here.trans (toLower_of_isSpace firstBlank)
        cases more with
        | nil => exact ⟨by rw [one], prefix_of_prefix_append_cons rest noEnd⟩
        | cons second _ =>
            -- A second blank would stand where the key has to start.
            have blankSecond := moreBlank second List.mem_cons_self
            obtain ⟨there, _⟩ := List.cons_prefix_cons.mp (word ▸ rest)
            rw [toLower_of_isSpace blankSecond] at there
            exact absurd (there ▸ blankSecond) (by decide)
  · rintro ⟨rfl, starts⟩
    exact List.cons_prefix_cons.mpr ⟨rfl, starts.trans (List.prefix_append _ _)⟩

/-- Where a text with a tag in it has a forbidden text: before the tag, from its bracket on, or behind
the bracket.
-/
theorem occurs_around_iff {front back : List Char}
    : (∃ text ∈ ruleSet.forbidden, OccursAnyCase (front ++ '<' :: back) text.toList)
      ↔ startsWithAnyCase "manifest xmlns:android".toList back = true
        ∨ ∃ text ∈ ruleSet.forbidden,
            OccursAnyCase front text.toList ∨ OccursAnyCase back text.toList := by
  have bracketed : "<manifest xmlns:android".toList = '<' :: "manifest xmlns:android".toList := by
    simp
  have absent : ∀ text ∈ ["com.example", "AndroidManifest.xml", "manifest xmlns:android"],
      '<'.toLower ∉ text.toList.map Char.toLower := by
    simp
  simp only [List.forall_mem_cons] at absent
  obtain ⟨first, second, third, _⟩ := absent
  simp only [ruleSet, List.mem_cons, List.not_mem_nil, or_false, exists_eq_or_imp, exists_eq_left,
    bracketed, occursAnyCase_append_iff first, occursAnyCase_append_iff second,
    occursAnyCase_cons_append_iff third]
  grind

/-- When the first tag of what stands for the manifest of the service is the root tag of an app, which
has the space of names of the platform at any place among its keys, a forbidden text is told of it in
two cases only. Either the tag is laid out with one blank behind its name, and the name of the space
comes first or behind it a key that starts like it; or a forbidden text stands elsewhere, before the
bracket of the tag or behind it.
-/
theorem app_manifest_told_iff {tag : List Char} {earlier later : List (String × String)}
    {value : String} (checked : ruleSet.findings tree draft = .ok findings)
    (reads : RuleSet.Reads tree draft serviceManifest content) (root : HasRoot content tag)
    (named : tagName tag = "manifest".toList)
    (declared : attributes tag = .ok (earlier ++ ("xmlns:android", value) :: later))
    : ∃ front back,
        content = front ++ '<' :: (tag ++ back)
        ∧ ((∃ text,
            "Forbidden content '" ++ text ++ "' found in " ++ serviceManifest ∈ findings.errors)
          ↔ (firstGap tag = [' ']
              ∧ ∀ first ∈ earlier.head?,
                  startsWithAnyCase "xmlns:android".toList first.1.toList = true)
            ∨ ∃ text ∈ ruleSet.forbidden,
                OccursAnyCase front text.toList ∨ OccursAnyCase (tag ++ back) text.toList) := by
  obtain ⟨front, back, same⟩ := root.exists_eq
  refine ⟨front, back, same, ?_⟩
  rw [manifest_told_iff checked reads, same, occurs_around_iff]
  refine or_congr_left ?_
  cases earlier with
  | nil =>
      rw [startsWithAnyCase_tag_iff named declared]
      refine and_congr_right fun _ => iff_of_true ?_ (by simp)
      decide +kernel
  | cons first more =>
      have begins : attributes tag
          = .ok ((first.1, first.2) :: (more ++ ("xmlns:android", value) :: later)) := declared
      rw [startsWithAnyCase_tag_iff named begins]
      simp

-----------------------------------------------------------------------------------------
-- Two layouts
-----------------------------------------------------------------------------------------

/-- A draft in which all required files are, empty but for the manifest. -/
def draftWith (manifest : List Char) : FileTree where
  here := [Path.bytesOf "work"]
  entries :=
    let place (names : List String) : Place := ("work" :: "draft" :: names).map Path.bytesOf
    let directory (names : List String) := (place names, Entry.directory Entry.directoryMode)
    let file (content : List Char) (names : List String) :=
      (place names, Entry.file (Text.encode content) Entry.fileMode)
    let interface := ["hardware", "interfaces", "automotive", "vehicle", "aidl"]
    let package := interface ++ ["android", "hardware", "automotive", "vehicle"]
    let implementation := ["hardware", "interfaces", "automotive", "vehicle", "impl"]
    let policy := ["system", "sepolicy", "vendor"]
    ([Path.bytesOf "work"], .directory Entry.directoryMode)
    :: (package.inits ++ [implementation] ++ policy.inits).map directory
    ++ (["IVehicle.aidl", "IVehicleCallback.aidl", "VehiclePropValue.aidl"].map fun name =>
        file [] (package ++ [name]))
    ++ [file [] (interface ++ ["Android.bp"])]
    ++ (["VehicleHalService.cpp", "Android.bp", "android.hardware.automotive.vehicle-service.rc"].map
        fun name => file [] (implementation ++ [name]))
    ++ [file manifest (implementation ++ ["android.hardware.automotive.vehicle-service.xml"])]
    ++ (["vehiclehal.te", "vehiclehal_service.te", "file_contexts"].map fun name =>
        file [] (policy ++ [name]))

/-- What is read in a draft below a path that is written in characters. -/
def readBelow (tree : FileTree) (draft : Path) (chars : List Char) : Option (List Char) :=
  match SafePath.segments chars with
  | .ok segments =>
      (tree.readFile (draft.below (segments.map Text.encode))).toOption.map Text.decodeLossy
  | .error _ => none

theorem reads_of_readBelow {path : String} (read : readBelow tree draft path.toList = some content)
    : RuleSet.Reads tree draft path content := by
  unfold readBelow at read
  split at read
  · rename_i segments segmented
    have resolved : SafePath.resolve draft path = .ok (draft.below (segments.map Text.encode)) := by
      rw [SafePath.resolve, SafePath.parse, segmented]
      simp [Path.bytesOf, Function.comp_def]
    cases found : tree.readFile (draft.below (segments.map Text.encode)) with
    | error fault =>
        rw [found] at read
        cases read
    | ok bytes =>
        rw [found] at read
        exact ⟨_, bytes, resolved, found, (Option.some.inj read).symm⟩
  · cases read

theorem map_toList_cons {path : String} {paths : List String} {chars : List Char}
    {others : List (List Char)} (first : path.toList = chars) (rest : paths.map String.toList = others)
    : (path :: paths).map String.toList = chars :: others := by
  rw [List.map_cons, first, rest]

/-- A manifest of an app in the layout that is forbidden. -/
def compactManifest : List Char :=
  "<manifest xmlns:android=\"urn:a\" package=\"car\"/>".toList

/-- One with another key before the space of names. -/
def spreadManifest : List Char :=
  "<manifest package=\"car\" xmlns:android=\"urn:a\"/>".toList

theorem readable_draftWith
    : ∀ manifest ∈ [compactManifest, spreadManifest], ∀ path ∈ ruleSet.requiredFiles,
        ∃ content, RuleSet.Reads (draftWith manifest) (.ofString "draft") path content := by
  have literal {chars : List Char} : (String.ofList chars).toList = chars := String.toList_ofList
  have twofold {one two : List Char} : (String.ofList one ++ String.ofList two).toList = one ++ two :=
    toList_append_eq literal literal
  have threefold {one two three : List Char}
      : (String.ofList one ++ String.ofList two ++ String.ofList three).toList = one ++ two ++ three :=
    toList_append_eq twofold literal
  obtain ⟨paths, spelled, checked⟩
      : ∃ paths,
          ruleSet.requiredFiles.map String.toList = paths
          ∧ ∀ manifest ∈ [compactManifest, spreadManifest], ∀ path ∈ paths,
              (readBelow (draftWith manifest) (.ofString "draft") path).isSome = true :=
    ⟨_, map_toList_cons threefold <| map_toList_cons threefold <| map_toList_cons threefold <|
      map_toList_cons twofold <| map_toList_cons twofold <| map_toList_cons twofold <|
      map_toList_cons twofold <| map_toList_cons twofold <| map_toList_cons twofold <|
      map_toList_cons twofold <| map_toList_cons twofold rfl, by decide +kernel⟩
  intro manifest listed path required
  have readable := checked manifest listed path.toList
    (spelled ▸ List.mem_map_of_mem required)
  obtain ⟨content, read⟩ := Option.isSome_iff_exists.mp readable
  exact ⟨content, reads_of_readBelow read⟩

theorem reads_draftWith
    : ∀ manifest ∈ [compactManifest, spreadManifest],
        RuleSet.Reads (draftWith manifest) (.ofString "draft") serviceManifest manifest := by
  have literal {chars : List Char} : (String.ofList chars).toList = chars := String.toList_ofList
  obtain ⟨path, spelled, checked⟩
      : ∃ path,
          serviceManifest.toList = path
          ∧ ∀ manifest ∈ [compactManifest, spreadManifest],
              readBelow (draftWith manifest) (.ofString "draft") path = some manifest :=
    ⟨_, toList_append_eq literal literal, by decide +kernel⟩
  intro manifest listed
  exact reads_of_readBelow (spelled ▸ checked manifest listed)

/-- The compact layout is told. -/
theorem app_manifest_told_iff_compact
    : ∃ findings,
        ruleSet.findings (draftWith compactManifest) (.ofString "draft") = .ok findings
        ∧ ∃ text,
            "Forbidden content '" ++ text ++ "' found in " ++ serviceManifest ∈ findings.errors := by
  obtain ⟨_, _, checked⟩ := RuleSet.exists_findings (readable_draftWith compactManifest (by simp))
  have root : HasRoot compactManifest "manifest xmlns:android=\"urn:a\" package=\"car\"".toList :=
    ⟨[], _, [], by decide +kernel, by simp, .empty⟩
  have declared
      : attributes "manifest xmlns:android=\"urn:a\" package=\"car\"".toList
        = .ok ([] ++ ("xmlns:android", "urn:a") :: [("package", "car")]) := by
    decide +kernel
  obtain ⟨front, back, _, told⟩ := app_manifest_told_iff checked
    (reads_draftWith compactManifest (by simp)) root (by decide +kernel) declared
  exact ⟨_, checked, told.mpr (.inl ⟨by decide +kernel, by simp⟩)⟩

/-- The root tag of an app is not told when another key stands before the space of names. -/
theorem spread_manifest_untold
    : ∃ findings,
        ruleSet.findings (draftWith spreadManifest) (.ofString "draft") = .ok findings
        ∧ RuleSet.Reads (draftWith spreadManifest) (.ofString "draft") serviceManifest spreadManifest
        ∧ HasRoot spreadManifest "manifest package=\"car\" xmlns:android=\"urn:a\"".toList
        ∧ attributes "manifest package=\"car\" xmlns:android=\"urn:a\"".toList
          = .ok [("package", "car"), ("xmlns:android", "urn:a")]
        ∧ ¬ ∃ text,
            "Forbidden content '" ++ text ++ "' found in " ++ serviceManifest ∈ findings.errors := by
  obtain ⟨_, _, checked⟩ := RuleSet.exists_findings (readable_draftWith spreadManifest (by simp))
  have reads := reads_draftWith spreadManifest (by simp)
  refine ⟨_, checked, reads, ⟨[], _, [], by decide +kernel, by simp, .empty⟩, by decide +kernel, ?_⟩
  rw [manifest_told_iff checked reads]
  rintro ⟨text, listed, occurs⟩
  have absent : ∀ text ∈ ruleSet.forbidden, Vetting.mentions spreadManifest text = false := by
    decide +kernel
  rw [← (mentions_forbidden_iff listed).2, absent text listed] at occurs
  cases occurs

end VehicleHal

end Vetting
