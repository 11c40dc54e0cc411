import Vetting.Proofs.Heuristic.InterfaceTexts
import Vetting.Proofs.Heuristic.Thresholds
import Vetting.Proofs.Text.Pieces

/-! Plain interface definitions: a package in small letters, an interface with the usual first letter,
and methods that return what may be returned. Such a definition has no faults and nine tenths of the
credit, and each of its methods is counted.
-/

namespace Vetting.Aidl

open Text Pattern Exact

-----------------------------------------------------------------------------------------
-- Plain definitions
-----------------------------------------------------------------------------------------

/-- A type that may be returned, with its arguments in angle brackets where it has any. -/
structure PlainType where
  base : List Char
  arguments : List Char
  /-- It is listed, or a word that starts with a capital letter. -/
  known
    : String.ofList base ∈ plainTypes
      ∨ base.head?.any isUpper = true ∧ ∀ c ∈ base, isWordChar c = true
  /-- The arguments are words, commas, blanks and further angle brackets. -/
  generic
    : arguments = []
      ∨ ∃ inner,
          arguments = '<' :: (inner ++ ['>'])
          ∧ ∀ c ∈ inner, (isWordChar c || "<>, ".toList.contains c) = true

namespace PlainType

theorem base_chars (type : PlainType)
    : ∀ c ∈ type.base, isBlank c = false ∧ isTypeChar c = true ∧ c ≠ '<' := by
  rcases type.known with listed | ⟨_, letters⟩
  · have known : ∀ name ∈ plainTypes,
        name.toList.all (fun c => !isBlank c && (isTypeChar c && c != '<')) = true := by decide
    have all := List.all_eq_true.mp (known _ listed)
    simpa using all
  · intro c inside
    refine ⟨not_blank_of_word (letters c inside), by simp [isTypeChar, letters c inside], ?_⟩
    rintro rfl
    exact absurd (letters _ inside) (by decide)

/-- It starts with a word, and that is no keyword. -/
theorem base_begins (type : PlainType)
    : type.base.head?.any isWordChar = true
      ∧ type.base.takeWhile isWordChar ≠ "oneway".toList := by
  rcases type.known with listed | ⟨capital, letters⟩
  · have known : ∀ name ∈ plainTypes, name.toList.head?.any isWordChar = true
        ∧ name.toList.takeWhile isWordChar ≠ "oneway".toList := by decide
    have known := known _ listed
    rwa [String.toList_ofList] at known
  · obtain ⟨c, first, capital⟩ := (Option.any_eq_true _ _).mp capital
    obtain ⟨rest, split⟩ := List.head?_eq_some_iff.mp first
    refine ⟨by rw [first, Option.any_some, letters c (by simp [split])], ?_⟩
    rw [List.takeWhile_eq_self_iff.mpr letters, split]
    intro same
    obtain rfl := (List.cons.inj same).1
    exact absurd capital (by decide)

theorem arguments_chars (type : PlainType) : ∀ c ∈ type.arguments, isTypeChar c = true := by
  rcases type.generic with none | ⟨inner, some, listed⟩
  · simp [none]
  · rw [some]
    simp only [List.forall_mem_cons, List.forall_mem_append]
    refine ⟨rfl, fun c inside => ?_, rfl, nofun⟩
    have listed := listed c inside
    have more : "<>, ".toList.all isTypeChar = true := by decide
    rw [Bool.or_eq_true, List.contains_iff_mem] at listed
    rcases listed with letter | mark
    · simp [isTypeChar, letter]
    · exact List.all_eq_true.mp more c mark

/-- The type as it is written. -/
def text (type : PlainType) : TypeText where
  chars := type.base ++ type.arguments
  startsWord := by
    obtain ⟨c, first, letter⟩ := (Option.any_eq_true _ _).mp type.base_begins.1
    rw [List.head?_append, first, Option.some_or, Option.any_some, letter]
  allTyped := by
    rw [List.all_append, Bool.and_eq_true, List.all_eq_true, List.all_eq_true]
    exact ⟨fun c inside => (type.base_chars c inside).2.1, type.arguments_chars⟩
  endsSolid := by
    rw [Option.all_eq_true]
    intro c last
    rcases type.generic with none | ⟨inner, some, _⟩
    · rw [none, List.append_nil] at last
      simp [(type.base_chars c (List.mem_of_getLast? last)).1]
    · rw [some, ← List.cons_append, ← List.append_assoc, List.getLast?_concat] at last
      obtain rfl := Option.some.inj last
      decide
  keyword := by
    rcases type.generic with none | ⟨inner, some, _⟩
    · rw [none, List.append_nil]
      exact type.base_begins.2
    · rw [some, takeWhile_isWordChar (by decide)]
      exact type.base_begins.2

end PlainType

/-- A method that returns a plain type, and has no braces among its parameters. -/
structure MethodLine.IsPlain (line : MethodLine) : Prop where
  type : ∃ type : PlainType, line.type = type.text
  unannotated : line.tag = none
  unqualified : line.qualifier = []
  unopened : '\x7b' ∉ line.parameters
  unclosed : '\x7d' ∉ line.parameters

/-- A definition with what is asked of its package, its interface and its methods. -/
structure InterfaceText.IsPlain (d : InterfaceText) : Prop where
  /-- The package has parts in small letters. -/
  lower
    : ∃ parts,
        parts ≠ []
        ∧ (∀ part ∈ parts, isLowerPart part = true)
        ∧ d.package.chars = ['.'].intercalate parts
  named : d.name.chars.head? = some 'I'
  some : d.methods ≠ []
  plain : ∀ line ∈ d.methods, line.IsPlain

-----------------------------------------------------------------------------------------
-- The verdict
-----------------------------------------------------------------------------------------

theorem not_mem_lowerPart {part : List Char} (lower : isLowerPart part = true) : '.' ∉ part := by
  cases part with
  | nil => cases lower
  | cons c rest =>
      simp only [isLowerPart, Bool.and_eq_true, List.all_eq_true] at lower
      rw [List.mem_cons, not_or]
      refine ⟨?_, fun inside => absurd (lower.2 _ inside) (by decide)⟩
      rintro rfl
      exact absurd lower.1 (by decide)

/-- Parts in small letters make a package in small letters. -/
theorem isLowerDotted_intercalate {parts : List (List Char)} (some : parts ≠ [])
    (lower : ∀ part ∈ parts, isLowerPart part = true)
    : isLowerDotted (['.'].intercalate parts) = true := by
  have split := List.splitOn_intercalate '.' (fun part listed => not_mem_lowerPart (lower part listed))
    some
  rw [isLowerDotted, splitChar_eq, split, List.all_eq_true]
  exact lower

/-- The arguments of a plain type are left out when it is judged, and what is left may be returned. -/
theorem typeAllowed_plain (type : PlainType) (name : List Char)
    : typeAllowed (Method.baseType ⟨type.text.chars, name⟩) = true := by
  have base : Method.baseType ⟨type.text.chars, name⟩ = type.base := by
    have kept : type.text.chars.takeWhile (· != '<') = type.base := by
      have before : ∀ c ∈ type.base, (c != '<') = true := fun c inside =>
        bne_iff_ne.mpr (type.base_chars c inside).2.2
      rw [PlainType.text, List.takeWhile_append_of_pos before]
      rcases type.generic with none | ⟨inner, some, _⟩
      · rw [none, List.takeWhile_nil, List.append_nil]
      · rw [some, List.takeWhile_cons_of_neg (by decide), List.append_nil]
    rw [Method.baseType, kept]
    exact trim_of_solid fun c inside => (type.base_chars c inside).1
  rw [base, typeAllowed, Bool.or_eq_true]
  rcases type.known with listed | ⟨capital, _⟩
  · exact .inl (List.contains_iff_mem.mpr listed)
  · obtain ⟨c, first, capital⟩ := (Option.any_eq_true _ _).mp capital
    rw [first, Option.map_some, Option.getD_some, capital]
    exact .inr rfl

variable {d : InterfaceText}

/-- The methods of a plain definition are read as they are written. -/
theorem methods_plain (plain : d.IsPlain)
    : methods d.text = d.methods.map fun line => ⟨line.type.chars, line.name.chars⟩ := by
  rw [methods_text, List.map_inj_left]
  intro line listed
  rw [MethodLine.method, MethodLine.returns_of_unannotated (plain.plain line listed).unannotated]

/-- It has one brace of each kind. -/
theorem countChar_plain (plain : d.IsPlain) {c : Char} (brace : c = '\x7b' ∨ c = '\x7d')
    : countChar d.text c = 1 := by
  have absent : c ∉ d.methods.flatMap MethodLine.openParts := by
    rw [List.mem_flatMap]
    rintro ⟨line, listed, inside⟩
    obtain ⟨_, _, unqualified, unopened, unclosed⟩ := plain.plain line listed
    rw [MethodLine.openParts, unqualified, List.nil_append] at inside
    rcases brace with rfl | rfl
    · exact unopened inside
    · exact unclosed inside
  rw [countChar_text d brace, countChar_of_not_mem absent]

/-- Nothing is missing from it, and there are no faults. -/
theorem assess_plain (plain : d.IsPlain)
    : assess d.text
      = .graded
          ([.credit 20 1, .credit 25 1, .credit 10 1, .credit 20 1, .credit 15 1]
            ++ Finding.bonus (has d.text "@VintfStability") 10)
          (some (toString d.methods.length ++ " methods parsed")) := by
  obtain ⟨parts, some, lower, package⟩ := plain.lower
  have dotted : isLowerDotted d.package.chars = true := by
    rw [package]
    exact isLowerDotted_intercalate some lower
  have named : (d.name.chars.head? == .some 'I') = true := beq_iff_eq.mpr plain.named
  have balanced : Finding.braces d.text 10 = [.credit 10 1] := by
    rw [Finding.braces, countChar_plain plain (.inl rfl), countChar_plain plain (.inr rfl)]
    rfl
  have allowed : (methods d.text).filter (fun m => !typeAllowed m.baseType) = [] := by
    rw [methods_plain plain, List.filter_eq_nil_iff]
    intro m listed
    obtain ⟨line, member, rfl⟩ := List.mem_map.mp listed
    obtain ⟨type, written⟩ := (plain.plain line member).type
    rw [written, typeAllowed_plain]
    decide
  have some : (methods d.text).isEmpty = false := by
    rw [methods_plain plain, List.isEmpty_eq_false_iff, ne_eq, List.map_eq_nil_iff]
    exact plain.some
  have found : methodFindings (methods d.text) = [.credit 20 1, .credit 15 1] := by
    simp only [methodFindings, some, allowed, Bool.false_eq_true, if_false, List.isEmpty_nil, if_true]
  rw [assess, packageFindings_text, interfaceFindings_text, balanced, found, dotted, named,
    methods_plain plain, List.length_map]
  rfl

/-- Every plain definition is accepted without faults, and each of its methods is counted. -/
theorem plain_accepted (d : InterfaceText) (plain : d.IsPlain)
    : (ArtifactKind.aidl.heuristic (fraction (7 / 10)) d.text).ok = true
      ∧ (ArtifactKind.aidl.heuristic (fraction (7 / 10)) d.text).errors = []
      ∧ (ArtifactKind.aidl.heuristic (fraction (7 / 10)) d.text).detail
        = some (toString d.methods.length ++ " methods parsed")
      ∧ methods d.text = d.methods.map fun line => ⟨line.type.chars, line.name.chars⟩ := by
  have assessed : ArtifactKind.aidl.assess d.text = _ := assess_plain plain
  rw [ArtifactKind.heuristic, assessed]
  refine ⟨Assessment.graded_ok_iff.mpr ?_, ?_, rfl, methods_plain plain⟩
  · cases has d.text "@VintfStability" <;>
      norm_num [Finding.bonus, Finding.totalWorth, Finding.worth, Finding.errors]
  · cases has d.text "@VintfStability" <;> rfl

/-- A type without arguments, and one with them. -/
def plainVoid : PlainType :=
  ⟨"void".toList, [], by decide, .inl rfl⟩

def plainNames : PlainType :=
  ⟨"List".toList, "<String>".toList, .inr ⟨by decide, List.all_eq_true.mp (by decide)⟩,
    .inr ⟨"String".toList, rfl, List.all_eq_true.mp (by decide)⟩⟩

/-- A method of either type. -/
def heatLine : MethodLine :=
  ⟨⟨"\n    ".toList, by decide⟩, true, none, [], plainVoid.text, ⟨"heat".toList, by decide, by decide⟩,
    "in int level".toList, by decide, nofun, by decide⟩

def modesLine : MethodLine :=
  ⟨⟨"\n    ".toList, by decide⟩, false, none, [], plainNames.text,
    ⟨"modes".toList, by decide, by decide⟩, [], by decide, nofun, by decide⟩

/-- A small definition with both methods. -/
def seatInterface : InterfaceText where
  lead := ⟨[], by decide⟩
  package := ⟨"vendor.seat".toList, by decide, by decide⟩
  imports := [⟨⟨"\n\n".toList, by decide⟩, ⟨"vendor.seat.Mode".toList, by decide, by decide⟩⟩]
  tag :=
    some ⟨⟨"\n\n".toList, by decide⟩, ⟨"VintfStability".toList, by decide, by decide⟩, none, nofun⟩
  headLead := ⟨"\n".toList, by decide⟩
  name := ⟨"ISeat".toList, by decide, by decide⟩
  methods := [heatLine, modesLine]
  closing := ⟨"\n".toList, by decide⟩
  trailing := ⟨"\n".toList, by decide⟩
  apart := by decide

theorem isPlain_seatInterface : seatInterface.IsPlain where
  lower := ⟨["vendor".toList, "seat".toList], by decide⟩
  named := rfl
  some := by decide
  plain := by
    intro line listed
    rcases List.mem_pair.mp listed with rfl | rfl
    · exact ⟨⟨plainVoid, rfl⟩, rfl, rfl, by decide, by decide⟩
    · exact ⟨⟨plainNames, rfl⟩, rfl, rfl, by decide, by decide⟩

theorem plain_accepted_seatInterface
    : seatInterface.IsPlain
      ∧ seatInterface.text
        = ("package vendor.seat;\n\nimport vendor.seat.Mode;\n\n@VintfStability\ninterface ISeat \x7b\n"
            ++ "    oneway void heat(in int level);\n    List<String> modes();\n\x7d\n").toList
      ∧ (ArtifactKind.aidl.heuristic (fraction (7 / 10)) seatInterface.text).ok = true
      ∧ (ArtifactKind.aidl.heuristic (fraction (7 / 10)) seatInterface.text).errors = []
      ∧ (ArtifactKind.aidl.heuristic (fraction (7 / 10)) seatInterface.text).detail
        = some "2 methods parsed" := by
  obtain ⟨ok, errors, detail, _⟩ := plain_accepted seatInterface isPlain_seatInterface
  exact ⟨isPlain_seatInterface, by decide +kernel, ok, errors, detail⟩

end Vetting.Aidl
