import Vetting.Proofs.Heuristic.PlainInterfaces

/-! Annotations of the types that methods return. An interface may have annotations, but the pattern of
a method knows none: the sign of an annotation is left out, and its word is read as the beginning of the
type. So the number of methods stays the same, and the type is suspicious unless the word is lost with
the sign or passes for the beginning of a type.
-/

namespace Vetting.Aidl

open Text Pattern

-----------------------------------------------------------------------------------------
-- Annotated methods
-----------------------------------------------------------------------------------------

/-- A method with an annotation before its type. -/
def MethodLine.annotated (line : MethodLine) (word : Word) : MethodLine :=
  { line with tag := some word }

/-- A definition with other methods. -/
def InterfaceText.withMethods (d : InterfaceText) (methods : List MethodLine) : InterfaceText :=
  { d with methods := methods }

/-- An annotation goes unnoticed before a qualified type, as a keyword, and with a capital letter. -/
def MethodLine.Tolerates (line : MethodLine) (word : Word) : Prop :=
  line.qualifier ≠ []
  ∨ word.chars = "oneway".toList
  ∨ word.chars.head?.any isUpper = true

instance (line : MethodLine) (word : Word) : Decidable (line.Tolerates word) :=
  inferInstanceAs (Decidable (_ ∨ _ ∨ _))

variable {R : Type} [Scale R] {type : TypeText} {word : Word} {line : MethodLine}

theorem baseType_behind (other : word.chars ≠ "oneway".toList) (name : List Char)
    : Method.baseType ⟨(type.behind word other).chars, name⟩
      = word.chars ++ ' ' :: Method.baseType ⟨type.chars, name⟩ := by
  obtain ⟨c, first, letter⟩ := type.begins
  obtain ⟨rest, split⟩ := List.head?_eq_some_iff.mp first
  have noBracket : ∀ c, isWordChar c = true → (c != '<') = true := by
    intro c letter
    rw [bne_iff_ne]
    rintro rfl
    exact absurd letter (by decide)
  have solid := not_blank_of_word letter
  -- The first letter of the type keeps the blank before it from being trimmed.
  have kept : type.chars.takeWhile (· != '<') = c :: rest.takeWhile (· != '<') := by
    rw [split]
    exact List.takeWhile_cons_of_pos (noBracket c letter)
  have before : (type.behind word other).chars.takeWhile (· != '<')
      = word.chars ++ [' '] ++ c :: rest.takeWhile (· != '<') := by
    rw [TypeText.behind_chars,
      List.takeWhile_append_of_pos fun d inside => noBracket d (word.word d inside),
      List.takeWhile_cons_of_pos (by decide), kept, List.append_assoc]
    rfl
  have starts : trimStart (c :: rest.takeWhile (· != '<')) = c :: rest.takeWhile (· != '<') :=
    trimStart_of_head (by rintro _ ⟨⟩; exact solid)
  rw [Method.baseType, Method.baseType, before, kept, trim, trim, starts, trimStart_of_head,
    trimEnd_append ⟨c, List.mem_cons_self, solid⟩, List.append_assoc]
  · rfl
  · rw [List.append_assoc]
    exact head_not_blank word.begins

/-- A type that a word stands before may be returned only for the first letter of the word. -/
theorem typeAllowed_behind (base : List Char)
    : typeAllowed (word.chars ++ ' ' :: base) = true ↔ word.chars.head?.any isUpper = true := by
  have unlisted : ¬ plainTypes.contains (String.ofList (word.chars ++ ' ' :: base)) = true := by
    have spaceless : ∀ name ∈ plainTypes, ' ' ∉ name.toList := by decide
    rw [List.contains_iff_mem]
    intro listed
    exact spaceless _ listed (by simp)
  obtain ⟨c, first, _⟩ := word.begins
  have head : (word.chars ++ ' ' :: base).head? = some c := by
    rw [List.head?_append, first, Option.some_or]
  rw [typeAllowed, Bool.or_eq_true, or_iff_right unlisted, head, first]
  rfl

theorem method_unannotated (unannotated : line.tag = none)
    : line.method = ⟨line.type.chars, line.name.chars⟩ := by
  rw [MethodLine.method, MethodLine.returns_of_unannotated unannotated]

/-- An annotation that is lost leaves a method as it was. -/
theorem method_annotated_of_lost (lost : line.qualifier ≠ [] ∨ word.chars = "oneway".toList)
    : (line.annotated word).method = ⟨line.type.chars, line.name.chars⟩ := by
  have returns : (line.annotated word).returns = line.type := dif_pos lost
  rw [MethodLine.method, returns]
  rfl

/-- Any other annotation becomes a part of the type. -/
theorem baseType_annotated (unannotated : line.tag = none)
    (kept : ¬ (line.qualifier ≠ [] ∨ word.chars = "oneway".toList))
    : (line.annotated word).method.baseType = word.chars ++ ' ' :: line.method.baseType := by
  have returns : (line.annotated word).returns
      = line.type.behind word fun keyword => kept (.inr keyword) := dif_neg kept
  rw [MethodLine.method, returns, method_unannotated unannotated]
  exact baseType_behind _ _

/-- A method whose type may be returned is suspicious with an annotation unless it tolerates that. -/
theorem typeAllowed_annotated (unannotated : line.tag = none)
    (allowed : typeAllowed line.method.baseType = true)
    : typeAllowed (line.annotated word).method.baseType = true ↔ line.Tolerates word := by
  by_cases lost : line.qualifier ≠ [] ∨ word.chars = "oneway".toList
  · rw [method_annotated_of_lost lost, ← method_unannotated unannotated]
    exact iff_of_true allowed (or_assoc.mp (.inl lost))
  · rw [baseType_annotated unannotated lost, typeAllowed_behind, MethodLine.Tolerates, ← or_assoc,
      or_iff_right lost]

-----------------------------------------------------------------------------------------
-- Faults
-----------------------------------------------------------------------------------------

/-- What is reported about a method whose type is suspicious. -/
def suspicion (m : Method) : String :=
  "Suspicious AIDL type " ++ quoted m.baseType ++ " in " ++ quoted m.name

/-- The methods whose types are suspicious. -/
def suspicious (methods : List Method) : List Method :=
  methods.filter fun m => !typeAllowed m.baseType

theorem errors_methodFindings {methods : List Method} (some : methods ≠ [])
    : Finding.errors (methodFindings methods) = ((suspicious methods).take 3).map suspicion := by
  rw [methodFindings, if_neg (by simpa using some)]
  change Finding.errors (.credit 20 1 :: if (suspicious methods).isEmpty then [.credit 15 1]
    else ((suspicious methods).take 3).map fun m => .fault (suspicion m)) = _
  split
  · rename_i none
    rw [List.isEmpty_iff.mp none]
    rfl
  · rw [Finding.errors, List.filterMap_cons_none rfl, List.filterMap_map]
    exact congrFun (List.filterMap_eq_map (f := suspicion)) _

/-- One method more or less is suspicious by itself. -/
theorem suspicious_middle (first last : List Method) (m : Method)
    : suspicious (first ++ m :: last)
      = suspicious first ++ ((if typeAllowed m.baseType then [] else [m]) ++ suspicious last) := by
  rw [suspicious, List.filter_append, List.filter_cons]
  cases typeAllowed m.baseType <;> rfl

/-- Where methods have no faults, another one in the place of one of them can bring its own only. -/
theorem errors_replaced {first last : List Method} {m : Method}
    (faultless : Finding.errors (methodFindings (first ++ m :: last)) = []) (other : Method)
    : typeAllowed m.baseType = true
      ∧ Finding.errors (methodFindings (first ++ other :: last))
        = if typeAllowed other.baseType then [] else [suspicion other] := by
  rw [errors_methodFindings (by simp), List.map_eq_nil_iff, List.take_eq_nil_iff] at faultless
  have none := faultless.resolve_left (by decide)
  rw [suspicious_middle, List.append_eq_nil_iff, List.append_eq_nil_iff] at none
  obtain ⟨noFirst, noMiddle, noLast⟩ := none
  constructor
  · by_contra suspected
    rw [if_neg suspected] at noMiddle
    cases noMiddle
  · rw [errors_methodFindings (by simp), suspicious_middle, noFirst, noLast]
    cases typeAllowed other.baseType <;> rfl

theorem errors_append (first second : List Finding)
    : Finding.errors (first ++ second) = Finding.errors first ++ Finding.errors second :=
  List.filterMap_append

theorem errors_heuristic (acceptAt : R) (code : List Char)
    : (ArtifactKind.aidl.heuristic acceptAt code).errors
      = Finding.errors (packageFindings code) ++ (Finding.errors (interfaceFindings code)
        ++ (Finding.errors (Finding.braces code 10)
          ++ Finding.errors (methodFindings (methods code)))) := by
  have bonus : Finding.errors (Finding.bonus (has code "@VintfStability") 10) = [] := by
    cases has code "@VintfStability" <;> rfl
  change Finding.errors (packageFindings code ++ interfaceFindings code ++ Finding.braces code 10
    ++ methodFindings (methods code) ++ Finding.bonus (has code "@VintfStability") 10) = _
  simp only [errors_append, bonus, List.append_nil, List.append_assoc]

theorem detail_heuristic (acceptAt : R) (code : List Char)
    : (ArtifactKind.aidl.heuristic acceptAt code).detail
      = some (toString (methods code).length ++ " methods parsed") :=
  rfl

/-- A definition has faults of its package, its interface and its braces that do not depend on the
annotations of its methods.
-/
theorem errors_withMethods (acceptAt : R) (d : InterfaceText) (lines : List MethodLine)
    (same : lines.flatMap MethodLine.openParts = d.methods.flatMap MethodLine.openParts)
    : ∃ errors,
        (ArtifactKind.aidl.heuristic acceptAt d.text).errors
          = errors ++ Finding.errors (methodFindings (d.methods.map MethodLine.method))
        ∧ (ArtifactKind.aidl.heuristic acceptAt (d.withMethods lines).text).errors
          = errors ++ Finding.errors (methodFindings (lines.map MethodLine.method)) := by
  have braces : Finding.braces (d.withMethods lines).text 10 = Finding.braces d.text 10 := by
    rw [Finding.braces, Finding.braces, countChar_text _ (.inl rfl), countChar_text _ (.inr rfl),
      countChar_text _ (.inl rfl), countChar_text _ (.inr rfl), InterfaceText.withMethods, same]
  refine ⟨Finding.errors (packageFindings d.text) ++ (Finding.errors (interfaceFindings d.text)
    ++ Finding.errors (Finding.braces d.text 10)), ?_, ?_⟩
  · rw [errors_heuristic, methods_text, List.append_assoc, List.append_assoc]
  · rw [errors_heuristic, methods_text, braces, packageFindings_text, interfaceFindings_text,
      packageFindings_text, interfaceFindings_text, List.append_assoc, List.append_assoc]
    rfl

/-- In a definition without faults, an annotation of the type of a method leaves the methods as many as
they were; it goes unnoticed where the method tolerates it, and is reported as a part of the type
anywhere else.
-/
theorem annotated_type_errors (acceptAt : R) (d : InterfaceText) {before after : List MethodLine}
    (word : Word) (written : d.methods = before ++ line :: after)
    (unannotated : line.tag = none)
    (faultless : (ArtifactKind.aidl.heuristic acceptAt d.text).errors = [])
    : let annotated := (d.withMethods (before ++ line.annotated word :: after)).text
      (methods annotated).length = (methods d.text).length
      ∧ (ArtifactKind.aidl.heuristic acceptAt annotated).detail
        = (ArtifactKind.aidl.heuristic acceptAt d.text).detail
      ∧ (line.Tolerates word → (ArtifactKind.aidl.heuristic acceptAt annotated).errors = [])
      ∧ (¬ line.Tolerates word
        → (ArtifactKind.aidl.heuristic acceptAt annotated).errors
          = ["Suspicious AIDL type " ++ quoted (word.chars ++ ' ' :: line.method.baseType) ++ " in "
              ++ quoted line.name.chars]) := by
  intro annotated
  have read : d.methods.map MethodLine.method
      = before.map MethodLine.method ++ line.method :: after.map MethodLine.method := by
    rw [written, List.map_append, List.map_cons]
  have reread : (before ++ line.annotated word :: after).map MethodLine.method
      = before.map MethodLine.method
        ++ (line.annotated word).method :: after.map MethodLine.method := by
    rw [List.map_append, List.map_cons]
  have count : (methods annotated).length = (methods d.text).length := by
    rw [methods_text, methods_text, read]
    refine (congrArg List.length reread).trans ?_
    rw [List.length_append, List.length_append, List.length_cons, List.length_cons]
  have same : (before ++ line.annotated word :: after).flatMap MethodLine.openParts
      = d.methods.flatMap MethodLine.openParts := by
    rw [written, List.flatMap_append, List.flatMap_append]
    rfl
  obtain ⟨errors, found, refound⟩ := errors_withMethods acceptAt d _ same
  rw [read, faultless] at found
  obtain ⟨rfl, none⟩ := List.append_eq_nil_iff.mp found.symm
  obtain ⟨allowed, finds⟩ := errors_replaced none (line.annotated word).method
  rw [reread, List.nil_append, finds] at refound
  refine ⟨count, ?_, fun tolerated => ?_, fun reported => ?_⟩
  · rw [detail_heuristic, detail_heuristic, count]
  · exact refound.trans (if_pos ((typeAllowed_annotated unannotated allowed).mpr tolerated))
  · have kept : ¬ (line.qualifier ≠ [] ∨ word.chars = "oneway".toList) := fun lost =>
      reported (or_assoc.mp (.inl lost))
    have name : (line.annotated word).method.name = line.name.chars := rfl
    have told : suspicion (line.annotated word).method = "Suspicious AIDL type "
        ++ quoted (word.chars ++ ' ' :: line.method.baseType) ++ " in " ++ quoted line.name.chars := by
      unfold suspicion
      rw [baseType_annotated unannotated kept, name]
    rw [← told]
    exact refound.trans (if_neg (mt (typeAllowed_annotated unannotated allowed).mp reported))

/-- An annotation of what may be missing. -/
def nullable : Word :=
  ⟨"nullable".toList, by decide, by decide⟩

theorem annotated_type_errors_nullable
    : seatInterface.methods = [heatLine] ++ modesLine :: []
      ∧ (ArtifactKind.aidl.heuristic (Exact.fraction (7 / 10)) seatInterface.text).errors = []
      ∧ (modesLine.annotated nullable).text = "\n    @nullable List<String> modes();".toList
      ∧ (ArtifactKind.aidl.heuristic (Exact.fraction (7 / 10))
            (seatInterface.withMethods [heatLine, modesLine.annotated nullable]).text).errors
          = ["Suspicious AIDL type 'nullable List' in 'modes'"] := by
  have written : seatInterface.methods = [heatLine] ++ modesLine :: [] := rfl
  have faultless
      : (ArtifactKind.aidl.heuristic (Exact.fraction (7 / 10)) seatInterface.text).errors = [] := by
    decide +kernel
  obtain ⟨_, _, _, reported⟩ :=
    annotated_type_errors (Exact.fraction (7 / 10)) seatInterface nullable written rfl faultless
  refine ⟨written, faultless, by decide +kernel, (reported (by decide +kernel)).trans ?_⟩
  decide +kernel

/-- An annotation of its only type makes an accepted definition a rejected one. -/
theorem nullable_type_rejected
    : let plain := "package a.b;\ninterface IFoo \x7b\n    String name();\n\x7d\n".toList
      let annotated :=
        "package a.b;\ninterface IFoo \x7b\n    @nullable String name();\n\x7d\n".toList
      (ArtifactKind.aidl.heuristic (Exact.fraction (7 / 10)) plain).ok = true
      ∧ (ArtifactKind.aidl.heuristic (Exact.fraction (7 / 10)) plain).errors = []
      ∧ (ArtifactKind.aidl.heuristic (Exact.fraction (7 / 10)) annotated).ok = false
      ∧ (ArtifactKind.aidl.heuristic (Exact.fraction (7 / 10)) annotated).errors ≠ [] := by
  decide +kernel

end Vetting.Aidl
