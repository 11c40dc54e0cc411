import Vetting.Heuristic.Aidl
import Vetting.Proofs.Pattern.Spans
import Vetting.Proofs.Text.Categories
import Vetting.Proofs.Text.Pieces

/-! Method lines of an interface definition. A method is found at the leftmost place from which its
line reads as one, and that need not be where its type starts: a qualified type is read from behind its
last dot, and an annotation of the type from behind its sign on, as a part of the type.
-/

namespace Vetting.Aidl

open Text Pattern

-----------------------------------------------------------------------------------------
-- Method lines
-----------------------------------------------------------------------------------------

/-- Blanks of any number and kind, line ends among them. -/
structure Blanks where
  chars : List Char
  allBlank : Text.allBlank chars = true

/-- A word. -/
structure Word where
  chars : List Char
  some : chars ≠ []
  allWord : chars.all isWordChar = true

/-- The characters that types are made of. -/
def isTypeChar (c : Char) : Bool :=
  isWordChar c || "<>[], ".toList.contains c

/-- A type as it is written, without annotation and qualifier. -/
structure TypeText where
  chars : List Char
  startsWord : chars.head?.any isWordChar = true
  allTyped : chars.all isTypeChar = true
  /-- It does not end with a blank. -/
  endsSolid : chars.getLast?.all (!isBlank ·) = true
  /-- Its first word is no keyword. -/
  keyword : chars.takeWhile isWordChar ≠ "oneway".toList

/-- A method as it is written. -/
structure MethodLine where
  lead : Blanks
  oneway : Bool
  /-- The annotation of the type. -/
  tag : Option Word
  /-- What the type has up to its last dot. -/
  qualifier : List Char
  type : TypeText
  name : Word
  parameters : List Char
  unopened : '(' ∉ qualifier
  dotted : ∀ c ∈ qualifier.getLast?, c = '.'
  unclosed : ')' ∉ parameters

/-- The name and the parameters of a method. -/
def MethodLine.signature (line : MethodLine) : List Char :=
  line.name.chars ++ '(' :: (line.parameters ++ [')', ';'])

/-- What a method has in front of its type. -/
def MethodLine.marks (line : MethodLine) : List Char :=
  (if line.oneway then "oneway ".toList else [])
    ++ (line.tag.map fun word => '@' :: (word.chars ++ [' '])).getD []

/-- A method as it is written, with the blanks before it. -/
def MethodLine.text (line : MethodLine) : List Char :=
  line.lead.chars
    ++ (line.marks ++ (line.qualifier ++ (line.type.chars ++ ' ' :: line.signature)))

variable {line : MethodLine} {front text more : List Char} {groups : List (Nat × List Char)}
  {before : Option Char}

theorem Blanks.blank (blanks : Blanks) : ∀ c ∈ blanks.chars, isBlank c = true :=
  List.all_eq_true.mp blanks.allBlank

theorem Word.word (word : Word) : ∀ c ∈ word.chars, isWordChar c = true :=
  List.all_eq_true.mp word.allWord

theorem Word.begins (word : Word) : ∃ c ∈ word.chars.head?, isWordChar c = true := by
  obtain ⟨c, rest, split⟩ := List.exists_cons_of_ne_nil word.some
  rw [split]
  exact ⟨c, rfl, word.word c (by simp [split])⟩

theorem TypeText.begins (type : TypeText) : ∃ c ∈ type.chars.head?, isWordChar c = true :=
  (Option.any_eq_true _ _).mp type.startsWord

theorem TypeText.typed (type : TypeText) : ∀ c ∈ type.chars, isTypeChar c = true :=
  List.all_eq_true.mp type.allTyped

theorem TypeText.ends (type : TypeText) : ∀ c ∈ type.chars.getLast?, isBlank c = false := by
  intro c last
  have solid := type.endsSolid
  rw [Option.mem_def.mp last] at solid
  simpa using solid

/-- Parentheses and braces stand in no blanks, words and types, nor are they among the marks between
them.
-/
structure IsBracket (c : Char) : Prop where
  solid : isBlank c = false
  untyped : isTypeChar c = false
  noDot : c ≠ '.'
  noStop : c ≠ ';'
  noSign : c ≠ '@'

theorem isBracket_of_mem {c : Char} (listed : c ∈ "()\x7b\x7d".toList) : IsBracket c := by
  simp only [String.reduceToList, List.mem_cons, List.not_mem_nil, or_false] at listed
  rcases listed with rfl | rfl | rfl | rfl <;>
    exact ⟨by decide, by decide, by decide, by decide, by decide⟩

theorem IsBracket.noLetter {c : Char} (bracket : IsBracket c) : isWordChar c = false :=
  (Bool.or_eq_false_iff.mp bracket.untyped).1

theorem IsBracket.noSpace {c : Char} (bracket : IsBracket c) : c ≠ ' ' := by
  rintro rfl
  exact absurd bracket.solid (by decide)

theorem Blanks.not_mem (blanks : Blanks) {c : Char} (solid : isBlank c = false)
    : c ∉ blanks.chars := by
  intro inside
  rw [blanks.blank c inside] at solid
  cases solid

theorem Word.not_mem (word : Word) {c : Char} (other : isWordChar c = false)
    : c ∉ word.chars := by
  intro inside
  rw [word.word c inside] at other
  cases other

theorem TypeText.not_mem (type : TypeText) {c : Char} (other : isTypeChar c = false)
    : c ∉ type.chars := by
  intro inside
  rw [type.typed c inside] at other
  cases other

/-- A type that a word stands before is a type, unless the word is a keyword. -/
def TypeText.behind (type : TypeText) (word : Word) (other : word.chars ≠ "oneway".toList) :
    TypeText where
  chars := word.chars ++ ' ' :: type.chars
  startsWord := by
    obtain ⟨c, first, letter⟩ := word.begins
    rw [List.head?_append, first, Option.some_or, Option.any_some, letter]
  allTyped := by
    refine List.all_eq_true.mpr fun c inside => ?_
    rcases List.mem_append.mp inside with letter | space | inside
    · simp [isTypeChar, word.word c letter]
    · rfl
    · exact type.typed c ‹_›
  endsSolid := by
    have some : type.chars ≠ [] := by
      obtain ⟨c, first, _⟩ := type.begins
      rintro none
      simp [none] at first
    rw [List.getLast?_append_of_ne_nil _ (List.cons_ne_nil _ _),
      List.getLast?_cons_of_ne_nil some]
    exact type.endsSolid
  keyword := by
    rw [List.takeWhile_append_of_pos word.word, List.takeWhile_cons_of_neg (by decide),
      List.append_nil]
    exact other

@[simp]
theorem TypeText.behind_chars (type : TypeText) (word : Word) (other : word.chars ≠ "oneway".toList)
    : (type.behind word other).chars = word.chars ++ ' ' :: type.chars :=
  rfl

/-- What is read as the type of a method: an annotation counts as a part of it, unless the type is
qualified or the annotation is taken for a keyword.
-/
def MethodLine.returns (line : MethodLine) : TypeText :=
  match line.tag with
  | none => line.type
  | some word =>
      if lost : line.qualifier ≠ [] ∨ word.chars = "oneway".toList then line.type
      else line.type.behind word fun keyword => lost (.inr keyword)

theorem MethodLine.returns_of_unannotated (unannotated : line.tag = none)
    : line.returns = line.type := by
  rw [MethodLine.returns, unannotated]

theorem MethodLine.returns_of_qualified (qualified : line.qualifier ≠ [])
    : line.returns = line.type := by
  unfold MethodLine.returns
  cases line.tag with
  | none => rfl
  | some word => exact dif_pos (.inl qualified)

-----------------------------------------------------------------------------------------
-- Types without the blanks around them
-----------------------------------------------------------------------------------------

theorem TypeText.trim_chars (type : TypeText) : trim type.chars = type.chars := by
  rw [trim, trimStart_of_head, trimEnd_of_last type.ends]
  have solid : ∀ c ∈ (type.chars ++ []).head?, isBlank c = false := head_not_blank type.begins
  rwa [List.append_nil] at solid

-----------------------------------------------------------------------------------------
-- Reading a signature
-----------------------------------------------------------------------------------------

theorem run_gap_of_next {β : Type} {next : Continuation β} {answer : β} {c : Char} {rest : List Char}
    (blank : isBlank c = true) (ends : ∀ d ∈ rest.head?, isBlank d = false)
    (onward : next ⟨some c, rest, groups⟩ = some answer)
    : run gap next ⟨before, c :: rest, groups⟩ = some answer :=
  run_oneOrMore_of_next (List.cons_ne_nil c []) (by simpa using blank) ends onward

theorem run_gap_none {β : Type} {next : Continuation β} {c : Char} {rest : List Char}
    (solid : isBlank c = false)
    : run gap next ⟨before, c :: rest, groups⟩ = none :=
  run_oneOrMore_none (by simpa using solid)

/-- What a method has behind its type. -/
def signaturePattern : Pattern :=
  .sequence [.group 2 name, maybeGap, .char '(', .zeroOrMore (.one (· != ')')), .char ')', maybeGap,
    .char ';']

/-- What a method has from its type on. -/
def typedPattern : Pattern :=
  .seq (.group 1 (.seq (.one isWordChar) (.zeroOrMore (.one isTypeChar)))) (.seq gap signaturePattern)

theorem methodPattern_eq
    : methodPattern = .seq (.optional (.seq (.word "oneway") gap)) typedPattern :=
  rfl

theorem run_signature {β : Type} {next : Continuation β} {answer : β}
    (onward : next ⟨some ';', more, (2, line.name.chars) :: groups⟩ = some answer)
    : run signaturePattern next ⟨before, line.signature ++ more, groups⟩ = some answer := by
  rw [MethodLine.signature, List.append_assoc, List.cons_append, List.append_assoc,
    signaturePattern, run_sequence_cons]
  refine run_group_oneOrMore_of_next line.name.some line.name.word (by rintro _ ⟨⟩; decide) ?_
  rw [run_sequence_cons, maybeGap, run_zeroOrMore_none (by rintro _ ⟨⟩; decide), run_sequence_cons,
    run_char_eq_some]
  refine ⟨_, rfl, ?_⟩
  rw [run_sequence_cons]
  refine run_zeroOrMore_of_next ?_ (by rintro _ ⟨⟩; decide) ?_
  · intro c inside
    rw [bne_iff_ne]
    rintro rfl
    exact line.unclosed inside
  rw [run_sequence_cons, run_char_eq_some]
  refine ⟨_, rfl, ?_⟩
  rw [run_sequence_cons, run_zeroOrMore_none (by rintro _ ⟨⟩; decide)]
  exact run_char_eq_some.mpr ⟨more, rfl, onward⟩

/-- A type takes the blank and the name behind it first, and gives them back. -/
theorem run_type (type : TypeText)
    : run typedPattern some ⟨before, type.chars ++ ' ' :: (line.signature ++ more), groups⟩
      = some ⟨some ';', more, (2, line.name.chars) :: (1, type.chars) :: groups⟩ := by
  obtain ⟨c, first, letter⟩ := type.begins
  obtain ⟨rest, split⟩ : ∃ rest, type.chars = c :: rest := List.head?_eq_some_iff.mp first
  have typed := type.typed
  have named : ∀ d ∈ ' ' :: line.name.chars, isTypeChar d = true :=
    List.forall_mem_cons.mpr ⟨rfl, fun d inside => by simp [isTypeChar, line.name.word d inside]⟩
  have onward : run signaturePattern some
      ⟨some ' ', line.signature ++ more, (1, type.chars) :: groups⟩
      = some ⟨some ';', more, (2, line.name.chars) :: (1, type.chars) :: groups⟩ :=
    run_signature rfl
  rw [split] at typed onward ⊢
  rw [MethodLine.signature, List.append_assoc, List.cons_append] at onward ⊢
  refine run_group_gives_back letter (List.forall_mem_cons.mp typed).2 named
    (by rintro _ ⟨⟩; decide) ?_ (run_gap_of_next rfl (head_not_blank line.name.begins) onward)
  -- Within the name nothing goes on, for there is no blank.
  intro left ends other before groups
  rw [run_seq]
  rcases List.suffix_cons_iff.mp ends with rfl | within
  · exact absurd rfl other
  · cases left with
    | nil => exact run_gap_none rfl
    | cons d left =>
        exact run_gap_none (not_blank_of_word (line.name.word d (within.subset List.mem_cons_self)))

/-- The keyword is not read where the first word is another. -/
theorem run_keyword_none {β : Type} {next : Continuation β}
    (other : text.takeWhile isWordChar ≠ "oneway".toList)
    : run (.seq (.word "oneway") gap) next ⟨before, text, groups⟩ = none := by
  rw [Option.eq_none_iff_forall_ne_some]
  intro answer ran
  obtain ⟨rest, split, onward⟩ := run_word_eq_some.mp ran
  have blank : ∃ c ∈ rest.head?, isBlank c = true := by
    by_contra solid
    push Not at solid
    rw [gap, run_oneOrMore_none] at onward
    · cases onward
    · exact fun c first => Bool.eq_false_iff.mpr (solid c first)
  obtain ⟨c, first, blank⟩ := blank
  obtain ⟨rest, rfl⟩ := List.head?_eq_some_iff.mp first
  refine other ?_
  change text = _ at split
  have letters : "oneway".toList.all isWordChar = true := by decide
  rw [split, List.takeWhile_append_of_pos (List.all_eq_true.mp letters),
    List.takeWhile_cons_of_neg (by simp [isWordChar_of_isBlank blank]), List.append_nil]

/-- What stands behind another character adds nothing to the first word. -/
theorem takeWhile_isWordChar {c : Char} (other : isWordChar c = false)
    : (front ++ c :: text).takeWhile isWordChar = front.takeWhile isWordChar := by
  rw [List.takeWhile_append, List.takeWhile_cons_of_neg (by simp [other]), List.append_nil]
  split
  · rename_i whole
    exact ((List.takeWhile_prefix _).eq_of_length whole).symm
  · rfl

/-- A method is read where its type starts. -/
theorem matchAt?_type (type : TypeText)
    : matchAt? methodPattern before (type.chars ++ ' ' :: (line.signature ++ more))
      = some ⟨some ';', more, [(2, line.name.chars), (1, type.chars)]⟩ := by
  rw [matchAt?, methodPattern_eq, run_seq]
  refine (run_optional_none fun onward => run_keyword_none ?_).trans (run_type type)
  rw [takeWhile_isWordChar (by decide)]
  exact type.keyword

/-- A method is read where a keyword starts before its type. -/
theorem matchAt?_keyword (type : TypeText)
    : matchAt? methodPattern before
          ("oneway".toList ++ ' ' :: (type.chars ++ ' ' :: (line.signature ++ more)))
        = some ⟨some ';', more, [(2, line.name.chars), (1, type.chars)]⟩ := by
  rw [matchAt?, methodPattern_eq, run_seq]
  refine run_optional_some ?_
  rw [run_seq]
  refine run_word_of_next ?_
  refine run_gap_of_next rfl (head_not_blank type.begins) ?_
  refine (if_pos ?_).trans (run_type type)
  simp only [List.length_append, List.length_cons]
  omega

-----------------------------------------------------------------------------------------
-- Texts in which no method starts
-----------------------------------------------------------------------------------------

/-- The characters that a method has before its parameters. -/
def isSignatureChar (c : Char) : Bool :=
  isBlank c || isTypeChar c

theorem isSignatureChar_of_word {c : Char} (letter : isWordChar c = true)
    : isSignatureChar c = true := by
  simp [isSignatureChar, isTypeChar, letter]

theorem isSignatureChar_of_type {c : Char} (typed : isTypeChar c = true)
    : isSignatureChar c = true := by
  simp [isSignatureChar, typed]

theorem isSignatureChar_of_blank {c : Char} (blank : isBlank c = true)
    : isSignatureChar c = true := by
  simp [isSignatureChar, blank]

/-- A keyword is missing, or it is there with blanks behind it. -/
theorem spans_keyword {taken : List Char}
    (spans : (optional (.seq (.word "oneway") gap)).Spans taken)
    : taken = []
      ∨ ∃ blanks, taken = "oneway".toList ++ blanks ∧ ∀ c ∈ blanks, isBlank c = true := by
  rcases spans_optional spans with rfl | ⟨_, blanks, rfl, word, blank⟩
  · exact .inl rfl
  · exact .inr ⟨blanks, by rw [spans_word.mp word], all_of_spans_rep blank⟩

/-- A method starts with a word character, and has a blank before its parameters. -/
theorem methodPattern_spans {taken : List Char} (spans : methodPattern.Spans taken)
    : ∃ lead rest,
        taken = lead ++ '(' :: rest
        ∧ (∀ c ∈ lead, isSignatureChar c = true)
        ∧ (∃ c ∈ lead.head?, isWordChar c = true)
        ∧ ∃ c ∈ lead, isBlank c = true := by
  rw [methodPattern_eq] at spans
  obtain ⟨keyword, _, rfl, once, _, _, rfl, ⟨_, rest, rfl, ⟨c, rfl, letter⟩, typed⟩, space, _, rfl,
    blank, signature⟩ := spans
  simp only [signaturePattern, spans_sequence_cons, spans_group, spans_char] at signature
  obtain ⟨word, _, rfl, named, between, _, rfl, maybe, _, tail, rfl, rfl, _⟩ := signature
  refine ⟨keyword ++ ([c] ++ rest ++ (space ++ (word ++ between))), tail, by simp, ?_, ?_, ?_⟩
  · have keywords : ∀ d ∈ keyword, isSignatureChar d = true := by
      rcases spans_keyword once with rfl | ⟨blanks, rfl, blank⟩
      · exact nofun
      · have letters : "oneway".toList.all isSignatureChar = true := by decide
        exact List.forall_mem_append.mpr ⟨List.all_eq_true.mp letters, fun d inside =>
          isSignatureChar_of_blank (blank d inside)⟩
    simp only [List.forall_mem_append, List.forall_mem_singleton]
    exact ⟨keywords, ⟨isSignatureChar_of_word letter,
        fun d inside => isSignatureChar_of_type (all_of_spans_rep typed d inside)⟩,
      fun d inside => isSignatureChar_of_blank (all_of_spans_rep blank d inside),
      fun d inside => isSignatureChar_of_word (all_of_spans_rep named d inside),
      fun d inside => isSignatureChar_of_blank (all_of_spans_rep maybe d inside)⟩
  · rcases spans_keyword once with rfl | ⟨blanks, rfl, _⟩
    · exact ⟨c, rfl, letter⟩
    · exact ⟨'o', rfl, by decide⟩
  · obtain ⟨d, more, rfl⟩ := List.exists_cons_of_ne_nil (ne_nil_of_spans_oneOrMore blank)
    exact ⟨d, by simp, all_of_spans_rep blank d List.mem_cons_self⟩

theorem methodPattern_reaches : Reaches methodPattern isSignatureChar '(' := by
  intro taken spans
  obtain ⟨lead, rest, split, chars, _⟩ := methodPattern_spans spans
  exact ⟨lead, rest, split, chars⟩

/-- A search for methods passes over blanks. -/
theorem Blanks.passes (blanks : Blanks) : Passes methodPattern blanks.chars := by
  refine passes_of_starts (fun taken spans => ?_) blanks.blank
  obtain ⟨lead, rest, rfl, _, ⟨c, first, letter⟩, _⟩ := methodPattern_spans spans
  exact ⟨c, by simp [List.head?_append, Option.mem_def.mp first], not_blank_of_word letter⟩

/-- It passes over a word and a parenthesis that follows at once. -/
theorem Word.passes (word : Word) : Passes methodPattern (word.chars ++ ['(']) := by
  refine passes_concat fun start ends before text => ?_
  rw [Option.eq_none_iff_forall_ne_some]
  intro found matched
  obtain ⟨_, split, spans⟩ := spans_of_matchAt? matched
  obtain ⟨lead, rest, rfl, chars, _, c, inside, blank⟩ := methodPattern_spans spans
  have within : lead ⊆ start := by
    rw [List.append_assoc] at split
    rcases List.append_eq_append_iff.mp split with ⟨more, rfl, onward⟩ | ⟨more, rfl, _⟩
    · rcases List.cons_eq_append_iff.mp onward with ⟨rfl, _⟩ | ⟨more, rfl, _⟩
      · simp
      · exact absurd (chars '(' (by simp)) (by decide)
    · exact List.subset_append_left _ _
  have letter := word.word c (ends.subset (within inside))
  rw [isWordChar_of_isBlank blank] at letter
  cases letter

-----------------------------------------------------------------------------------------
-- The methods of a text
-----------------------------------------------------------------------------------------

theorem MethodLine.not_mem_opening (line : MethodLine) {c : Char} (bracket : IsBracket c)
    : c ∉ line.lead.chars ++ (if line.oneway then "oneway ".toList else []) := by
  rw [List.mem_append]
  rintro (inside | inside)
  · exact line.lead.not_mem bracket.solid inside
  · split at inside
    · have letters : "oneway ".toList.all isTypeChar = true := by decide
      exact absurd bracket.untyped (by simp [List.all_eq_true.mp letters c inside])
    · cases inside

theorem MethodLine.not_mem_marks (line : MethodLine) {c : Char} (bracket : IsBracket c)
    : c ∉ line.lead.chars ++ line.marks := by
  rw [MethodLine.marks, ← List.append_assoc, List.mem_append]
  rintro (inside | inside)
  · exact line.not_mem_opening bracket inside
  · cases annotated : line.tag with
    | none => simp [annotated] at inside
    | some word =>
        have absent := word.not_mem bracket.noLetter
        simp [annotated, absent, bracket.noSign, bracket.noSpace] at inside

/-- A qualified type is read from behind its last dot on. -/
theorem search?_qualified (qualified : line.qualifier ≠ []) (before : Option Char)
    : search? methodPattern before (line.text ++ more)
      = some ⟨some ';', more, [(2, line.name.chars), (1, line.type.chars)]⟩ := by
  have last := List.getLast?_eq_some_getLast qualified
  obtain ⟨qualifier, dotted⟩ :=
    List.getLast?_eq_some_iff.mp (last.trans (congrArg some (line.dotted _ last)))
  have split : line.text ++ more = line.lead.chars ++ line.marks ++ qualifier ++ ['.']
      ++ (line.type.chars ++ ' ' :: (line.signature ++ more)) := by
    simp only [MethodLine.text, dotted, List.append_assoc, List.cons_append]
  have absent : '(' ∉ line.lead.chars ++ line.marks ++ qualifier := by
    rw [List.mem_append]
    rintro (inside | inside)
    · exact line.not_mem_marks (isBracket_of_mem (by decide)) inside
    · exact line.unopened (by simp [dotted, inside])
  rw [split]
  exact (methodPattern_reaches.passes absent (by decide) (by decide)).search?_eq
    (fun before => matchAt?_type line.type) before

/-- An annotated type is read from behind the sign of the annotation on. -/
theorem search?_annotated {word : Word} (unqualified : line.qualifier = [])
    (annotated : line.tag = some word) (before : Option Char)
    : search? methodPattern before (line.text ++ more)
      = some ⟨some ';', more, [(2, line.name.chars), (1, line.returns.chars)]⟩ := by
  have split : line.text ++ more
      = line.lead.chars ++ (if line.oneway then "oneway ".toList else []) ++ ['@']
        ++ (word.chars ++ ' ' :: (line.type.chars ++ ' ' :: (line.signature ++ more))) := by
    simp only [MethodLine.text, MethodLine.marks, unqualified, annotated, Option.map_some,
      Option.getD_some, List.append_assoc, List.cons_append, List.nil_append]
  rw [split]
  have absent := line.not_mem_opening (isBracket_of_mem (c := '(') (by decide))
  refine (methodPattern_reaches.passes absent (by decide) (by decide)).search?_eq (fun before => ?_)
    before
  by_cases keyword : word.chars = "oneway".toList
  · have returns : line.returns = line.type := by
      rw [MethodLine.returns, annotated]
      exact dif_pos (.inr keyword)
    rw [returns, keyword]
    exact matchAt?_keyword line.type
  · have returns : line.returns = line.type.behind word keyword := by
      rw [MethodLine.returns, annotated]
      exact dif_neg (not_or.mpr ⟨not_not.mpr unqualified, keyword⟩)
    have read : matchAt? methodPattern before
        ((line.type.behind word keyword).chars ++ ' ' :: (line.signature ++ more)) = _ :=
      matchAt?_type _
    rw [TypeText.behind_chars, List.append_assoc, List.cons_append] at read
    rw [returns, TypeText.behind_chars]
    exact read

/-- Any other type is read where it starts, behind the keyword if there is one. -/
theorem search?_plain (unqualified : line.qualifier = []) (unannotated : line.tag = none)
    (before : Option Char)
    : search? methodPattern before (line.text ++ more)
      = some ⟨some ';', more, [(2, line.name.chars), (1, line.type.chars)]⟩ := by
  have split : line.text ++ more = line.lead.chars
      ++ ((if line.oneway then "oneway ".toList else [])
        ++ (line.type.chars ++ ' ' :: (line.signature ++ more))) := by
    simp only [MethodLine.text, MethodLine.marks, unqualified, unannotated, Option.map_none,
      Option.getD_none, List.append_assoc, List.cons_append, List.nil_append]
  rw [split]
  refine line.lead.passes.search?_eq (fun before => ?_) before
  cases line.oneway with
  | true => exact matchAt?_keyword line.type
  | false => exact matchAt?_type line.type

/-- A method line is read as a method. -/
theorem search?_line (line : MethodLine) (before : Option Char) (more : List Char)
    : search? methodPattern before (line.text ++ more)
      = some ⟨some ';', more, [(2, line.name.chars), (1, line.returns.chars)]⟩ := by
  by_cases unqualified : line.qualifier = []
  · cases annotated : line.tag with
    | none =>
        rw [MethodLine.returns_of_unannotated annotated]
        exact search?_plain unqualified annotated before
    | some word => exact search?_annotated unqualified annotated before
  · rw [MethodLine.returns_of_qualified unqualified]
    exact search?_qualified unqualified before

/-- The method that is read. -/
def MethodLine.method (line : MethodLine) : Method :=
  ⟨line.returns.chars, line.name.chars⟩

theorem MethodLine.length_text_pos (line : MethodLine) : 0 < line.text.length := by
  simp only [MethodLine.text, List.length_append, List.length_cons]
  omega

/-- The methods of a text are those of its method lines, in their order, by induction on the lines. -/
theorem searchAll_lines {lines : List MethodLine} {closing : List Char}
    (passes : Passes methodPattern front) (unopened : '(' ∉ closing) {steps : Nat}
    (enough : (front ++ (lines.flatMap MethodLine.text ++ closing)).length < steps)
    (before : Option Char)
    : (searchAll methodPattern steps before
          (front ++ (lines.flatMap MethodLine.text ++ closing))).map
          (fun found => (⟨trim (found.text 1), found.text 2⟩ : Method))
        = lines.map MethodLine.method := by
  induction lines generalizing front steps before with
  | nil =>
      obtain ⟨last, onward⟩ := passes before closing
      rw [List.flatMap_nil, List.nil_append, searchAll_none]
      · rfl
      · rw [onward]
        exact methodPattern_reaches.search?_none unopened last
  | cons line lines ih =>
      cases steps with
      | zero => cases enough
      | succ steps =>
          rw [List.flatMap_cons, List.append_assoc] at enough ⊢
          obtain ⟨last, onward⟩ :=
            passes before (line.text ++ (lines.flatMap MethodLine.text ++ closing))
          have shorter : (lines.flatMap MethodLine.text ++ closing).length
              < (front ++ (line.text ++ (lines.flatMap MethodLine.text ++ closing))).length := by
            have some := line.length_text_pos
            simp only [List.length_append]
            omega
          rw [searchAll_some (onward.trans (search?_line line last _)) shorter, List.map_cons,
            List.map_cons]
          have fewer := Nat.lt_of_lt_of_le shorter (Nat.le_of_lt_succ enough)
          refine congrArg₂ List.cons ?_ (ih .nil fewer _)
          exact congrArg (Method.mk · _) line.returns.trim_chars

end Vetting.Aidl
