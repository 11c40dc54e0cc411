import Vetting.Heuristic.Kinds
import Vetting.Proofs.Heuristic.MethodLines

/-! Interface definitions as they are written: the package, imports, an annotation, and the interface
with its methods. Each pattern finds its part of such a text and passes over the others, so what is
found is what was written, with the methods as they are read.
-/

namespace Vetting.Aidl

open Text Pattern

-----------------------------------------------------------------------------------------
-- Written definitions
-----------------------------------------------------------------------------------------

/-- Words with dots between them. -/
structure DottedName where
  chars : List Char
  some : chars ≠ []
  allDotted : chars.all (fun c => isWordChar c || c == '.') = true

/-- An import, with the blanks before it. -/
structure ImportLine where
  lead : Blanks
  name : DottedName

/-- An annotation of an interface, with the blanks before it. -/
structure Tag where
  lead : Blanks
  name : Word
  /-- What it has in parentheses. -/
  arguments : Option (List Char)
  plain : ∀ text ∈ arguments, ∀ c ∈ text, c ∉ "()\x7b\x7d".toList

/-- An interface definition. -/
structure InterfaceText where
  lead : Blanks
  package : DottedName
  imports : List ImportLine
  tag : Option Tag
  /-- The blanks before the interface. -/
  headLead : Blanks
  name : Word
  methods : List MethodLine
  closing : Blanks
  trailing : Blanks
  apart : tag ≠ none → headLead.chars ≠ []

/-- A keyword and a dotted name, with blanks before them. -/
def keywordLine (lead : Blanks) (keyword : String) (name : DottedName) : List Char :=
  lead.chars ++ (keyword.toList ++ ' ' :: (name.chars ++ [';']))

def ImportLine.text (line : ImportLine) : List Char :=
  keywordLine line.lead "import" line.name

def Tag.text (tag : Tag) : List Char :=
  tag.lead.chars ++ '@' :: (tag.name.chars
    ++ (tag.arguments.map fun text => '(' :: (text ++ [')'])).getD [])

namespace InterfaceText

/-- The package. -/
def packageText (d : InterfaceText) : List Char :=
  keywordLine d.lead "package" d.package

/-- The annotation, where there is one. -/
def tagText (d : InterfaceText) : List Char :=
  (d.tag.map Tag.text).getD []

/-- The interface up to its opening brace, without the blanks before it. -/
def head (d : InterfaceText) : List Char :=
  "interface".toList ++ ' ' :: (d.name.chars ++ [' ', '\x7b'])

/-- What comes after the methods. -/
def closingText (d : InterfaceText) : List Char :=
  d.closing.chars ++ '\x7d' :: d.trailing.chars

/-- The definition as it is written. -/
def text (d : InterfaceText) : List Char :=
  d.packageText ++ (d.imports.flatMap ImportLine.text ++ (d.tagText ++ (d.headLead.chars
    ++ (d.head ++ (d.methods.flatMap MethodLine.text ++ d.closingText)))))

end InterfaceText

variable {d : InterfaceText} {pattern : Pattern} {kind : Char → Bool} {mark : Char}
  {more : List Char} {groups : List (Nat × List Char)}

-----------------------------------------------------------------------------------------
-- The package
-----------------------------------------------------------------------------------------

theorem DottedName.dotted (name : DottedName)
    : ∀ c ∈ name.chars, (isWordChar c || c == '.') = true :=
  List.all_eq_true.mp name.allDotted

theorem DottedName.not_mem (name : DottedName) {c : Char} (other : isWordChar c = false)
    (noDot : c ≠ '.')
    : c ∉ name.chars := by
  intro inside
  have dotted := name.dotted c inside
  rw [other, Bool.false_or, beq_iff_eq] at dotted
  exact noDot dotted

theorem DottedName.head_not_blank (name : DottedName)
    : ∀ c ∈ (name.chars ++ more).head?, isBlank c = false := by
  obtain ⟨c, rest, split⟩ := List.exists_cons_of_ne_nil name.some
  rw [split]
  rintro _ ⟨⟩
  have dotted := name.dotted c (by simp [split])
  rw [Bool.or_eq_true, beq_iff_eq] at dotted
  rcases dotted with letter | rfl
  · exact not_blank_of_word letter
  · decide

theorem matchAt?_package (d : InterfaceText) (more : List Char)
    : packagePattern.matchAt? none (d.packageText ++ more)
      = some ⟨some ';', more, [(1, d.package.chars)]⟩ := by
  rw [InterfaceText.packageText, keywordLine, List.append_assoc, List.append_assoc,
    List.cons_append, List.append_assoc, matchAt?, packagePattern, run_sequence_cons, run_lineStart,
    run_sequence_cons, maybeGap]
  refine run_zeroOrMore_of_next d.lead.blank (by rintro _ ⟨⟩; decide) ?_
  rw [run_sequence_cons]
  refine run_word_of_next ?_
  rw [run_sequence_cons]
  refine run_gap_of_next rfl d.package.head_not_blank ?_
  rw [run_sequence_cons]
  refine run_group_oneOrMore_of_next d.package.some d.package.dotted (by rintro _ ⟨⟩; decide) ?_
  rw [run_sequence_cons, run_zeroOrMore_none (by rintro _ ⟨⟩; decide)]
  exact run_char_eq_some.mpr ⟨more, rfl, rfl⟩

/-- The package is found where the text starts. -/
theorem first?_package (d : InterfaceText)
    : ∃ found, packagePattern.first? d.text = some found ∧ found.text 1 = d.package.chars :=
  ⟨_, search?_of_matchAt? (matchAt?_package d _), rfl⟩

-----------------------------------------------------------------------------------------
-- The interface
-----------------------------------------------------------------------------------------

/-- The characters that an interface has before its opening brace. -/
def isHeadChar (c : Char) : Bool :=
  isBlank c || isWordChar c || c == '@'

/-- An annotation of an interface. -/
def tagPattern : Pattern :=
  .sequence [.char '@', name, maybeGap]

/-- What an interface has behind its annotations. -/
def headPattern : Pattern :=
  .sequence [.word "interface", gap, .group 1 name, maybeGap, .char '{']

theorem interfacePattern_eq
    : interfacePattern = .seq (.zeroOrMore tagPattern) headPattern :=
  rfl

theorem isHeadChar_of_blank {c : Char} (blank : isBlank c = true) : isHeadChar c = true := by
  simp [isHeadChar, blank]

theorem isHeadChar_of_word {c : Char} (letter : isWordChar c = true) : isHeadChar c = true := by
  simp [isHeadChar, letter]

/-- An annotation starts with its sign, and a word and blanks follow. -/
theorem spans_tag {taken : List Char}
    (spans : tagPattern.Spans taken)
    : ∃ rest, taken = '@' :: rest ∧ ∀ c ∈ rest, isHeadChar c = true := by
  simp only [tagPattern, spans_sequence_cons, spans_char] at spans
  obtain ⟨_, _, rfl, rfl, word, _, rfl, named, between, _, rfl, maybe, rfl⟩ := spans
  refine ⟨word ++ (between ++ []), rfl, ?_⟩
  simp only [List.append_nil, List.forall_mem_append]
  exact ⟨fun c inside => isHeadChar_of_word (all_of_spans_rep named c inside),
    fun c inside => isHeadChar_of_blank (all_of_spans_rep maybe c inside)⟩

/-- An interface starts with no blank, and before its opening brace there are only words, signs and
blanks.
-/
theorem interfacePattern_spans {taken : List Char} (spans : interfacePattern.Spans taken)
    : ∃ lead,
        taken = lead ++ ['{']
        ∧ (∀ c ∈ lead, isHeadChar c = true)
        ∧ ∃ c ∈ lead.head?, isBlank c = false := by
  rw [interfacePattern_eq] at spans
  obtain ⟨tags, _, rfl, parts, head⟩ := spans
  simp only [headPattern, spans_sequence_cons, spans_group, spans_char, spans_word] at head
  obtain ⟨_, _, rfl, rfl, space, _, rfl, blank, word, _, rfl, named, between, _, rfl, maybe, _, _, rfl,
    rfl, rfl⟩ := head
  refine ⟨tags ++ ("interface".toList ++ (space ++ (word ++ between))), by simp, ?_, ?_⟩
  · have signs : ∀ c ∈ tags, isHeadChar c = true := by
      refine forall_of_spans_rep (fun part spans => ?_) parts
      obtain ⟨rest, rfl, others⟩ := spans_tag spans
      exact List.forall_mem_cons.mpr ⟨by decide, others⟩
    simp only [List.forall_mem_append]
    have letters : "interface".toList.all isHeadChar = true := by decide
    exact ⟨signs, List.all_eq_true.mp letters,
      fun c inside => isHeadChar_of_blank (all_of_spans_rep blank c inside),
      fun c inside => isHeadChar_of_word (all_of_spans_rep named c inside),
      fun c inside => isHeadChar_of_blank (all_of_spans_rep maybe c inside)⟩
  · have starts : tags = [] ∨ ∃ c ∈ tags.head?, c = '@' := by
      refine head_of_spans_rep (fun part spans => ?_) parts
      obtain ⟨rest, rfl, _⟩ := spans_tag spans
      exact ⟨'@', rfl, rfl⟩
    rcases starts with rfl | ⟨_, first, rfl⟩
    · exact ⟨'i', rfl, by decide⟩
    · obtain ⟨rest, rfl⟩ := List.head?_eq_some_iff.mp first
      exact ⟨'@', rfl, by decide⟩

theorem interfacePattern_reaches : Reaches interfacePattern isHeadChar '{' := by
  intro taken spans
  obtain ⟨lead, rfl, chars, _⟩ := interfacePattern_spans spans
  exact ⟨lead, [], rfl, chars⟩

/-- A search for an interface passes over blanks. -/
theorem Blanks.passes_interface (blanks : Blanks) : Passes interfacePattern blanks.chars := by
  refine passes_of_starts (fun taken spans => ?_) blanks.blank
  obtain ⟨lead, rfl, _, c, first, solid⟩ := interfacePattern_spans spans
  exact ⟨c, by simp [List.head?_append, Option.mem_def.mp first], solid⟩

theorem run_head (d : InterfaceText) (before : Option Char) (more : List Char)
    : run headPattern some ⟨before, d.head ++ more, []⟩
      = some ⟨some '{', more, [(1, d.name.chars)]⟩ := by
  unfold InterfaceText.head
  rw [List.append_assoc, List.cons_append, List.append_assoc, headPattern, run_sequence_cons]
  refine run_word_of_next ?_
  rw [run_sequence_cons]
  refine run_gap_of_next rfl (head_not_blank d.name.begins) ?_
  rw [run_sequence_cons]
  refine run_group_oneOrMore_of_next d.name.some d.name.word (by rintro _ ⟨⟩; decide) ?_
  rw [run_sequence_cons, maybeGap]
  change run (.zeroOrMore _) _ ⟨_, [' '] ++ '\x7b' :: more, _⟩ = _
  refine run_zeroOrMore_of_next (List.forall_mem_singleton.mpr rfl) (by rintro _ ⟨⟩; decide) ?_
  exact run_char_eq_some.mpr ⟨more, rfl, rfl⟩

theorem head?_head (d : InterfaceText) (more : List Char) : (d.head ++ more).head? = some 'i' := by
  unfold InterfaceText.head
  rw [List.append_assoc]
  rfl

theorem run_tag_none {β : Type} {next : Continuation β} (d : InterfaceText)
    (before : Option Char) (more : List Char)
    : run tagPattern next ⟨before, d.head ++ more, groups⟩ = none := by
  rw [tagPattern, run_sequence_cons]
  exact run_char_none (by rw [head?_head]; decide)

theorem matchAt?_head (d : InterfaceText) (before : Option Char) (more : List Char)
    : interfacePattern.matchAt? before (d.head ++ more)
      = some ⟨some '{', more, [(1, d.name.chars)]⟩ := by
  rw [matchAt?, interfacePattern_eq, run_seq,
    run_zeroOrMore_of_none fun _ => run_tag_none d before more]
  exact run_head d before more

/-- An interface is found from its annotation on when nothing is in parentheses there. -/
theorem matchAt?_tag (word : Word) (apart : d.headLead.chars ≠ []) (before : Option Char)
    (more : List Char)
    : interfacePattern.matchAt? before
          ('@' :: (word.chars ++ (d.headLead.chars ++ (d.head ++ more))))
        = some ⟨some '{', more, [(1, d.name.chars)]⟩ := by
  rw [matchAt?, interfacePattern_eq, run_seq]
  refine moreRounds_some ?_
  rw [tagPattern, run_sequence_cons]
  refine run_char_eq_some.mpr ⟨_, rfl, ?_⟩
  rw [run_sequence_cons]
  refine run_oneOrMore_of_next word.some word.word ?_ ?_
  · obtain ⟨c, rest, split⟩ := List.exists_cons_of_ne_nil apart
    rw [split]
    rintro _ ⟨⟩
    exact isWordChar_of_isBlank (d.headLead.blank c (by simp [split]))
  · refine run_zeroOrMore_of_next d.headLead.blank ?_ ?_
    · rw [head?_head]
      rintro _ ⟨⟩
      decide
    · refine (if_pos ?_).trans ?_
      · simp only [List.length_append, List.length_cons]
        omega
      · rw [← tagPattern]
        exact (moreRounds_of_none (fun _ => run_tag_none d _ more) _).trans
          (run_head d _ more)

theorem keywordLine_eq (lead : Blanks) (keyword : String) (name : DottedName)
    : keywordLine lead keyword name
      = lead.chars ++ (keyword.toList ++ ' ' :: name.chars) ++ [';'] := by
  simp only [keywordLine, List.append_assoc, List.cons_append]

/-- No brackets stand in a keyword with blanks before it and a dotted name behind it. -/
theorem IsBracket.not_mem {c : Char} (bracket : IsBracket c) (lead : Blanks) {keyword : String}
    (letters : keyword.toList.all isWordChar = true) (name : DottedName)
    : c ∉ lead.chars ++ (keyword.toList ++ ' ' :: name.chars) := by
  simp only [List.mem_append, List.mem_cons, not_or]
  refine ⟨lead.not_mem bracket.solid, fun inside => ?_, bracket.noSpace,
    name.not_mem bracket.noLetter bracket.noDot⟩
  exact absurd bracket.noLetter (by simp [List.all_eq_true.mp letters c inside])

theorem IsBracket.not_mem_keywordLine {c : Char} (bracket : IsBracket c) (lead : Blanks)
    {keyword : String} (letters : keyword.toList.all isWordChar = true) (name : DottedName)
    : c ∉ keywordLine lead keyword name := by
  rw [keywordLine_eq, List.mem_append, not_or, List.mem_singleton]
  exact ⟨bracket.not_mem lead letters name, bracket.noStop⟩

/-- A search for what is in brackets passes over a keyword and its name. -/
theorem keywordLine_passes (reaches : Reaches pattern kind mark) (bracket : IsBracket mark)
    (barred : kind ';' = false) (lead : Blanks) {keyword : String}
    (letters : keyword.toList.all isWordChar = true) (name : DottedName)
    : Passes pattern (keywordLine lead keyword name) := by
  rw [keywordLine_eq]
  exact reaches.passes (bracket.not_mem lead letters name) bracket.noStop.symm barred

/-- So it passes over the package and the imports. -/
theorem passes_front (d : InterfaceText) (reaches : Reaches pattern kind mark)
    (bracket : IsBracket mark) (barred : kind ';' = false)
    : Passes pattern (d.packageText ++ d.imports.flatMap ImportLine.text) :=
  .append (keywordLine_passes reaches bracket barred _ (by decide) _)
    (.flatMap fun _ _ => keywordLine_passes reaches bracket barred _ (by decide) _)

theorem Tag.not_mem_arguments {tag : Tag} {arguments : List Char} {c : Char}
    (given : tag.arguments = some arguments) (bracket : c ∈ "()\x7b\x7d".toList)
    : c ∉ arguments :=
  fun inside => tag.plain arguments given c inside bracket

/-- An interface is found behind the package and the imports. -/
theorem search?_interface (d : InterfaceText) (before : Option Char) (more : List Char)
    : interfacePattern.search? before
          (d.tagText ++ (d.headLead.chars ++ (d.head ++ more)))
        = some ⟨some '\x7b', more, [(1, d.name.chars)]⟩ := by
  rw [InterfaceText.tagText]
  cases annotated : d.tag with
  | none => exact d.headLead.passes_interface.search?_eq (matchAt?_head d · more) before
  | some tag =>
      rw [Option.map_some, Option.getD_some, Tag.text]
      cases given : tag.arguments with
      | none =>
          have apart := d.apart (by simp [annotated])
          rw [Option.map_none, Option.getD_none, List.append_nil, List.append_assoc,
            List.cons_append]
          exact tag.lead.passes_interface.search?_eq
            (matchAt?_tag tag.name apart · more) before
      | some arguments =>
          -- What is in parentheses keeps the annotation apart from the interface.
          have split : tag.lead.chars ++ '@' :: (tag.name.chars
                ++ '(' :: (arguments ++ [')'])) ++ (d.headLead.chars ++ (d.head ++ more))
              = tag.lead.chars ++ '@' :: (tag.name.chars ++ '(' :: arguments) ++ [')']
                ++ d.headLead.chars ++ (d.head ++ more) := by
            simp only [List.append_assoc, List.cons_append, List.nil_append]
          have absent : '\x7b' ∉ tag.lead.chars
              ++ '@' :: (tag.name.chars ++ '(' :: arguments) := by
            simp only [List.mem_append, List.mem_cons, not_or]
            exact ⟨tag.lead.not_mem (by decide), by decide,
              tag.name.not_mem (by decide), by decide,
              tag.not_mem_arguments given (by decide)⟩
          rw [Option.map_some, Option.getD_some, split]
          exact ((interfacePattern_reaches.passes absent (by decide) (by decide)).append
            d.headLead.passes_interface).search?_eq (matchAt?_head d · more) before

/-- The interface is found behind the package and the imports. -/
theorem first?_interface (d : InterfaceText)
    : ∃ found, interfacePattern.first? d.text = some found ∧ found.text 1 = d.name.chars := by
  obtain ⟨last, onward⟩ :=
    passes_front d interfacePattern_reaches (isBracket_of_mem (by decide)) (by decide) none
      (d.tagText ++ (d.headLead.chars
        ++ (d.head ++ (d.methods.flatMap MethodLine.text ++ d.closingText))))
  rw [List.append_assoc] at onward
  exact ⟨_, onward.trans (search?_interface d last _), rfl⟩

-----------------------------------------------------------------------------------------
-- The methods
-----------------------------------------------------------------------------------------

/-- A search for methods passes over the interface up to its opening brace, behind a text that is
without parentheses.
-/
theorem passes_head (d : InterfaceText) {front : List Char} (unopened : '(' ∉ front)
    : Passes methodPattern (front ++ (d.headLead.chars ++ d.head)) := by
  have split : front ++ (d.headLead.chars ++ d.head) = front ++ (d.headLead.chars
      ++ ("interface".toList ++ ' ' :: (d.name.chars ++ [' ']))) ++ ['\x7b'] := by
    unfold InterfaceText.head
    simp only [List.append_assoc, List.cons_append, List.nil_append]
  rw [split]
  refine methodPattern_reaches.passes ?_ (by decide) (by decide)
  simp only [List.mem_append, List.mem_cons, List.not_mem_nil, not_or]
  exact ⟨unopened, d.headLead.not_mem (by decide), by decide, by decide,
    d.name.not_mem (by decide), by decide, not_false⟩

/-- It passes over the annotation and the interface up to its opening brace. -/
theorem passes_interface (d : InterfaceText)
    : Passes methodPattern (d.tagText ++ (d.headLead.chars ++ d.head)) := by
  rw [InterfaceText.tagText]
  cases d.tag with
  | none => exact passes_head d (by simp)
  | some tag =>
      rw [Option.map_some, Option.getD_some, Tag.text]
      cases given : tag.arguments with
      | none =>
          refine passes_head d ?_
          simp only [Option.map_none, Option.getD_none, List.append_nil, List.mem_append,
            List.mem_cons, not_or]
          exact ⟨tag.lead.not_mem (by decide), by decide, tag.name.not_mem (by decide)⟩
      | some arguments =>
          have split : tag.lead.chars ++ '@' :: (tag.name.chars
                ++ '(' :: (arguments ++ [')'])) ++ (d.headLead.chars ++ d.head)
              = tag.lead.chars ++ ['@'] ++ (tag.name.chars ++ ['(']
                ++ (arguments ++ [')'] ++ ([] ++ (d.headLead.chars ++ d.head)))) := by
            simp only [List.append_assoc, List.cons_append, List.nil_append]
          rw [Option.map_some, Option.getD_some, split]
          refine .append ?_ (.append tag.name.passes (.append ?_ (passes_head d (by simp))))
          · exact methodPattern_reaches.passes (tag.lead.not_mem (by decide)) (by decide)
              (by decide)
          · exact methodPattern_reaches.passes (tag.not_mem_arguments given (by decide))
              (by decide) (by decide)

/-- The methods that are read are those of the method lines. -/
theorem methods_text (d : InterfaceText) : methods d.text = d.methods.map MethodLine.method := by
  have split : d.text = d.packageText ++ d.imports.flatMap ImportLine.text
      ++ (d.tagText ++ (d.headLead.chars ++ d.head))
      ++ (d.methods.flatMap MethodLine.text ++ d.closingText) := by
    simp only [InterfaceText.text, List.append_assoc]
  have passes := (passes_front d methodPattern_reaches (isBracket_of_mem (by decide))
    (by decide)).append (passes_interface d)
  have closed : '(' ∉ d.closingText := by
    simp only [InterfaceText.closingText, List.mem_append, List.mem_cons, not_or]
    exact ⟨d.closing.not_mem (by decide), by decide, d.trailing.not_mem (by decide)⟩
  rw [split]
  exact searchAll_lines passes closed (Nat.lt_succ_self _) none

-----------------------------------------------------------------------------------------
-- What is found in a definition
-----------------------------------------------------------------------------------------

theorem countChar_of_not_mem {text : List Char} {c : Char} (absent : c ∉ text)
    : countChar text c = 0 :=
  List.count_eq_zero_of_not_mem absent

theorem countChar_append (front back : List Char) (c : Char)
    : countChar (front ++ back) c = countChar front c + countChar back c :=
  List.count_append

theorem countChar_cons (d : Char) (rest : List Char) (c : Char)
    : countChar (d :: rest) c = countChar rest c + if d == c then 1 else 0 :=
  List.count_cons

/-- The parts of a method in which braces may stand. -/
def MethodLine.openParts (line : MethodLine) : List Char :=
  line.qualifier ++ line.parameters

theorem isBracket_of_brace {c : Char} (brace : c = '\x7b' ∨ c = '\x7d') : IsBracket c := by
  rcases brace with rfl | rfl <;> exact isBracket_of_mem (by decide)

theorem MethodLine.countChar_text (line : MethodLine) {c : Char} (brace : c = '\x7b' ∨ c = '\x7d')
    : countChar line.text c = countChar line.openParts c := by
  have bracket := isBracket_of_brace brace
  have marks := countChar_of_not_mem (line.not_mem_marks bracket)
  have type := countChar_of_not_mem (line.type.not_mem bracket.untyped)
  have name := countChar_of_not_mem (line.name.not_mem bracket.noLetter)
  have stops : countChar [')', ';'] c = 0 ∧ (' ' == c) = false ∧ ('(' == c) = false := by
    rcases brace with rfl | rfl <;> decide
  rw [MethodLine.text, ← List.append_assoc, MethodLine.signature]
  rw [countChar_append] at marks
  simp only [countChar_append, countChar_cons, marks, type, name, stops, MethodLine.openParts]
  simp

theorem not_mem_imports (d : InterfaceText) {c : Char} (bracket : IsBracket c)
    : c ∉ d.imports.flatMap ImportLine.text := by
  rw [List.mem_flatMap]
  rintro ⟨line, _, inside⟩
  exact bracket.not_mem_keywordLine _ (by decide) _ inside

theorem not_mem_tagText (d : InterfaceText) {c : Char} (brace : c = '\x7b' ∨ c = '\x7d')
    : c ∉ d.tagText := by
  have bracket := isBracket_of_brace brace
  have others : c ∉ ['(', ')'] ∧ c ∈ "()\x7b\x7d".toList := by rcases brace with rfl | rfl <;> decide
  rw [InterfaceText.tagText]
  cases d.tag with
  | none => simp
  | some tag =>
      have lead := tag.lead.not_mem bracket.solid
      have name := tag.name.not_mem bracket.noLetter
      rw [Option.map_some, Option.getD_some, Tag.text]
      cases given : tag.arguments with
      | none => simp [lead, name, bracket.noSign]
      | some arguments =>
          have arguments := tag.not_mem_arguments given others.2
          simpa [lead, name, bracket.noSign, arguments] using others.1

/-- A definition has one brace of each kind besides those that stand in its methods. -/
theorem countChar_text (d : InterfaceText) {c : Char} (brace : c = '\x7b' ∨ c = '\x7d')
    : countChar d.text c = 1 + countChar (d.methods.flatMap MethodLine.openParts) c := by
  have bracket := isBracket_of_brace brace
  have package : countChar d.packageText c = 0 :=
    countChar_of_not_mem (bracket.not_mem_keywordLine _ (by decide) _)
  have methods : countChar (d.methods.flatMap MethodLine.text) c
      = countChar (d.methods.flatMap MethodLine.openParts) c := by
    rw [countChar, countChar, List.countP_flatMap, List.countP_flatMap]
    exact congrArg (fun f => (d.methods.map f).sum) (funext fun line => line.countChar_text brace)
  have ends : countChar d.head c + countChar d.closingText c = 1 := by
    have name := countChar_of_not_mem (d.name.not_mem bracket.noLetter)
    have closing := countChar_of_not_mem (d.closing.not_mem bracket.solid)
    have trailing := countChar_of_not_mem (d.trailing.not_mem bracket.solid)
    unfold InterfaceText.head InterfaceText.closingText
    simp only [countChar_append, countChar_cons, name, closing, trailing]
    rcases brace with rfl | rfl <;> decide
  rw [InterfaceText.text]
  simp only [countChar_append, package, methods, countChar_of_not_mem (not_mem_imports d bracket),
    countChar_of_not_mem (not_mem_tagText d brace),
    countChar_of_not_mem (d.headLead.not_mem bracket.solid)]
  omega

theorem packageFindings_text (d : InterfaceText)
    : packageFindings d.text
      = .credit 20 1 ::
          if isLowerDotted d.package.chars then []
          else
            [.fault
              ("Package " ++ quoted d.package.chars ++ " should be lowercase.dot.separated")] := by
  obtain ⟨found, search, package⟩ := first?_package d
  simp only [packageFindings, search, package]

theorem interfaceFindings_text (d : InterfaceText)
    : interfaceFindings d.text
      = .credit 25 1 ::
          if d.name.chars.head? == some 'I' then []
          else
            [.fault ("Interface " ++ quoted d.name.chars
              ++ " should start with 'I' per AIDL convention")] := by
  obtain ⟨found, search, name⟩ := first?_interface d
  simp only [interfaceFindings, search, name]

end Vetting.Aidl
