
/-! Why a text is no document of markup. -/

namespace Vetting.Markup

/-- Markup that is not finished or not known. -/
inductive SyntaxFault where
  | tag
  | comment
  | cdata
  | doctype
  | instruction
  | unknown
  deriving DecidableEq, Repr

/-- The wording of a fault in the syntax of markup. -/
def SyntaxFault.message : SyntaxFault → String
  | tag => "tag not closed: `>` not found before end of input"
  | comment => "comment not closed: `-->` not found before end of input"
  | cdata => "CDATA not closed: `]]>` not found before end of input"
  | doctype => "DOCTYPE not closed: `>` not found before end of input"
  | instruction =>
      "processing instruction or xml declaration not closed: `?>` not found before end of input"
  | unknown => "unknown or missed symbol in markup"

/-- Markup in the wrong place. -/
inductive FormFault where
  | doctypeWithoutName
  | unmatchedClose (name : String)
  | mismatchedClose (expected found : String)
  deriving DecidableEq, Repr

/-- The wording of a fault in the form of a document. -/
def FormFault.message : FormFault → String
  | doctypeWithoutName => "`<!DOCTYPE>` declaration does not contain a name of a document type"
  | unmatchedClose name => "close tag `</" ++ name ++ ">` does not match any open tag"
  | mismatchedClose expected found =>
      "expected `</" ++ expected ++ ">`, but `</" ++ found ++ ">` was found"

/-- Why an attribute cannot be read; positions count bytes from the start of the tag. -/
inductive AttributeFault where
  | expectedEquals (position : Nat)
  | expectedValue (position : Nat)
  | unquotedValue (position : Nat)
  | expectedQuote (position : Nat) (quote : Char)
  | duplicated (position previous : Nat)
  deriving DecidableEq, Repr

/-- The wording of a fault in an attribute. -/
def AttributeFault.message : AttributeFault → String
  | expectedEquals position =>
      start position ++ "attribute key must be directly followed by `=` or space"
  | expectedValue position => start position ++ "`=` must be followed by an attribute value"
  | unquotedValue position => start position ++ "attribute value must be enclosed in `\"` or `'`"
  | expectedQuote position quote =>
      start position ++ "missing closing quote `" ++ String.singleton quote ++ "` in attribute value"
  | duplicated position previous =>
      start position ++ "duplicated attribute, previous declaration at position "
        ++ toString previous
where
  /-- The position as it starts a message. -/
  start (position : Nat) : String := "position " ++ toString position ++ ": "

/-- Why digits are no number of 32 bits. -/
inductive NumberFault where
  | noDigits
  | badDigit
  | tooLarge
  deriving DecidableEq, Repr

/-- The wording of a fault in a number. -/
def NumberFault.message : NumberFault → String
  | noDigits => "cannot parse integer from empty string"
  | badDigit => "invalid digit found in string"
  | tooLarge => "number too large to fit in target type"

/-- Why a reference cannot be replaced; positions count bytes from the start of the text. -/
inductive ReferenceFault where
  | unterminated (first last : Nat)
  | unknown (first last : Nat) (name : String)
  | signed
  | number (fault : NumberFault)
  | noCharacter (code : Nat)
  | zero
  deriving DecidableEq, Repr

/-- The wording of a fault in a reference. -/
def ReferenceFault.message : ReferenceFault → String
  | unterminated first last =>
      "Error while escaping character at range " ++ range first last
        ++ ": Cannot find ';' after '&'"
  | unknown first last name =>
      "at " ++ range first last ++ ": unrecognized entity `" ++ name ++ "`"
  | signed => invalid "unexpected number sign"
  | number fault => invalid fault.message
  | noCharacter code => invalid ("`" ++ toString code ++ "` is not a valid codepoint")
  | zero => invalid "0x0 character is not permitted in XML"
where
  /-- A range of positions. -/
  range (first last : Nat) : String := toString first ++ ".." ++ toString last
  /-- The common start of the messages about numbers. -/
  invalid (reason : String) : String := "invalid character reference: " ++ reason

/-- Why a text is no document of markup. -/
inductive Fault where
  /-- The markup cannot be read; the byte is where reading stopped. -/
  | syntactic (fault : SyntaxFault) (byte : Nat)
  /-- The tags do not fit together; the byte is where reading stopped. -/
  | form (fault : FormFault) (byte : Nat)
  | badAttribute (element : String) (fault : AttributeFault)
  | badValue (key : String) (fault : ReferenceFault)
  | badText (fault : ReferenceFault)
  | secondRoot (name : Option String)
  | textOutside
  | unopened (name : String)
  | misnested (expected found : String)
  | unclosed (name : String)
  | noRoot
  deriving DecidableEq, Repr

/-- The wording of a fault. -/
def Fault.message : Fault → String
  | syntactic fault byte => "syntax error: " ++ fault.message ++ place byte
  | form fault byte => "ill-formed document: " ++ fault.message ++ place byte
  | badAttribute element fault => "bad attribute in <" ++ element ++ ">: " ++ fault.message
  | badValue key fault => "bad attribute value for " ++ key ++ ": " ++ fault.message
  | badText fault => "bad character data: " ++ fault.message
  | secondRoot none => "multiple root elements"
  | secondRoot (some name) => "multiple root elements (second: <" ++ name ++ ">)"
  | textOutside => "text outside of the root element"
  | unopened name => "unexpected closing tag </" ++ name ++ ">"
  | misnested expected found =>
      "mismatched closing tag: expected </" ++ expected ++ ">, found </" ++ found ++ ">"
  | unclosed name => "unclosed element <" ++ name ++ ">"
  | noRoot => "no root element"
where
  /-- Where reading stopped. -/
  place (byte : Nat) : String := " (at byte " ++ toString byte ++ ")"

end Vetting.Markup
