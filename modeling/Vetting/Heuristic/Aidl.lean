import Vetting.Heuristic.Assessment
import Vetting.Pattern.Search
import Vetting.Text.Search

/-! Interface definitions in AIDL. The package, the interface and the methods are found by patterns,
so a method is whatever looks like one, wherever it stands. -/

namespace Vetting.Aidl

open Vetting.Text
open Vetting.Pattern (gap maybeGap name)

/-- Types that a method may return; any name that starts with a capital letter is one too. -/
def plainTypes : List String :=
  ["void", "boolean", "byte", "char", "short", "int", "long", "float", "double", "String", "byte[]",
    "int[]", "long[]", "IBinder", "ParcelableHolder", "FileDescriptor"]

/-- The package at the start of a line; its name is group 1. -/
def packagePattern : Pattern :=
  .sequence [.lineStart, maybeGap, .word "package", gap,
    .group 1 (.oneOrMore (.one fun c => isWordChar c || c == '.')), maybeGap, .char ';']

/-- The head of an interface, with its annotations; its name is group 1. -/
def interfacePattern : Pattern :=
  .sequence [.zeroOrMore (.sequence [.char '@', name, maybeGap]), .word "interface", gap,
    .group 1 name, maybeGap, .char '\x7b']

/-- A method; its type is group 1 and its name group 2. -/
def methodPattern : Pattern :=
  .sequence [.optional (.seq (.word "oneway") gap),
    .group 1 (.seq (.one isWordChar)
      (.zeroOrMore (.one fun c => isWordChar c || "<>[], ".toList.contains c))),
    gap, .group 2 name, maybeGap, .char '(', .zeroOrMore (.one (· != ')')), .char ')', maybeGap,
    .char ';']

/-- A part of a package name: a small letter, then small letters and digits. -/
def isLowerPart : List Char → Bool
  | [] => false
  | c :: rest => c.isLower && rest.all fun d => d.isLower || d.isDigit

/-- Whether a package name has small letters in all its parts. -/
def isLowerDotted (package : List Char) : Bool :=
  (splitChar '.' package).all isLowerPart

/-- A method: its return type and its name. -/
structure Method where
  returns : List Char
  name : List Char
  deriving DecidableEq, Repr

/-- The methods of a text. -/
def methods (code : List Char) : List Method :=
  (methodPattern.all code).map fun found => ⟨trim (found.text 1), found.text 2⟩

/-- The return type of a method without its arguments in angle brackets. -/
def Method.baseType (m : Method) : List Char :=
  trim (m.returns.takeWhile (· != '<'))

/-- Whether a type may be returned. -/
def typeAllowed (base : List Char) : Bool :=
  plainTypes.contains (String.ofList base) || (base.head?.map isUpper).getD false

/-- Text between apostrophes. -/
def quoted (text : List Char) : String :=
  "'" ++ String.ofList text ++ "'"

/-- What is found about the package. -/
def packageFindings (code : List Char) : List Finding :=
  match packagePattern.first? code with
  | none => [.fault "Missing package declaration, e.g. 'package vendor.vss.adas;'"]
  | some found =>
      .credit 20 1 ::
        if isLowerDotted (found.text 1) then []
        else [.fault ("Package " ++ quoted (found.text 1) ++ " should be lowercase.dot.separated")]

/-- What is found about the interface. -/
def interfaceFindings (code : List Char) : List Finding :=
  match interfacePattern.first? code with
  | none => [.fault "No interface block found; expected: 'interface IName \x7b ... \x7d'"]
  | some found =>
      .credit 25 1 ::
        if (found.text 1).head? == some 'I' then []
        else
          [.fault ("Interface " ++ quoted (found.text 1)
            ++ " should start with 'I' per AIDL convention")]

/-- What is found about the methods; at most three suspicious types are named. -/
def methodFindings (methods : List Method) : List Finding :=
  if methods.isEmpty then
    [.fault "No method signatures found; expected: 'ReturnType method(args);'"]
  else
    let suspicious := methods.filter fun m => !typeAllowed m.baseType
    .credit 20 1 ::
      if suspicious.isEmpty then [.credit 15 1]
      else
        (suspicious.take 3).map fun m =>
          .fault ("Suspicious AIDL type " ++ quoted m.baseType ++ " in " ++ quoted m.name)

/-- Assesses an interface definition. -/
def assess (code : List Char) : Assessment :=
  let methods := methods code
  .graded
    (packageFindings code ++ interfaceFindings code ++ Finding.braces code 10
      ++ methodFindings methods ++ Finding.bonus (has code "@VintfStability") 10)
    (toString methods.length ++ " methods parsed")

end Vetting.Aidl
