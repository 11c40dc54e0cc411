import Vetting.Text.Search

/-! Paths that lead to something below a directory. A path is brought to its normal form, in which
slashes join its segments; a path that could lead elsewhere has none. -/

namespace Vetting

/-- What makes a path unsafe. -/
inductive PathFlaw where
  | empty
  | absolute
  | homeRelative
  | driveQualified
  | parentTraversal
  | embeddedNul
  deriving DecidableEq, Repr

/-- The wording of a flaw. -/
def PathFlaw.reason : PathFlaw → String
  | empty => "empty path"
  | absolute => "absolute path"
  | homeRelative => "home-relative path"
  | driveQualified => "drive-qualified path"
  | parentTraversal => "parent traversal"
  | embeddedNul => "embedded NUL"

/-- A path that is unsafe, as it was written. -/
structure UnsafePath where
  written : String
  flaw : PathFlaw
  deriving DecidableEq, Repr

/-- The wording of a refusal. -/
def UnsafePath.message (p : UnsafePath) : String :=
  "unsafe path '" ++ p.written ++ "': " ++ p.flaw.reason

namespace SafePath

/-- Backslashes separate segments as slashes do. -/
def withSlashes (path : List Char) : List Char :=
  path.map fun c => if c == '\\' then '/' else c

/-- The flaw of a path as a whole. -/
def flaw? (path : List Char) : Option PathFlaw :=
  if Text.allBlank path then some .empty
  else
    match path with
    | '/' :: _ => some .absolute
    | '~' :: _ => some .homeRelative
    | drive :: ':' :: _ => if drive.isAlpha then some .driveQualified else none
    | _ => none

/-- Whether a segment leads nowhere. -/
def isIdle (segment : List Char) : Bool :=
  segment == [] || segment == ['.']

/-- The flaw of a segment. -/
def segmentFlaw? (segment : List Char) : Option PathFlaw :=
  if segment == ['.', '.'] then some .parentTraversal
  else if segment.contains '\x00' then some .embeddedNul
  else none

/-- The segments of a path that lead somewhere, from the outermost on, or its first flaw. -/
def segments (path : List Char) : Except PathFlaw (List (List Char)) :=
  let path := withSlashes path
  match flaw? path with
  | some flaw => .error flaw
  | none =>
      let parts := Text.splitChar '/' path
      match parts.findSome? segmentFlaw? with
      | some flaw => .error flaw
      | none =>
          match parts.filter fun segment => !isIdle segment with
          | [] => .error .empty
          | kept => .ok kept

/-- The segments of a path; fails with the path as it is written. -/
def parse (written : String) : Except UnsafePath (List String) :=
  match segments written.toList with
  | .ok kept => .ok (kept.map String.ofList)
  | .error flaw => .error ⟨written, flaw⟩

/-- The normal form of a path. -/
def normalize (written : String) : Except UnsafePath String :=
  (parse written).map fun kept => Text.joinWith "/" kept

end SafePath

end Vetting
