import Vetting.Text.Utf8

/-! Paths of files, as bytes: names with slashes between them. A path keeps the way it is written,
and messages show it so. -/

namespace Vetting

/-- Some bytes. -/
abbrev Bytes := List UInt8

/-- A path. -/
structure Path where
  bytes : Bytes
  deriving DecidableEq, Repr, Inhabited

namespace Path

/-- The byte between names. -/
def slash : UInt8 := 0x2F

/-- The name of the directory that a path has reached. -/
def dot : Bytes := [0x2E]

/-- The name of the directory above the one that a path has reached. -/
def dotDot : Bytes := [0x2E, 0x2E]

/-- The bytes of a text. -/
def bytesOf (text : String) : Bytes :=
  Text.encode text.toList

/-- The path that is written as a text. -/
def ofString (text : String) : Path :=
  ⟨bytesOf text⟩

/-- How bytes are displayed. -/
def textOf (bytes : Bytes) : String :=
  String.ofList (Text.decodeLossy bytes)

/-- How a path is displayed. -/
def text (path : Path) : String :=
  textOf path.bytes

/-- Whether nothing is written. -/
def isEmpty (path : Path) : Bool :=
  path.bytes.isEmpty

/-- Whether a path starts at the root. -/
def isAbsolute (path : Path) : Bool :=
  path.bytes.head? == some slash

/-- Whether a path ends with a slash. -/
def endsOpen (path : Path) : Bool :=
  path.bytes.getLast? == some slash

/-- The pieces of bytes between separators. -/
def pieces (separator : UInt8) : Bytes → List Bytes
  | [] => [[]]
  | b :: rest =>
      if b == separator then [] :: pieces separator rest
      else
        match pieces separator rest with
        | [] => [[b]]
        | piece :: others => (b :: piece) :: others

/-- The names along a path. A slash at the end is one more step to where the path has led. -/
def names (path : Path) : List Bytes :=
  let written := (pieces slash path.bytes).filter fun name => !name.isEmpty
  if path.endsOpen && !written.isEmpty then written ++ [dot] else written

/-- The path of what has a name, or a path of its own, in a directory. -/
def join (directory : Path) (name : Bytes) : Path :=
  if directory.isEmpty || name.head? == some slash then ⟨name⟩
  else if directory.endsOpen then ⟨directory.bytes ++ name⟩
  else ⟨directory.bytes ++ slash :: name⟩

/-- A path of names below a directory. -/
def below (directory : Path) (names : List Bytes) : Path :=
  names.foldl join directory

/-- Drops slashes and idle steps from the end of a path that is held from its end on. The only
step of a path is kept, and so is its first slash. -/
def trimBack : Bytes → Bytes
  | b :: c :: rest =>
      if b == slash then trimBack (c :: rest)
      else if b == 0x2E && c == slash then trimBack (c :: rest)
      else b :: c :: rest
  | written => written

/-- The path of the directory in which a path ends, none for a path without names. -/
def parent? (path : Path) : Option Path :=
  let back := trimBack path.bytes.reverse
  if back == [slash] || back.isEmpty then none
  else some ⟨(trimBack (back.dropWhile (· != slash))).reverse⟩

/-- A path and the directories above it, the innermost one first. -/
def ancestors (path : Path) : List Path :=
  go path.bytes.length path
where
  /-- Goes up at most a number of times. -/
  go : Nat → Path → List Path
    | 0, path => [path]
    | count + 1, path =>
        match path.parent? with
        | none => [path]
        | some parent => path :: go count parent

end Path

end Vetting
