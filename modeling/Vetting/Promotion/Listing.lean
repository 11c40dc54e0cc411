import Vetting.Files.Resolve
import Vetting.Promotion.Fault

/-! The files of a draft. The walk through a draft follows no links; what it cannot take over, it
refuses with a reason. -/

namespace Vetting

/-- Why an entry of a draft is refused. -/
inductive Refusal where
  /-- Its name is no text. -/
  | notText
  | link
  /-- It is neither a file nor a directory. -/
  | notRegular
  | unsafePath (path : UnsafePath)
  deriving DecidableEq, Repr

/-- The wording of a refusal. -/
def Refusal.reason : Refusal → String
  | notText => "non UTF-8 name"
  | link => "symbolic link"
  | notRegular => "not a regular file"
  | unsafePath path => path.message

/-- What a draft holds. -/
structure DraftListing where
  /-- The paths of the files, in normal form and sorted. -/
  files : List String
  /-- The paths of refused entries with the reasons, sorted. -/
  refused : List (String × Refusal)
  deriving DecidableEq, Repr

namespace DraftListing

/-- What a walk finds at an entry. -/
inductive Found where
  | file (path : String)
  | refused (path : String) (refusal : Refusal)
  deriving DecidableEq, Repr

/-- The bytes of names with slashes between them. -/
def joined (names : List Bytes) : Bytes :=
  [Path.slash].intercalate names

/-- The path of names that are texts. -/
def pathOf? (names : List Bytes) : Option String :=
  (Text.decode? (joined names)).map fun path => String.ofList (SafePath.withSlashes path)

/-- What is found at an entry that is no directory. -/
def inspect (path : String) : Entry → Found
  | .file _ _ =>
      match SafePath.normalize path with
      | .ok normal => .file normal
      | .error unsafePath => .refused path (.unsafePath unsafePath)
  | .link _ => .refused path .link
  | _ => .refused path .notRegular

/-- Walks through a directory, at most to a depth, with the names that lead to it. -/
def walk (tree : FileTree) : Nat → Place → List Bytes → List Found
  | 0, _, _ => []
  | depth + 1, directory, above =>
      (tree.children directory).flatMap fun (name, entry) =>
        let names := above ++ [name]
        match pathOf? names, entry with
        | none, _ => [.refused (Path.textOf (joined names)) .notText]
        | some _, .directory _ => walk tree depth (directory ++ [name]) names
        | some path, entry => [inspect path entry]

/-- The listing of what a walk found. -/
def ofFound (found : List Found) : DraftListing where
  files := (found.filterMap fun
    | .file path => some path
    | .refused _ _ => none).mergeSort fun a b => a ≤ b
  refused := (found.filterMap fun
    | .file _ => none
    | .refused path refusal => some (path, refusal)).mergeSort fun a b =>
      if a.1 == b.1 then a.2.reason ≤ b.2.reason else a.1 ≤ b.1

/-- The listing of the draft below a path. -/
def collect (tree : FileTree) (root : Path) : Except PromotionFault DraftListing :=
  match tree.lookup true root with
  | .ok (place, .directory _) => .ok (ofFound (walk tree tree.entries.length place []))
  | .ok _ => .error (.files root .notDirectory)
  | .error fault => .error (.files root fault)

/-- Whether a draft holds nothing. -/
def isEmpty (listing : DraftListing) : Bool :=
  listing.files.isEmpty && listing.refused.isEmpty

end DraftListing

end Vetting
