import Mathlib.Data.List.Perm.Subperm
import Vetting.Files.Program
import Vetting.Proofs.Files.Relocation
import Vetting.Proofs.Text.Utf8

/-! The runs of programs on a tree in which operations may fail. An operation that succeeds has had
its effect, except that a copy may hold anything; one that fails may do so at any time. Running a
program on a tree alone is one of these runs.
-/

namespace Vetting

-----------------------------------------------------------------------------------------
-- How operations end
-----------------------------------------------------------------------------------------

/-- An operation may end with an answer and a tree. What fails leaves the tree as it is, except
that making directories may leave some of them, and copying a file any content. To look for
something and to remove a directory fails only for a reason in the tree. A directory for copies gets
a name that occurs nowhere in the tree.
-/
def Operation.Ends (tree : FileTree)
    : (op : Operation) → Except FileFault op.Answer → FileTree → Prop
  | .createDirectories path, .ok (), after => tree.createDirectories path = (.ok (), after)
  | .createDirectories path, .error _, after =>
      ∃ chain, chain <:+ path.ancestors ∧ after = (tree.createChain chain).2
  | .createScratch directory start, .ok path, after =>
      ∃ rest,
        Path.slash ∉ rest
        ∧ start ++ rest ∉ tree.names
        ∧ path = directory.join (start ++ rest)
        ∧ tree.createDirectory path = .ok after
  | .writeScratch directory start content, .ok path, after =>
      ∃ rest,
        Path.slash ∉ rest
        ∧ path = directory.join (start ++ rest)
        ∧ tree.create path (.file content Entry.fileMode) = .ok after
  | .find path, answer, after => after = tree ∧ (answer = .ok () ↔ tree.exists? path = true)
  | .readFile path, .ok content, after => after = tree ∧ tree.readFile path = .ok content
  | .copyFile _ target, .ok (), after =>
      ∃ place content mode, tree.Written target place content mode after
  | .copyFile _ target, .error _, after =>
      after = tree ∨ ∃ place content mode, tree.Written target place content mode after
  | .rename source target, .ok (), after => tree.rename source target = .ok after
  | .removeFile path, .ok (), after => tree.removeFile path = .ok after
  | .removeDirectory path, .ok (), after => tree.removeDirectory path = .ok after
  | .removeDirectory path, .error fault, after =>
      after = tree ∧ tree.removeDirectory path = .error fault
  | .createScratch _ _, .error _, after => after = tree
  | .writeScratch _ _ _, .error _, after => after = tree
  | .readFile _, .error _, after => after = tree
  | .rename _ _, .error _, after => after = tree
  | .removeFile _, .error _, after => after = tree

theorem not_mem_decimal {c : Char} (noDigit : c.isDigit = false) (n : Nat)
    : c ∉ (toString n).toList := by
  intro member
  rw [Nat.toString_eq_ofList_toDigits, String.toList_ofList] at member
  rw [Nat.isDigit_of_mem_toDigits (by decide) (by decide) member] at noDigit
  exact absurd noDigit (by decide)

theorem slash_not_mem_decimal (n : Nat) : Path.slash ∉ Path.bytesOf (toString n) :=
  Path.slash_not_mem_bytesOf (not_mem_decimal (by decide) n)

theorem decimal_injective {one two : Nat}
    (same : Path.bytesOf (toString one) = Path.bytesOf (toString two))
    : one = two := by
  have texts := congrArg String.toList (Path.bytesOf_injective same)
  rw [Nat.toString_eq_ofList_toDigits, Nat.toString_eq_ofList_toDigits, String.toList_ofList,
    String.toList_ofList] at texts
  rw [← Nat.ofDigitChars_ten_toDigits (n := one), texts, Nat.ofDigitChars_ten_toDigits]

/-- The fresh name starts as it should, and occurs nowhere: of as many names as occur and one more,
one does not.
-/
theorem FileTree.freshName_eq (tree : FileTree) (start : Bytes)
    : ∃ rest,
        Path.slash ∉ rest ∧ start ++ rest ∉ tree.names ∧ tree.freshName start = start ++ rest := by
  unfold freshName
  simp only
  split
  · rename_i n found
    have absent := List.find?_some found
    simp only [Bool.not_eq_true', List.contains_eq_mem, decide_eq_false_iff_not] at absent
    exact ⟨_, slash_not_mem_decimal n, absent, rfl⟩
  · rename_i all
    exfalso
    rw [List.find?_eq_none] at all
    let numbered := (List.range (tree.names.length + 1)).map
      fun n => start ++ Path.bytesOf (toString n)
    have distinct : numbered.Nodup := by
      refine List.nodup_range.map ?_
      intro one two same
      exact decimal_injective (List.append_cancel_left same)
    have included : numbered ⊆ tree.names := by
      intro name member
      obtain ⟨n, listed, rfl⟩ := List.mem_map.mp member
      simpa using all n listed
    have := (List.subperm_of_subset distinct included).length_le
    simp only [numbered, List.length_map, List.length_range] at this
    omega

/-- To perform an operation on a tree is one of the ways in which it may end. -/
theorem Operation.ends_perform {tree : FileTree} (wf : tree.WellFormed) (op : Operation)
    : op.Ends tree (op.perform tree).1 (op.perform tree).2 := by
  cases op with
  | createDirectories path =>
      cases made : tree.createDirectories path with
      | mk answer after =>
          cases answer with
          | ok _ => simp [perform, made, Ends]
          | error fault =>
              simp only [perform, made, Ends]
              refine ⟨path.ancestors, List.suffix_refl _, ?_⟩
              exact congrArg Prod.snd made.symm
  | createScratch directory start =>
      obtain ⟨rest, noSlash, absent, eq⟩ := tree.freshName_eq start
      cases made : tree.createDirectory (directory.join (tree.freshName start)) with
      | error fault =>
          simp [perform, FileTree.createScratch, made, told, bind, Except.bind, Ends]
      | ok after =>
          simp only [perform, FileTree.createScratch, made, told, bind, Except.bind, pure,
            Except.pure, Ends]
          exact ⟨rest, noSlash, absent, by rw [eq], trivial⟩
  | writeScratch directory start content =>
      obtain ⟨rest, noSlash, _, eq⟩ := tree.freshName_eq start
      cases made : tree.create (directory.join (tree.freshName start))
          (.file content Entry.fileMode) with
      | error fault =>
          simp [perform, FileTree.writeScratch, made, told, bind, Except.bind, Ends]
      | ok after =>
          simp only [perform, FileTree.writeScratch, made, told, bind, Except.bind, pure,
            Except.pure, Ends]
          exact ⟨rest, noSlash, by rw [eq], trivial⟩
  | find path =>
      refine ⟨rfl, ?_⟩
      unfold FileTree.exists?
      simp only [perform]
      cases tree.lookup false path <;> simp [Except.map]
  | readFile path =>
      cases found : tree.readFile path <;> simp [perform, found, Ends]
  | copyFile source target =>
      cases copied : tree.copyFile source target with
      | error fault => simp [perform, copied, changed, Ends]
      | ok after =>
          obtain ⟨content, place, mode, _, written⟩ := wf.copyFile copied
          simp only [perform, copied, changed, Ends]
          exact ⟨place, content, mode, written⟩
  | rename source target =>
      cases moved : tree.rename source target <;> simp [perform, moved, changed, Ends]
  | removeFile path =>
      cases removed : tree.removeFile path <;> simp [perform, removed, changed, Ends]
  | removeDirectory path =>
      cases removed : tree.removeDirectory path <;> simp [perform, removed, changed, Ends]

/-- Operations keep a tree well formed. -/
theorem Operation.Ends.wellFormed {tree after : FileTree} (wf : tree.WellFormed) {op : Operation}
    {answer : Except FileFault op.Answer} (ends : op.Ends tree answer after)
    : after.WellFormed := by
  have chained : ∀ chain, (tree.createChain chain).2.WellFormed :=
    fun chain => (wf.createChain chain).1
  cases op with
  | createDirectories path =>
      cases answer with
      | ok _ =>
          have := chained path.ancestors
          rwa [show (tree.createChain path.ancestors).2 = after from congrArg Prod.snd ends] at this
      | error _ =>
          obtain ⟨chain, _, rfl⟩ := ends
          exact chained chain
  | createScratch directory start =>
      cases answer with
      | ok path =>
          obtain ⟨_, _, _, _, made⟩ := ends
          exact (wf.createDirectory made).choose_spec.wellFormed
      | error _ => exact ends.symm ▸ wf
  | writeScratch directory start content =>
      cases answer with
      | ok path =>
          obtain ⟨_, _, _, made⟩ := ends
          exact (wf.create made).choose_spec.wellFormed
      | error _ => exact ends.symm ▸ wf
  | find path => exact ends.1.symm ▸ wf
  | readFile path =>
      cases answer with
      | ok content => exact ends.1.symm ▸ wf
      | error _ => exact ends.symm ▸ wf
  | copyFile source target =>
      cases answer with
      | ok _ =>
          obtain ⟨_, _, _, written⟩ := ends
          exact written.wellFormed
      | error _ =>
          rcases ends with rfl | ⟨_, _, _, written⟩
          · exact wf
          · exact written.wellFormed
  | rename source target =>
      cases answer with
      | ok _ =>
          obtain ⟨_, _, _, _, _, _, same | moved⟩ := wf.rename ends
          · exact same.2.symm ▸ wf
          · exact moved.1.wellFormed
      | error _ => exact ends.symm ▸ wf
  | removeFile path =>
      cases answer with
      | ok _ =>
          obtain ⟨_, _, _, _, _, removed⟩ := wf.removeFile ends
          exact removed.wellFormed
      | error _ => exact ends.symm ▸ wf
  | removeDirectory path =>
      cases answer with
      | ok _ =>
          obtain ⟨_, _, removed⟩ := wf.removeDirectory ends
          exact removed.wellFormed
      | error _ => exact ends.1.symm ▸ wf

/-- Making directories keeps all that stands, whether it succeeds or not. -/
theorem Operation.Ends.grows {tree after : FileTree} (wf : tree.WellFormed) {path : Path}
    {answer : Except FileFault Unit}
    (ends : (Operation.createDirectories path).Ends tree answer after)
    : FileTree.Grows [] (fun _ => True) tree after := by
  cases answer with
  | ok _ =>
      have grows := (wf.createChain path.ancestors).2
      rwa [show (tree.createChain path.ancestors).2 = after from congrArg Prod.snd ends] at grows
  | error _ =>
      obtain ⟨chain, _, rfl⟩ := ends
      exact (wf.createChain chain).2

-----------------------------------------------------------------------------------------
-- Runs of programs
-----------------------------------------------------------------------------------------

/-- What operations on trees may answer, and which trees they may leave. -/
abbrev Conduct : Type :=
  FileTree → (op : Operation) → Except FileFault op.Answer → FileTree → Prop

/-- Operations end in every way they may. -/
def Conduct.any : Conduct :=
  fun tree op answer after => op.Ends tree answer after

/-- Operations end only as they may. -/
def Conduct.Lawful (conduct : Conduct) : Prop :=
  ∀ tree (op : Operation) answer after, conduct tree op answer after → op.Ends tree answer after

theorem Conduct.lawful_any : Conduct.any.Lawful :=
  fun _ _ _ _ ends => ends

namespace FileProgram

variable {α β : Type} {conduct : Conduct}

/-- From a tree, a program may yield a value and leave another tree, when each of its operations
ends as some conduct allows.
-/
def Yields (conduct : Conduct) : FileProgram α → FileTree → α → FileTree → Prop
  | done value, tree, result, after => result = value ∧ after = tree
  | perform op next, tree, result, after =>
      ∃ answer between,
        conduct tree op answer between ∧ (next answer).Yields conduct between result after

@[simp] theorem yields_pure {value result : α} {tree after : FileTree}
    : (pure value : FileProgram α).Yields conduct tree result after
      ↔ result = value ∧ after = tree :=
  Iff.rfl

@[simp] theorem yields_request {op : Operation} {tree after : FileTree}
    {answer : Except FileFault op.Answer}
    : (request op).Yields conduct tree answer after ↔ conduct tree op answer after := by
  constructor
  · rintro ⟨_, _, ended, rfl, rfl⟩
    exact ended
  · exact fun ended => ⟨answer, after, ended, rfl, rfl⟩

/-- A program that goes on with another one runs through a tree between them, by induction on it. -/
@[simp] theorem yields_bind {program : FileProgram α} {rest : α → FileProgram β}
    {tree after : FileTree} {result : β}
    : (program >>= rest).Yields conduct tree result after
      ↔ ∃ value between,
          program.Yields conduct tree value between
          ∧ (rest value).Yields conduct between result after := by
  change (program.bind rest).Yields conduct tree result after ↔ _
  induction program generalizing tree with
  | done value =>
      constructor
      · exact fun onward => ⟨value, tree, ⟨rfl, rfl⟩, onward⟩
      · rintro ⟨_, _, ⟨rfl, rfl⟩, onward⟩
        exact onward
  | perform op next ih =>
      simp only [FileProgram.bind, Yields, ih]
      constructor
      · rintro ⟨answer, first, ended, value, between, onward, last⟩
        exact ⟨value, between, ⟨answer, first, ended, onward⟩, last⟩
      · rintro ⟨value, between, ⟨answer, first, ended, onward⟩, last⟩
        exact ⟨answer, first, ended, value, between, onward, last⟩

instance : LawfulMonad FileProgram := by
  have assoc : ∀ {α β γ : Type} (program : FileProgram α) (f : α → FileProgram β)
      (g : β → FileProgram γ), (program.bind f).bind g = program.bind fun x => (f x).bind g := by
    intro α β γ program f g
    induction program with
    | done value => rfl
    | perform op next ih =>
        exact congrArg (perform op) (funext fun answer => ih answer)
  refine LawfulMonad.mk' FileProgram ?_ (fun _ _ => rfl) assoc
  intro α program
  change program.bind done = program
  induction program with
  | done value => rfl
  | perform op next ih =>
      exact congrArg (perform op) (funext fun answer => ih answer)

/-- Whether all answers pass a test when a program is run on a tree alone. -/
def passes (test : (op : Operation) → Except FileFault op.Answer → Bool)
    : FileProgram α → FileTree → Bool
  | done _, _ => true
  | perform op next, tree =>
      test op (op.perform tree).1
      && (next (op.perform tree).1).passes test (op.perform tree).2

/-- Running a program on a tree alone is one of its runs under a conduct that lets operations be
performed when their answers pass a test, by induction on the program.
-/
theorem yields_run_of_passes {test : (op : Operation) → Except FileFault op.Answer → Bool}
    (performed
      : ∀ tree op,
          FileTree.WellFormed tree
          → test op (op.perform tree).1 = true
          → conduct tree op (op.perform tree).1 (op.perform tree).2)
    (program : FileProgram α) {tree : FileTree} (wf : tree.WellFormed)
    (passed : program.passes test tree = true)
    : program.Yields conduct tree (program.run tree).1 (program.run tree).2 := by
  induction program generalizing tree with
  | done value => exact ⟨rfl, rfl⟩
  | perform op next ih =>
      obtain ⟨first, onward⟩ := Bool.and_eq_true_iff.mp passed
      have wellFormed := (op.ends_perform wf).wellFormed wf
      exact ⟨_, _, performed tree op wf first, ih _ wellFormed onward⟩

theorem passes_true (program : FileProgram α) (tree : FileTree)
    : program.passes (fun _ _ => true) tree = true := by
  induction program generalizing tree with
  | done value => rfl
  | perform op next ih => exact ih _ _

/-- Running a program on a tree alone is one of its runs. -/
theorem yields_run (program : FileProgram α) {tree : FileTree} (wf : tree.WellFormed)
    : program.Yields Conduct.any tree (program.run tree).1 (program.run tree).2 :=
  yields_run_of_passes (fun _ op wf _ => op.ends_perform wf) program wf (passes_true program tree)

/-- A run keeps a tree well formed, by induction on the program. -/
theorem Yields.wellFormed {program : FileProgram α} {tree after : FileTree} {result : α}
    (lawful : conduct.Lawful) (yields : program.Yields conduct tree result after)
    (wf : tree.WellFormed)
    : after.WellFormed := by
  induction program generalizing tree with
  | done value => exact yields.2 ▸ wf
  | perform op next ih =>
      obtain ⟨answer, between, ended, onward⟩ := yields
      exact ih answer onward ((lawful _ _ _ _ ended).wellFormed wf)

end FileProgram

end Vetting
