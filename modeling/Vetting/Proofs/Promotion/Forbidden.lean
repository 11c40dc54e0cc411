import Vetting.Proofs.Files.Setup
import Vetting.Proofs.Promotion.GateRun
import Vetting.Proofs.Promotion.Inspecting
import Vetting.Proofs.Text.Lowering
import Vetting.Proofs.Text.Utf8

/-! Forbidden texts. What the bytes of a file spell in characters below 128, in any letter case, is
found when the file is checked, whatever bytes stand around it and whether these are a text or not. So
no draft is accepted with a forbidden text in a required file.
-/

namespace Vetting

/-- Some bytes are those of a text below 128, but for the case of letters. -/
def Spells (bytes : Bytes) (text : String) : Prop :=
  bytes.map (fun b => (Char.ofNat b.toNat).toLower) = text.toList.map Char.toLower

/-- Bytes that spell a text below 128 are below 128. -/
theorem Spells.small {bytes : Bytes} {text : String} (spells : Spells bytes text)
    (small : ∀ c ∈ text.toList, c.toNat < 128)
    : ∀ b ∈ bytes, b.toNat < 0x80 := by
  intro b member
  have listed : (Char.ofNat b.toNat).toLower ∈ text.toList.map Char.toLower := by
    rw [← spells]
    exact List.mem_map.mpr ⟨b, member, rfl⟩
  obtain ⟨c, inside, same⟩ := List.mem_map.mp listed
  have below : (Char.ofNat b.toNat).toNat < 128 := by
    rw [← Text.toNat_toLower_lt_iff, ← same, Text.toNat_toLower_lt_iff]
    exact small c inside
  have value := Text.toNat_val_ofNat (n := b.toNat) (Or.inl (by have := b.toNat_lt; omega))
  rwa [Char.toNat, value] at below

/-- A text that is spelled in the bytes of a file is found among forbidden texts. -/
theorem firstForbidden_ne_none {content run : Bytes} {text : String} {forbidden : List String}
    (listed : text ∈ forbidden) (nonempty : text ≠ "") (small : ∀ c ∈ text.toList, c.toNat < 128)
    (spells : Spells run text) (stands : run <:+: content)
    : firstForbidden (Text.decodeLossy content) forbidden ≠ none := by
  intro none
  have missed := List.find?_eq_none.mp none text listed
  have bytes := spells.small small
  have characters : ∀ c ∈ run.map (fun b => Char.ofNat b.toNat), c.toNat < 128 := by
    intro c member
    obtain ⟨b, inside, rfl⟩ := List.mem_map.mp member
    have below := bytes b inside
    rwa [Char.toNat, Text.toNat_val_ofNat (Or.inl (by omega))]
  have same
      : (run.map fun b => Char.ofNat b.toNat).map Char.toLower
        = text.toList.map Char.toLower := by
    rw [List.map_map]
    exact spells
  refine missed ?_
  rw [Text.contains_lower characters small same (Text.infix_decodeLossy bytes stands)]
  simpa using nonempty

namespace PromotionGate

open FileTree

variable {gate : PromotionGate} {tree after : FileTree}

theorem firstForbidden_of_findingsIn {rules : RuleSet} {path : String} {content : List Char}
    (clean : (rules.findingsIn path content).errors = [])
    : firstForbidden content rules.forbidden = none := by
  have nothing := List.flatMap_eq_nil_iff.mp clean _ List.mem_cons_self
  unfold RuleSet.forbiddenFindings at nothing
  split at nothing
  · exact absurd nothing (by simp [Findings.error])
  · assumption

/-- No required file of a draft that is accepted spells a forbidden text below 128, in any letter
case.
-/
theorem accepted_without_forbidden {now : Timestamp} {outcome : Outcome} {report : PromotionReport}
    (wf : tree.WellFormed)
    (run : (gate.program now (gate.inspect tree)).Yields .any tree outcome after)
    (returned : outcome.report = .ok report) (isAccepted : report.ok = true)
    : ∀ path ∈ gate.rules.requiredFiles,
        ∃ source content,
          SafePath.resolve gate.draftRoot path = .ok source
          ∧ tree.readFile source = .ok content
          ∧ ∀ text ∈ gate.rules.forbidden,
              text ≠ ""
              → (∀ c ∈ text.toList, c.toNat < 128)
              → ∀ run, run <:+: content → ¬ Spells run text := by
  obtain ⟨_, _, _, _, passed, _⟩ :=
    committed_of_returned Conduct.lawful_any wf run returned isAccepted
  obtain ⟨_, _, _, _, _, checked, good, _⟩ := passed_of_inspect passed
  intro path required
  obtain ⟨source, content, resolved, read, told⟩ := told_of_findings checked path required
  rw [good, List.subset_nil] at told
  refine ⟨source, content, resolved, read, ?_⟩
  intro text listed nonempty small run stands spells
  exact firstForbidden_ne_none listed nonempty small spells stands (firstForbidden_of_findingsIn told)

/-- A gate that forbids two texts, one of which is not below 128. -/
def tokenGate : PromotionGate where
  outputRoot := .ofString "out"
  draftRoot := .ofString "draft"
  rules := ⟨["a"], ["a"], ["Token", "tokeń"], []⟩

/-- A draft in which broken sequences stand before and in the letters of a forbidden text. -/
def tokenEdits : List Edit :=
  [.write (.ofString "draft/a") ([0xE2, 0x82] ++ Path.bytesOf "TOKE" ++ [0xC3] ++ Path.bytesOf "n") none]

/-- The tree that this edit makes. -/
@[irreducible] def tokenTree : FileTree := (Edit.applyAll .empty tokenEdits).toOption.getD .empty

theorem tokenTree_made : Edit.applyAll .empty tokenEdits = .ok tokenTree := by
  decide +kernel

theorem inspect_tokenTree : tokenGate.inspect tokenTree = ⟨[], [], [], none⟩ := by
  have stands
      : tokenTree.lookup true tokenGate.draftRoot
        = .ok ([Path.bytesOf "work", Path.bytesOf "draft"], .directory Entry.directoryMode) := by
    decide +kernel
  have walked
      : DraftListing.walk tokenTree tokenTree.entries.length
          [Path.bytesOf "work", Path.bytesOf "draft"] []
        = ["a"].map DraftListing.Found.file := by
    decide +kernel
  exact inspect_of_walked stands walked (by simp) (by simp) (by decide +kernel)
    (List.Subset.refl _) (by decide +kernel)

/-- The draft is accepted, as its file spells no forbidden text. -/
theorem accepted_without_forbidden_token
    : ∃ report content,
        (tokenGate.run default tokenTree).1.report = .ok report
        ∧ report.ok = true
        ∧ tokenTree.readFile (.ofString "draft/a") = .ok content
        ∧ ∀ run, run <:+: content → ¬ Spells run "Token" := by
  have wf := Edit.wellFormed_applyAll wellFormed_empty tokenTree_made
  have run := FileProgram.yields_run (tokenGate.program default (tokenGate.inspect tokenTree)) wf
  have decided
      : ((tokenGate.program default ⟨[], [], [], none⟩).run tokenTree).1.report.toOption.map
          PromotionReport.ok
        = some true := by
    decide +kernel
  rw [← inspect_tokenTree] at decided
  unfold PromotionGate.run
  obtain ⟨report, returned, isAccepted⟩ := Except.toOption_map_eq_some.mp decided
  obtain ⟨source, content, resolved, read, absent⟩ :=
    accepted_without_forbidden wf run returned isAccepted "a" (by decide)
  have known : SafePath.resolve tokenGate.draftRoot "a" = .ok (.ofString "draft/a") := by
    decide +kernel
  obtain rfl := Except.ok.inj (known.symm.trans resolved)
  exact ⟨report, content, returned, isAccepted, read,
    absent "Token" (by decide) (by decide) (by simp)⟩

end PromotionGate

end Vetting
