import Vetting.Proofs.Promotion.Gathering

/-! Exchanging files while others work elsewhere. Each move works at three places: that of a required
file, that of its copy, and that at which something is set aside. All others are left as they are, so
moves that have been made can still be undone, and required files whose turn has not come are kept.
-/

namespace Vetting

open FileTree PromotionStep

namespace Precinct

variable {precinct : Precinct} {tree later after : FileTree} {path other : String}
  {installed : List InstalledFile} {done rest : List String} {index : Nat} {place : Place}

-----------------------------------------------------------------------------------------
-- The places at which a move works
-----------------------------------------------------------------------------------------

variable (precinct)

/-- A place at which a move works, or one below it. -/
def Reaches (path : String) (index : Nat) (place : Place) : Prop :=
  precinct.goal path <+: place
  ∨ precinct.copyPlace path <+: place
  ∨ precinct.parking index <+: place

/-- Changes at the places at which a move works. -/
abbrev SparesOthers (path : String) (index : Nat) (tree after : FileTree) : Prop :=
  Spares (precinct.Reaches path index) (fun _ => False) tree after

variable {precinct}

theorem Reaches.owns (reaches : precinct.Reaches path index place)
    (listed : path ∈ precinct.gate.destinations)
    : precinct.Owns place := by
  obtain inside | inside | inside := reaches
  · exact Or.inr ⟨path, listed, inside⟩
  · exact Or.inl ((List.prefix_append _ _).trans inside)
  · exact Or.inl ((List.prefix_append _ _).trans inside)

theorem not_reaches_goal (listed : other ∈ precinct.gate.destinations)
    (apart : SafePath.Apart path other) (index : Nat) (way : Place)
    : ¬ precinct.Reaches path index (precinct.goal other ++ way) := by
  rintro (inside | inside | inside)
  · exact not_goal_goal apart way inside
  · exact not_staging_goal listed way ((List.prefix_append _ _).trans inside)
  · exact not_staging_goal listed way ((List.prefix_append _ _).trans inside)

theorem not_reaches_copy (listed : path ∈ precinct.gate.destinations)
    (listed' : other ∈ precinct.gate.destinations) (apart : SafePath.Apart path other) (index : Nat)
    (way : Place)
    : ¬ precinct.Reaches path index (precinct.copyPlace other ++ way) := by
  rintro (inside | inside | inside)
  · rw [copyPlace_append] at inside
    exact not_goal_staging listed _ inside
  · exact not_copy_copy apart way inside
  · exact not_parking_copy listed' index way inside

theorem not_reaches_parking (listed : path ∈ precinct.gate.destinations) {first second : Nat}
    (different : first ≠ second) (way : Place)
    : ¬ precinct.Reaches path first (precinct.parking second ++ way) := by
  rintro (inside | inside | inside)
  · rw [parking_append] at inside
    exact not_goal_staging listed _ inside
  · exact not_copy_parking listed second way inside
  · exact not_parking_parking different way inside

theorem not_reaches_staging (listed : path ∈ precinct.gate.destinations) (index : Nat)
    : ¬ precinct.Reaches path index precinct.staging := by
  rintro (inside | inside | inside)
  · exact not_goal_staging listed [] (by simpa using inside)
  · have shorter := inside.length_le
    have some := List.length_pos_of_ne_nil (nonempty listed)
    simp only [copyPlace, List.length_append] at shorter
    omega
  · have shorter := inside.length_le
    simp only [parking, List.length_append, List.length_singleton] at shorter
    omega

theorem not_reaches_passes (listed : path ∈ precinct.gate.destinations)
    (passes : precinct.Passes place)
    : ¬ precinct.Reaches path index place :=
  fun reaches => not_owns_of_passes passes (reaches.owns listed)

theorem SparesOthers.own (spares : precinct.SparesOthers path index tree after)
    (listed : path ∈ precinct.gate.destinations)
    : Spares precinct.Owns precinct.Passes tree after :=
  spares.mono (fun _ reaches => reaches.owns listed) fun _ impossible => impossible.elim

/-- Where a move does not work, all is as it was. -/
theorem SparesOthers.get?_eq (spares : precinct.SparesOthers path index tree after)
    (outside : ¬ precinct.Reaches path index place)
    : after.get? place = tree.get? place :=
  Spares.get?_eq spares outside id

-----------------------------------------------------------------------------------------
-- Required files in their order
-----------------------------------------------------------------------------------------

theorem Midway.listed (midway : precinct.Midway tree installed done [path] rest)
    : path ∈ precinct.gate.destinations := by
  simp [midway.order]

theorem Midway.apart_done (midway : precinct.Midway tree installed done [path] rest)
    (member : other ∈ done)
    : SafePath.Apart path other := by
  have apart := precinct.apart
  rw [midway.order, List.append_assoc, List.pairwise_append] at apart
  exact (apart.2.2 other (by simpa using member) path (by simp)).symm

theorem Midway.apart_rest (midway : precinct.Midway tree installed done [path] rest)
    (member : other ∈ rest)
    : SafePath.Apart path other := by
  have apart := precinct.apart
  rw [midway.order, List.pairwise_append] at apart
  exact apart.2.2 path (by simp) other member

/-- The turn of a required file comes. -/
theorem Midway.begin (midway : precinct.Midway tree installed done [] (path :: rest))
    : precinct.Midway tree installed done [path] rest where
  toStanding := midway.toStanding
  toGrounded := midway.toGrounded
  order := by simpa using midway.order
  installed := midway.installed
  delivered := midway.delivered
  kept other member := midway.kept other (List.mem_cons_of_mem _ member)

/-- The turn of a required file has not come yet when it is as it was. -/
theorem Midway.put_back (midway : precinct.Midway tree installed done [path] rest)
    (kept : precinct.Kept tree path)
    : precinct.Midway tree installed done [] (path :: rest) where
  toStanding := midway.toStanding
  toGrounded := midway.toGrounded
  order := by simpa using midway.order
  installed := midway.installed
  delivered := midway.delivered
  kept := by
    simp only [List.mem_cons, forall_eq_or_imp]
    exact ⟨kept, midway.kept⟩

/-- The turn of a required file is over. -/
theorem Midway.finish (midway : precinct.Midway tree installed done [path] rest)
    (delivered : precinct.Delivered tree path) {file : InstalledFile}
    (more : precinct.Installed tree (file :: installed) (path :: done))
    : precinct.Midway tree (file :: installed) (path :: done) [] rest where
  toStanding := midway.toStanding
  toGrounded := midway.toGrounded
  order := by simpa using midway.order
  installed := more
  delivered := by
    simp only [List.mem_cons, forall_eq_or_imp]
    exact ⟨delivered, midway.delivered⟩
  kept := midway.kept

/-- Between moves, some required files have been switched. -/
theorem Midway.guarantee (midway : precinct.Midway after installed done [] rest)
    (spares : Spares precinct.Owns precinct.Passes tree after)
    : precinct.terms.guarantee tree after := by
  refine ⟨spares, done.reverse, rest, midway.toStanding, by simpa using midway.order, ?_, ?_, ?_⟩
  · exact fun path member => midway.delivered path (by simpa using member)
  · exact fun path head => Or.inl (midway.kept path (List.mem_of_head? head))
  · exact fun path member => midway.kept path (List.mem_of_mem_tail member)

/-- While a place is empty, some required files have been switched. -/
theorem Midway.guarantee_vacant (midway : precinct.Midway after installed done [path] rest)
    (vacant : precinct.Vacant after path)
    (spares : Spares precinct.Owns precinct.Passes tree after)
    : precinct.terms.guarantee tree after := by
  refine ⟨spares, done.reverse, path :: rest, midway.toStanding, by simpa using midway.order, ?_, ?_,
    midway.kept⟩
  · exact fun path member => midway.delivered path (by simpa using member)
  · rintro _ ⟨⟩
    exact Or.inr vacant

-----------------------------------------------------------------------------------------
-- What moves do
-----------------------------------------------------------------------------------------

/-- A move leaves alone the directories on the ways. -/
theorem SparesOthers.founded (spares : precinct.SparesOthers path index tree after)
    (listed : path ∈ precinct.gate.destinations) {way : List Bytes}
    (member : way ∈ precinct.gate.ways) (founded : tree.Founded precinct.start way)
    : after.Founded precinct.start way := by
  intro front isFront
  obtain ⟨mode, found⟩ := founded front isFront
  have outside : ¬ precinct.Reaches path index (front.foldl step precinct.start) :=
    not_reaches_passes listed ⟨way, member, front, isFront, rfl⟩
  exact ⟨mode, (spares.get?_eq outside).trans found⟩

/-- A move leaves alone what has been moved before it, and what comes after it. -/
theorem Midway.sparesOthers (midway : precinct.Midway tree installed done [path] rest)
    (spares : precinct.SparesOthers path installed.length tree after)
    : precinct.Midway after installed done [path] rest where
  toStanding := midway.toStanding.spared spares fun _ => not_reaches_passes midway.listed
  founded := spares.founded midway.listed List.mem_cons_self midway.founded
  directory := by
    rw [spares.get?_eq (not_reaches_staging midway.listed _)]
    exact midway.directory
  order := midway.order
  installed := midway.installed.imp fun index lower way =>
    spares.get?_eq (not_reaches_parking midway.listed (Nat.ne_of_gt lower) way)
  delivered := by
    intro other member
    obtain ⟨reachable, content, mode, found, same⟩ := midway.delivered other member
    have listed : other ∈ precinct.gate.destinations := by simp [midway.order, member]
    have outside := not_reaches_goal listed (midway.apart_done member) installed.length []
    rw [List.append_nil] at outside
    exact ⟨reachable, content, mode, (spares.get?_eq outside).trans found, same⟩
  kept := by
    intro other member way
    have listed : other ∈ precinct.gate.destinations := by simp [midway.order, member]
    rw [spares.get?_eq (not_reaches_goal listed (midway.apart_rest member) _ way)]
    exact midway.kept other member way

/-- A move leaves alone the other copies, and adds none. -/
theorem Loaded.sparesOthers {copied remaining : List String}
    (loaded : precinct.Loaded tree copied) (listed : path ∈ precinct.gate.destinations)
    (spares : precinct.SparesOthers path index tree after)
    (old
      : ∀ way entry,
          after.get? (precinct.copyPlace path ++ way) = some entry
          → tree.get? (precinct.copyPlace path ++ way) = some entry)
    (kept
      : ∀ other ∈ remaining,
          other ∈ copied
          ∧ after.get? (precinct.copyPlace other) = tree.get? (precinct.copyPlace other))
    : precinct.Loaded after remaining where
  plain := by
    intro way entry unparked found
    refine loaded.plain way entry unparked ?_
    by_cases isCopy : precinct.copyPlace path <+: precinct.staging ++ way
    · obtain ⟨more, split⟩ := isCopy
      rw [← split] at found ⊢
      exact old more entry found
    · rwa [spares.get?_eq] at found
      rintro (inside | inside | inside)
      · exact not_goal_staging listed way inside
      · exact isCopy inside
      · obtain ⟨more, split⟩ := inside
        rw [parking_append] at split
        exact unparked index (by rw [← List.append_cancel_left split]; rfl)
  copies := by
    intro other member
    obtain ⟨member, same⟩ := kept other member
    obtain ⟨content, mode, found, drafted⟩ := loaded.copies other member
    exact ⟨content, mode, same.trans found, drafted⟩

/-- Setting something aside empties its place. -/
theorem Midway.parked (midway : precinct.Midway tree installed done [path] rest)
    (loaded : precinct.Loaded tree (path :: rest)) (kept : precinct.Kept tree path)
    (moved : tree.Moved (precinct.goal path) (precinct.parking installed.length) after)
    : precinct.SparesOthers path installed.length tree after
      ∧ precinct.Midway after installed done [path] rest
      ∧ precinct.Loaded after (path :: rest)
      ∧ precinct.Vacant after path
      ∧ precinct.Stored after path installed.length := by
  have spares : precinct.SparesOthers path installed.length tree after :=
    moved.spares (fun _ => Or.inl) fun _ inside => Or.inr (Or.inr inside)
  have same : ∀ other ∈ precinct.gate.destinations, ∀ way,
      after.get? (precinct.copyPlace other ++ way) = tree.get? (precinct.copyPlace other ++ way) := by
    intro other listed way
    refine moved.get?_other (not_parking_copy listed _ way) ?_
    rw [copyPlace_append]
    exact not_goal_staging midway.listed _
  refine ⟨spares, midway.sparesOthers spares, loaded.sparesOthers midway.listed spares ?_ ?_,
    moved.get?_source, fun way => (moved.get?_goal way).trans (kept way)⟩
  · intro way entry found
    rwa [same path midway.listed] at found
  · intro other member
    have listed : other ∈ precinct.gate.destinations := by
      rw [midway.order, List.append_assoc]
      exact List.mem_append_right _ member
    exact ⟨member, by simpa using same other listed []⟩

/-- Moving a copy to its place brings the bytes of the draft there. -/
theorem Midway.moved (midway : precinct.Midway tree installed done [path] rest)
    (loaded : precinct.Loaded tree (path :: rest))
    (moved : tree.Moved (precinct.copyPlace path) (precinct.goal path) after)
    : precinct.SparesOthers path installed.length tree after
      ∧ precinct.Midway after installed done [path] rest
      ∧ precinct.Loaded after rest
      ∧ precinct.HoldsDraft after (precinct.goal path) path
      ∧ (precinct.Stored tree path installed.length
        → precinct.Stored after path installed.length) := by
  have spares : precinct.SparesOthers path installed.length tree after :=
    moved.spares (fun _ inside => Or.inr (Or.inl inside)) fun _ => Or.inl
  refine ⟨spares, midway.sparesOthers spares, loaded.sparesOthers midway.listed spares ?_ ?_, ?_, ?_⟩
  · intro way entry found
    rw [moved.get?_source] at found
    exact absurd found (by simp)
  · intro other member
    have listed : other ∈ precinct.gate.destinations := by simp [midway.order, member]
    have outside := not_reaches_copy midway.listed listed (midway.apart_rest member)
      installed.length []
    rw [List.append_nil] at outside
    exact ⟨List.mem_cons_of_mem _ member, spares.get?_eq outside⟩
  · obtain ⟨content, mode, found, same⟩ := loaded.copies path List.mem_cons_self
    refine ⟨content, mode, ?_, same⟩
    simpa using (moved.get?_goal []).trans (by simpa using found)
  · intro stored way
    rw [moved.get?_other, stored way]
    · rw [parking_append]
      exact not_goal_staging midway.listed _
    · exact not_copy_parking midway.listed _ way

/-- Moving back what was set aside brings back what stood at a place. -/
theorem Midway.restored (midway : precinct.Midway tree installed done [path] rest)
    (stored : precinct.Stored tree path installed.length)
    (moved : tree.Moved (precinct.parking installed.length) (precinct.goal path) after)
    : precinct.SparesOthers path installed.length tree after
      ∧ precinct.Midway after installed done [] (path :: rest) := by
  have spares : precinct.SparesOthers path installed.length tree after :=
    moved.spares (fun _ inside => Or.inr (Or.inr inside)) fun _ => Or.inl
  refine ⟨spares, (midway.sparesOthers spares).put_back fun way => ?_⟩
  rw [moved.get?_goal, stored way]

/-- Removing a file that has been moved to a place empties it. -/
theorem Midway.removed (midway : precinct.Midway tree installed done [path] rest)
    (removed : tree.Removed (precinct.goal path) after)
    : precinct.SparesOthers path installed.length tree after
      ∧ precinct.Midway after installed done [path] rest
      ∧ precinct.Vacant after path
      ∧ (precinct.Stored tree path installed.length
        → precinct.Stored after path installed.length) := by
  have spares : precinct.SparesOthers path installed.length tree after :=
    removed.spares fun _ => Or.inl
  have some := nonempty midway.listed
  refine ⟨spares, midway.sparesOthers spares, fun way => ?_, fun stored way => ?_⟩
  · exact removed.get?_below (by simp [goal, PromotionGate.goal, some]) way
  · rw [removed.get?_other, stored way]
    rw [parking_append]
    exact not_goal_staging midway.listed _

end Precinct

end Vetting
