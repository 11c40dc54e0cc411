import Mathlib.Data.List.Forall2

/-! Results that may be faults: what is known of the parts of a computation that has none. -/

namespace List

variable {α β : Type} {related : α → β → Prop} {ones : List α} {others : List β}

/-- Of values that are selected, what each of them leads to is what comes of all values when the others
lead to nothing, by induction on the values.
-/
theorem flatMap_filter (chosen : α → Bool) (onward : α → List β) (values : List α)
    : (values.filter chosen).flatMap onward
      = values.flatMap fun value => if chosen value then onward value else [] := by
  induction values with
  | nil => rfl
  | cons value rest ih =>
      rw [filter_cons, flatMap_cons, ← ih]
      split <;> simp

/-- The pieces of a list: a separator ends an empty piece, and anything else starts the first piece of
what comes behind it.
-/
theorem splitOn_cons_eq [BEq α] (separator one : α) (rest : List α)
    : (one :: rest).splitOn separator
      = if one == separator then [] :: rest.splitOn separator
        else
          match rest.splitOn separator with
          | [] => [[one]]
          | piece :: others => (one :: piece) :: others := by
  unfold splitOn
  rw [splitOnP_cons_eq_if_modifyHead]
  split
  · rfl
  · cases pieces : rest.splitOnP fun other => other == separator with
    | nil => exact absurd pieces (splitOnP_ne_nil _ _)
    | cons piece others => rfl

/-- Everything on the left has a partner on the right. -/
theorem Forall₂.partner_right (pairs : Forall₂ related ones others)
    : ∀ one ∈ ones, ∃ other ∈ others, related one other := by
  induction pairs with
  | nil => simp
  | cons first _ ih =>
      refine forall_mem_cons.mpr ⟨⟨_, mem_cons_self, first⟩, fun one member => ?_⟩
      obtain ⟨other, found, holds⟩ := ih one member
      exact ⟨other, mem_cons_of_mem _ found, holds⟩

/-- Everything on the right has a partner on the left. -/
theorem Forall₂.partner_left (pairs : Forall₂ related ones others)
    : ∀ other ∈ others, ∃ one ∈ ones, related one other :=
  Forall₂.partner_right (Forall₂.flip pairs)

end List

namespace Option

/-- What goes on with a value that is there goes on with that value. -/
theorem bind_of_eq_some {α β : Type} {result : Option α} {value : α} (known : result = some value)
    (rest : α → Option β)
    : result >>= rest = rest value := by
  rw [known, bind_eq_bind, bind_some]

/-- What holds of every value that a computation may go on to holds of its own value. -/
theorem forall_mem_bind {α β : Type} {holds : β → Prop} {result : Option α} {rest : α → Option β}
    (onward : ∀ first ∈ result, ∀ last ∈ rest first, holds last)
    : ∀ last ∈ result >>= rest, holds last := by
  intro last found
  obtain ⟨first, known, found⟩ := bind_eq_some_iff.mp found
  exact onward first known last found

/-- Results for each of some values are there when none of them is missing, by induction on the values.
-/
theorem mapM_eq_some {α β : Type} {f : α → Option β} {values : List α} {results : List β}
    : values.mapM f = some results
      ↔ List.Forall₂ (fun value result => f value = some result) values results := by
  induction values generalizing results with
  | nil => simp [eq_comm]
  | cons value rest ih =>
      rw [List.mapM_cons, bind_eq_bind, bind_eq_some_iff]
      constructor
      · intro ⟨first, known, onward⟩
        obtain ⟨others, knownRest, finish⟩ := bind_eq_some_iff.mp onward
        obtain rfl := Option.some.inj finish
        exact .cons known (ih.mp knownRest)
      · intro each
        cases each with
        | cons known others =>
            exact ⟨_, known, bind_eq_some_iff.mpr ⟨_, ih.mpr others, rfl⟩⟩

end Option

namespace Except

variable {ε ε' α β : Type}

@[simp] theorem throw_ne_ok {fault : ε} {value : α} : (throw fault : Except ε α) ≠ .ok value := by
  simp [throw, throwThe, MonadExceptOf.throw]

theorem ok_bind (value : α) (rest : α → Except ε β)
    : (.ok value : Except ε α) >>= rest = rest value := rfl

/-- What goes on with a value has one only when there is one to go on with. -/
theorem bind_eq_ok {result : Except ε α} {rest : α → Except ε β} {value : β}
    : result >>= rest = .ok value ↔ ∃ first, result = .ok first ∧ rest first = .ok value := by
  cases result <;> simp [bind, Except.bind]

/-- What goes on unless a condition holds has a value only when it does not. -/
theorem unless_eq_ok {condition : Prop} [Decidable condition] {fault : ε}
    {rest : PUnit → Except ε α} {value : α}
    : (if condition then throw fault >>= rest else rest ⟨⟩) = .ok value
      ↔ ¬ condition ∧ rest ⟨⟩ = .ok value := by
  split
  · rename_i holds
    simp [holds, throw, throwThe, MonadExceptOf.throw, bind, Except.bind]
  · rename_i absent
    simp [absent]

theorem map_eq_ok {result : Except ε α} {f : α → β} {value : β}
    : result.map f = .ok value ↔ ∃ first, result = .ok first ∧ f first = value := by
  cases result <;> simp [Except.map]

theorem toOption_map_eq_some {result : Except ε α} {f : α → β} {value : β}
    : result.toOption.map f = some value ↔ ∃ first, result = .ok first ∧ f first = value := by
  cases result <;> simp [Except.toOption]

theorem toOption_eq_none {result : Except ε α}
    : result.toOption = none ↔ ∃ fault, result = .error fault := by
  cases result <;> simp [Except.toOption]

theorem mapError_eq_ok {result : Except ε α} {f : ε → ε'} {value : α}
    : result.mapError f = .ok value ↔ result = .ok value := by
  cases result <;> simp [Except.mapError]

/-- Results for each of some values are there when none of them is a fault, by induction on the
values.
-/
theorem mapM_eq_ok {f : α → Except ε β} {values : List α} {results : List β}
    : values.mapM f = .ok results
      ↔ List.Forall₂ (fun value result => f value = .ok result) values results := by
  induction values generalizing results with
  | nil => simp [pure, Except.pure, eq_comm]
  | cons value rest ih =>
      rw [List.mapM_cons, bind_eq_ok]
      constructor
      · intro ⟨first, computed, onward⟩
        obtain ⟨others, computedRest, finish⟩ := bind_eq_ok.mp onward
        obtain rfl := Except.ok.inj finish
        exact .cons computed (ih.mp computedRest)
      · intro each
        cases each with
        | cons computed others =>
            exact ⟨_, computed, bind_eq_ok.mpr ⟨_, ih.mpr others, rfl⟩⟩

/-- A computation goes on to a fault when it is one, or when what goes on with its value is. -/
theorem bind_eq_error {result : Except ε α} {rest : α → Except ε β} {fault : ε}
    : result >>= rest = .error fault
      ↔ result = .error fault ∨ ∃ first, result = .ok first ∧ rest first = .error fault := by
  cases result <;> simp [bind, Except.bind]

theorem mapError_eq_error {result : Except ε α} {f : ε → ε'} {fault : ε'}
    : result.mapError f = .error fault ↔ ∃ reason, result = .error reason ∧ f reason = fault := by
  cases result <;> simp [Except.mapError]

/-- Results for some values fail only as the result for one of them does, by induction on the values. -/
theorem exists_of_mapM_eq_error {f : α → Except ε β} {values : List α} {fault : ε}
    (failed : values.mapM f = .error fault)
    : ∃ value ∈ values, f value = .error fault := by
  induction values with
  | nil => exact absurd failed (by simp [pure, Except.pure])
  | cons value rest ih =>
      rw [List.mapM_cons, bind_eq_error] at failed
      rcases failed with first | ⟨_, _, onward⟩
      · exact ⟨value, List.mem_cons_self, first⟩
      · rcases bind_eq_error.mp onward with others | ⟨_, _, impossible⟩
        · obtain ⟨other, member, failed⟩ := ih others
          exact ⟨other, List.mem_cons_of_mem _ member, failed⟩
        · exact absurd impossible (by simp [pure, Except.pure])

/-- Results that are seen alike are one fault, or values that are seen alike. -/
theorem map_eq_map_cases {α' γ : Type} {result : Except ε α} {other : Except ε α'} {r : α → γ}
    {r' : α' → γ} (same : result.map r = other.map r')
    : (∃ fault, result = .error fault ∧ other = .error fault)
      ∨ ∃ value value', result = .ok value ∧ other = .ok value' ∧ r value = r' value' := by
  cases result <;> cases other <;> simp_all [Except.map]

/-- What goes on with results that are seen alike is seen alike when it is for values that are. -/
theorem map_bind_congr {γ α' β' δ : Type} {result : Except ε α} {other : Except ε α'} {r : α → γ}
    {r' : α' → γ} {rest : α → Except ε β} {onward : α' → Except ε β'} {p : β → δ} {p' : β' → δ}
    (same : result.map r = other.map r')
    (alike : ∀ value value', r value = r' value' → (rest value).map p = (onward value').map p')
    : (result >>= rest).map p = (other >>= onward).map p' := by
  rcases map_eq_map_cases same with ⟨fault, rfl, rfl⟩ | ⟨value, value', rfl, rfl, seen⟩
  · rfl
  · exact alike value value' seen

/-- Results for each of some values are seen alike when each of them is, by induction on the values. -/
theorem map_mapM_congr {γ δ : Type} {f : α → Except ε β} {g : α → Except ε γ} {p : β → δ} {q : γ → δ}
    (values : List α) (same : ∀ value, (f value).map p = (g value).map q)
    : (values.mapM f).map (List.map p) = (values.mapM g).map (List.map q) := by
  induction values with
  | nil => rfl
  | cons value rest ih =>
      rw [List.mapM_cons, List.mapM_cons]
      refine map_bind_congr (same value) fun one two first => ?_
      refine map_bind_congr ih fun ones twos others => ?_
      simp [pure, Except.pure, Except.map, first, others]

/-- A check of each of some values passes when it passes for all, by induction on the values. -/
theorem forM_eq_ok {f : α → Except ε Unit} {values : List α}
    : values.forM f = .ok () ↔ ∀ value ∈ values, f value = .ok () := by
  induction values with
  | nil => simp [pure, Except.pure]
  | cons value rest ih =>
      rw [List.forM, bind_eq_ok, List.forall_mem_cons, ← ih]
      constructor
      · exact fun ⟨(), passed, onward⟩ => ⟨passed, onward⟩
      · exact fun ⟨passed, onward⟩ => ⟨(), passed, onward⟩

end Except
