/-!
Results of steps that may fail, and lists whose elements are worked off until one of them fails.
-/

namespace TwoPass.Result

variable {ε δ α β γ : Type}

theorem exists_of_bind_eq_ok {first : Except ε α} {next : α → Except ε β} {value : β}
    (success : first >>= next = .ok value) :
    ∃ middle, first = .ok middle ∧ next middle = .ok value := by
  cases first with
  | error error => simp [bind, Except.bind] at success
  | ok middle => exact ⟨middle, rfl, success⟩

theorem map_eq_ok_iff {result : Except ε α} {step : α → β} {value : β} :
    result.map step = .ok value ↔ ∃ before, result = .ok before ∧ step before = value := by
  cases result <;> simp [Except.map]

theorem map_eq_error_iff {result : Except ε α} {step : α → β} {error : ε} :
    result.map step = .error error ↔ result = .error error := by
  cases result <;> simp [Except.map]

@[simp] theorem mapError_ok (rename : ε → δ) (value : α) :
    (Except.ok value : Except ε α).mapError rename = .ok value :=
  rfl

@[simp] theorem mapError_error (rename : ε → δ) (error : ε) :
    (Except.error error : Except ε α).mapError rename = .error (rename error) :=
  rfl

theorem mapError_eq_ok_iff {rename : ε → δ} {result : Except ε α} {value : α} :
    result.mapError rename = .ok value ↔ result = .ok value := by
  cases result <;> simp

theorem mapM_cons_eq (step : α → Except ε β) (first : α) (rest : List α) :
    (first :: rest).mapM step =
      match step first with
      | .error error => .error error
      | .ok value => (rest.mapM step).map (value :: ·) := by
  rw [List.mapM_cons]
  cases step first with
  | error error => rfl
  | ok value => cases rest.mapM step <;> rfl

theorem mapM_eq_ok_iff (step : α → Except ε β) (items : List α) (values : List β) :
    items.mapM step = .ok values ↔ items.map step = values.map .ok := by
  induction items generalizing values with
  | nil => cases values <;> simp [pure, Except.pure]
  | cons first rest ih =>
      rw [mapM_cons_eq]
      cases values with
      | nil => cases step first <;> simp [map_eq_ok_iff]
      | cons value others =>
          cases ended : step first with
          | error error => simp [ended]
          | ok other =>
              simp only [map_eq_ok_iff, List.cons.injEq, List.map_cons, ended, Except.ok.injEq, ih]
              constructor
              · rintro ⟨tail, same, rfl, rfl⟩
                exact ⟨rfl, same⟩
              · rintro ⟨rfl, same⟩
                exact ⟨others, same, rfl, rfl⟩

theorem exists_of_mapM_eq_ok {step : α → Except ε β} {items : List α} {values : List β} {item : α}
    (success : items.mapM step = .ok values) (member : item ∈ items) :
    ∃ value, step item = .ok value := by
  have inside : step item ∈ values.map .ok := by
    rw [← (mapM_eq_ok_iff step items values).mp success]
    exact List.mem_map_of_mem member
  obtain ⟨value, _, same⟩ := List.mem_map.mp inside
  exact ⟨value, same.symm⟩

def FirstFailure (step : α → Except ε β) (items : List α) (index : Nat) (item : α) (error : ε) :
    Prop :=
  items[index]? = some item ∧ step item = .error error ∧
    ∀ earlier < index, ∀ other, items[earlier]? = some other → ∃ value, step other = .ok value

theorem firstFailure_cons_iff {step : α → Except ε β} {first item : α} {rest : List α} {index : Nat}
    {error : ε} {value : β} (passed : step first = .ok value) :
    FirstFailure step (first :: rest) (index + 1) item error ↔
      FirstFailure step rest index item error := by
  simp only [FirstFailure, List.getElem?_cons_succ]
  constructor
  · rintro ⟨found, failed, before⟩
    refine ⟨found, failed, fun earlier lower other there => ?_⟩
    exact before (earlier + 1) (by omega) other (by simpa using there)
  · rintro ⟨found, failed, before⟩
    refine ⟨found, failed, fun earlier lower other there => ?_⟩
    cases earlier with
    | zero =>
        simp only [List.getElem?_cons_zero, Option.some.injEq] at there
        exact ⟨value, there ▸ passed⟩
    | succ earlier => exact before earlier (by omega) other (by simpa using there)

theorem mapM_eq_error_iff (step : α → Except ε β) (items : List α) (error : ε) :
    items.mapM step = .error error ↔
      ∃ index item, FirstFailure step items index item error := by
  induction items with
  | nil => simp [pure, Except.pure, FirstFailure]
  | cons first rest ih =>
      rw [mapM_cons_eq]
      cases ended : step first with
      | error cause =>
          simp only [Except.error.injEq]
          constructor
          · rintro rfl
            exact ⟨0, first, rfl, ended, by omega⟩
          · rintro ⟨index, item, found, failed, before⟩
            cases index with
            | zero =>
                simp only [List.getElem?_cons_zero, Option.some.injEq] at found
                subst item
                rw [ended, Except.error.injEq] at failed
                exact failed
            | succ index =>
                obtain ⟨value, passed⟩ := before 0 (by omega) first rfl
                rw [ended] at passed
                simp at passed
      | ok value =>
          simp only [map_eq_error_iff, ih]
          constructor
          · rintro ⟨index, item, failure⟩
            exact ⟨index + 1, item, (firstFailure_cons_iff ended).mpr failure⟩
          · rintro ⟨index, item, failure⟩
            cases index with
            | zero =>
                obtain ⟨found, failed, _⟩ := failure
                simp only [List.getElem?_cons_zero, Option.some.injEq] at found
                subst item
                rw [ended] at failed
                simp at failed
            | succ index => exact ⟨index, item, (firstFailure_cons_iff ended).mp failure⟩

theorem all_ok_or_first_error (step : α → Except ε β) (items : List α) :
    (∃ values : List β, items.map step = values.map .ok) ∨
    ∃ (earlier later : List α) (item : α) (values : List β) (error : ε),
      items = earlier ++ item :: later ∧ earlier.map step = values.map .ok ∧
      step item = .error error := by
  induction items with
  | nil => exact .inl ⟨[], rfl⟩
  | cons first rest ih =>
      cases ended : step first with
      | error error => exact .inr ⟨[], rest, first, [], error, rfl, rfl, ended⟩
      | ok value =>
          rcases ih with
            ⟨values, passed⟩ | ⟨earlier, later, item, values, error, split, passed, failed⟩
          · exact .inl ⟨value :: values, by simp [ended, passed]⟩
          · exact .inr ⟨first :: earlier, later, item, value :: values, error, by simp [split],
              by simp [ended, passed], failed⟩

theorem mapM_map_eq_map_mapError {β' : Type} (step : α → Except ε β) (changed : γ → Except δ β')
    (change : α → γ) (convert : β → β') (rename : ε → δ) (items : List α)
    (same : ∀ item ∈ items, changed (change item) = ((step item).map convert).mapError rename) :
    (items.map change).mapM changed =
      ((items.mapM step).map (List.map convert)).mapError rename := by
  induction items with
  | nil => rfl
  | cons first rest ih =>
      have tail := ih fun item member => same item (List.mem_cons_of_mem _ member)
      rw [List.map_cons, mapM_cons_eq, mapM_cons_eq, same first List.mem_cons_self, tail]
      cases step first with
      | error error => rfl
      | ok value => cases rest.mapM step <;> rfl

theorem mapM_map_eq_mapError (step : α → Except ε β) (changed : γ → Except δ β) (change : α → γ)
    (rename : ε → δ) (items : List α)
    (same : ∀ item ∈ items, changed (change item) = (step item).mapError rename) :
    (items.map change).mapM changed = (items.mapM step).mapError rename := by
  have kept (result : Except ε β) : result.map id = result := by cases result <;> rfl
  rw [mapM_map_eq_map_mapError step changed change id rename items]
  · rw [List.map_id_fun]
    cases items.mapM step <;> rfl
  · intro item member
    rw [kept, same item member]

theorem mapM_congr {step other : α → Except ε β} {items : List α}
    (same : ∀ item ∈ items, step item = other item) : items.mapM step = items.mapM other := by
  induction items with
  | nil => rfl
  | cons first rest ih =>
      have tail := ih fun item member => same item (List.mem_cons_of_mem _ member)
      rw [mapM_cons_eq, mapM_cons_eq, same first List.mem_cons_self, tail]

theorem mapM_map_eq_some {write : α → β} {read : β → Option γ} {value : α → γ} {items : List α}
    (back : ∀ item ∈ items, read (write item) = some (value item)) :
    (items.map write).mapM read = some (items.map value) := by
  induction items with
  | nil => rfl
  | cons first rest ih =>
      have tail := ih fun item member => back item (List.mem_cons_of_mem _ member)
      rw [List.map_cons, List.mapM_cons, back first List.mem_cons_self, tail]
      rfl

inductive Alike (related : α → β → Prop) : Except ε α → Except ε β → Prop where
  | error (error : ε) : Alike related (.error error) (.error error)
  | ok {left : α} {right : β} (values : related left right) : Alike related (.ok left) (.ok right)

theorem Alike.exists_of_ok {related : α → β → Prop} {left : α} {result : Except ε β}
    (alike : Alike related (.ok left) result) :
    ∃ right, result = .ok right ∧ related left right := by
  cases alike with
  | ok values => exact ⟨_, rfl, values⟩

end TwoPass.Result
