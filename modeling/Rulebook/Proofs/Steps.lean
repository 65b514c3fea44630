import Mathlib.Data.List.Forall2

namespace Rulebook

variable {ε α β : Type}

@[simp] theorem ok_bind (value : α) (next : α → Except ε β) :
    (Except.ok value >>= next) = next value := rfl

@[simp] theorem error_bind (error : ε) (next : α → Except ε β) :
    ((Except.error error : Except ε α) >>= next) = .error error := rfl

theorem mapError_ok {δ : Type} (change : ε → δ) (value : α) :
    (Except.ok value).mapError change = .ok value := rfl

theorem mapError_eq_ok {δ : Type} {change : ε → δ} {result : Except ε α} {value : α} :
    result.mapError change = .ok value ↔ result = .ok value := by
  cases result <;> simp [Except.mapError]

theorem mapError_eq_error {δ : Type} {change : ε → δ} {result : Except ε α} {error : δ} :
    result.mapError change = .error error ↔
      ∃ cause, result = .error cause ∧ change cause = error := by
  cases result <;> simp [Except.mapError]

theorem bind_eq_ok {first : Except ε α} {next : α → Except ε β} {result : β} :
    (first >>= next) = .ok result ↔ ∃ value, first = .ok value ∧ next value = .ok result := by
  cases first with
  | error error => simp
  | ok value => simp

theorem bind_eq_error {first : Except ε α} {next : α → Except ε β} {error : ε} :
    (first >>= next) = .error error ↔
      first = .error error ∨ ∃ value, first = .ok value ∧ next value = .error error := by
  cases first with
  | error error => simp
  | ok value => simp

theorem map_eq_ok {result : Except ε α} {view : α → β} {seen : β} :
    result.map view = .ok seen ↔ ∃ value, result = .ok value ∧ view value = seen := by
  cases result with
  | error error => simp [Except.map]
  | ok value => simp [Except.map]

theorem mapM_eq_ok {step : α → Except ε β} {items : List α} {results : List β} :
    items.mapM step = .ok results ↔
      List.Forall₂ (fun item result => step item = .ok result) items results := by
  induction items generalizing results with
  | nil =>
      rw [List.mapM_nil, List.forall₂_nil_left_iff]
      exact ⟨fun same => (Except.ok.inj same).symm, fun same => congrArg Except.ok same.symm⟩
  | cons item rest ih =>
      rw [List.mapM_cons, bind_eq_ok, List.forall₂_cons_left_iff]
      constructor
      · rintro ⟨first, read, further⟩
        obtain ⟨others, later, same⟩ := bind_eq_ok.mp further
        exact ⟨first, others, read, ih.mp later, (Except.ok.inj same).symm⟩
      · rintro ⟨first, others, read, later, rfl⟩
        exact ⟨first, read, bind_eq_ok.mpr ⟨others, ih.mpr later, rfl⟩⟩

theorem mem_of_mapM {step : α → Except ε β} {items : List α} {results : List β}
    (all : items.mapM step = .ok results) {item : α} (member : item ∈ items) :
    ∃ result ∈ results, step item = .ok result := by
  rw [mapM_eq_ok] at all
  induction all with
  | nil => contradiction
  | cons first _ ih =>
      rcases List.mem_cons.mp member with rfl | later
      · exact ⟨_, List.mem_cons_self, first⟩
      · obtain ⟨result, among, same⟩ := ih later
        exact ⟨result, List.mem_cons_of_mem _ among, same⟩

theorem mapM_fails {step : α → Except ε β} {items : List α} :
    (∃ error, items.mapM step = .error error) ↔
      ∃ item ∈ items, ∃ error, step item = .error error := by
  induction items with
  | nil => exact ⟨nofun, nofun⟩
  | cons item rest ih =>
      simp only [List.mapM_cons, List.mem_cons, exists_eq_or_imp, ← ih]
      cases step item with
      | error error => exact ⟨fun _ => .inl ⟨error, rfl⟩, fun _ => ⟨error, rfl⟩⟩
      | ok result => cases rest.mapM step <;> simp

theorem forM_eq_ok {check : α → Except ε Unit} {items : List α} :
    items.forM check = .ok () ↔ ∀ item ∈ items, check item = .ok () := by
  induction items with
  | nil => exact ⟨fun _ => nofun, fun _ => rfl⟩
  | cons item rest ih =>
      rw [List.forall_mem_cons, ← ih]
      change (check item >>= fun _ => rest.forM check) = _ ↔ _
      rw [bind_eq_ok]
      exact ⟨fun ⟨_, first, later⟩ => ⟨first, later⟩, fun ⟨first, later⟩ => ⟨(), first, later⟩⟩

theorem forM_eq_error {check : α → Except ε Unit} {items : List α} {error : ε}
    (failed : items.forM check = .error error) : ∃ item ∈ items, check item = .error error := by
  induction items with
  | nil => contradiction
  | cons item rest ih =>
      change (check item >>= fun _ => rest.forM check) = _ at failed
      rcases bind_eq_error.mp failed with first | ⟨-, -, later⟩
      · exact ⟨item, List.mem_cons_self, first⟩
      · rcases ih later with ⟨other, member, refused⟩
        exact ⟨other, List.mem_cons_of_mem item member, refused⟩

end Rulebook
