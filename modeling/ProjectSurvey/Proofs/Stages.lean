import Mathlib.Data.List.Basic

/-!
# What comes of several stages

Files are read in stages, each of which may fail, and a list of items is read item by item. **The
first stage that fails decides what fails** (`bind_eq_error_iff`, `mapM_eq_error_iff`), and
something comes of the whole exactly if something comes of every stage.
-/

namespace ProjectSurvey

variable {α β γ ε : Type}

/-! ### What comes to an end -/

/-- What is tested of a result is so of what it is. -/
theorem exists_of_any_toOption {x : Except ε α} {p : α → Bool} (h : x.toOption.any p = true) :
    ∃ a, x = .ok a ∧ p a = true := by
  cases x with
  | error e => cases h
  | ok a => exact ⟨a, rfl, h⟩

/-- Two stages succeed when the first does and the second does with its result. -/
theorem bind_eq_ok_iff {x : Except ε α} {f : α → Except ε β} {b : β} :
    (x >>= f) = .ok b ↔ ∃ a, x = .ok a ∧ f a = .ok b := by
  cases x <;> simp [bind, Except.bind]

/-- Something comes of two steps if it comes of the first and then of the second. -/
theorem exists_bind_eq_ok_iff {x : Except ε α} {f : α → Except ε β} :
    (∃ b, (x >>= f) = .ok b) ↔ ∃ a, x = .ok a ∧ ∃ b, f a = .ok b := by
  cases x <;> simp [bind, Except.bind]

/-- A last step that cannot fail changes nothing about that. -/
theorem exists_bind_pure_eq_ok_iff {x : Except ε α} {g : α → β} :
    (∃ b, (x >>= fun a => pure (g a)) = .ok b) ↔ ∃ a, x = .ok a := by
  simp [exists_bind_eq_ok_iff, pure, Except.pure]

/-- Something comes of all items if something comes of each. -/
theorem exists_mapM_eq_ok_iff {f : α → Except ε β} {items : List α} :
    (∃ r, items.mapM f = .ok r) ↔ ∀ a ∈ items, ∃ b, f a = .ok b := by
  induction items with
  | nil => exact iff_of_true ⟨[], rfl⟩ (by simp)
  | cons a items ih =>
    rw [List.forall_mem_cons, ← ih, List.mapM_cons, exists_bind_eq_ok_iff]
    simp only [exists_bind_eq_ok_iff]
    constructor
    · rintro ⟨b, hb, bs, hbs, -⟩
      exact ⟨⟨b, hb⟩, bs, hbs⟩
    · rintro ⟨⟨b, hb⟩, bs, hbs⟩
      exact ⟨b, hb, bs, hbs, _, rfl⟩

/-- Stages that agree on each item agree on the items. -/
theorem mapM_congr {f g : α → Except ε β} {items : List α} (h : ∀ a ∈ items, f a = g a) :
    items.mapM f = items.mapM g := by
  induction items with
  | nil => rfl
  | cons a items ih =>
    obtain ⟨ha, hitems⟩ := List.forall_mem_cons.mp h
    rw [List.mapM_cons, List.mapM_cons, ha, ih hitems]

/-- A reader of items that undoes what made them undoes it for a list of them. -/
theorem mapM_map_eq_ok {f : β → Except ε γ} {g : α → β} {k : α → γ} {items : List α}
    (h : ∀ a ∈ items, f (g a) = .ok (k a)) : (items.map g).mapM f = .ok (items.map k) := by
  induction items with
  | nil => rfl
  | cons a items ih =>
    obtain ⟨ha, hitems⟩ := List.forall_mem_cons.mp h
    rw [List.map_cons, List.mapM_cons, ha, ih hitems]
    rfl

/-! ### What fails first -/

/-- Two stages fail when the first does, or the second with the result of the first. -/
theorem bind_eq_error_iff {x : Except ε α} {f : α → Except ε β} {e : ε} :
    (x >>= f) = .error e ↔ x = .error e ∨ ∃ a, x = .ok a ∧ f a = .error e := by
  cases x <;> simp [bind, Except.bind]

/-- A list is gone through up to the first item that fails. -/
theorem mapM_eq_error_iff {f : α → Except ε β} {items : List α} {e : ε} :
    items.mapM f = .error e ↔ ∃ before x after, items = before ++ x :: after ∧
      (∀ y ∈ before, ∃ b, f y = .ok b) ∧ f x = .error e := by
  induction items with
  | nil => simp [pure, Except.pure]
  | cons a items ih =>
    rw [List.mapM_cons, bind_eq_error_iff]
    constructor
    · rintro (h | ⟨b, hb, h⟩)
      · exact ⟨[], a, items, rfl, by simp, h⟩
      · rcases bind_eq_error_iff.mp h with h | ⟨bs, -, h⟩
        · obtain ⟨before, x, after, rfl, hbefore, hx⟩ := ih.mp h
          exact ⟨a :: before, x, after, rfl, List.forall_mem_cons.mpr ⟨⟨b, hb⟩, hbefore⟩, hx⟩
        · cases h
    · rintro ⟨before, x, after, hitems, hbefore, hx⟩
      cases before with
      | nil =>
        obtain ⟨rfl, rfl⟩ := List.cons.inj hitems
        exact .inl hx
      | cons y before =>
        obtain ⟨rfl, rfl⟩ := List.cons.inj hitems
        obtain ⟨⟨b, hb⟩, hbefore⟩ := List.forall_mem_cons.mp hbefore
        exact .inr ⟨b, hb, bind_eq_error_iff.mpr (.inl (ih.mpr ⟨_, x, after, rfl, hbefore, hx⟩))⟩

/-- Items none of which fails so do not fail so together. -/
theorem mapM_ne_error {f : α → Except ε β} {e : ε} (h : ∀ a, f a ≠ .error e) (items : List α) :
    items.mapM f ≠ .error e := by
  rw [Ne, mapM_eq_error_iff]
  rintro ⟨-, x, -, -, -, hx⟩
  exact h x hx

/-- Nor do they with names beside them. -/
theorem mapM_snd_ne_error {f : α → Except ε β} {e : ε} (h : ∀ a, f a ≠ .error e)
    (pairs : List (γ × α)) : (pairs.mapM fun (name, a) => do pure (name, ← f a)) ≠ .error e := by
  apply mapM_ne_error
  simp [bind_eq_error_iff, h, pure, Except.pure]

end ProjectSurvey
