import Mathlib.Data.List.Nodup

/-!
# Sorting and grouping by a text

Files, rules and packages are put in order by a text, their path or their name. **Where no text
comes twice, the sorted list is the only permutation in strict order** (`mergeSort_eq_of_perm`), so
a statement about a sorted list needs to say nothing about how it was sorted. What several items
give rise to can be told apart again by their texts (`filter_flatMap_of_nodup`).
-/

namespace ProjectSurvey.Sorting

variable {α : Type} (key : α → String)

/-- Whether one item may stand before another. -/
def before (a b : α) : Bool := decide (key a ≤ key b)

/-- The order by a key goes on. -/
theorem before_trans (a b c : α) (hab : before key a b = true) (hbc : before key b c = true) :
    before key a c = true := by
  unfold before at *
  rw [decide_eq_true_eq] at *
  exact String.le_trans hab hbc

/-- The order by a key compares any two. -/
theorem before_total (a b : α) : (before key a b || before key b a) = true := by
  unfold before
  rw [Bool.or_eq_true, decide_eq_true_eq, decide_eq_true_eq]
  exact String.le_total _ _

/-- A sorted list is in order. -/
theorem pairwise_mergeSort_le (xs : List α) :
    (xs.mergeSort (before key)).Pairwise fun a b => key a ≤ key b := by
  have h := List.pairwise_mergeSort (before_trans key) (before_total key) xs
  exact h.imp fun hab => by simpa [before] using hab

/-- Of items with different texts, the sorted list is in strict order. -/
theorem pairwise_mergeSort_lt {xs : List α} (h : (xs.map key).Nodup) :
    (xs.mergeSort (before key)).Pairwise fun a b => key a < key b := by
  have hnodup : ((xs.mergeSort (before key)).map key).Nodup :=
    ((xs.mergeSort_perm (before key)).map key).nodup_iff.mpr h
  rw [List.Nodup, List.pairwise_map] at hnodup
  refine ((pairwise_mergeSort_le key xs).and hnodup).imp ?_
  rintro a b ⟨hle, hne⟩
  exact Std.lt_of_le_of_ne hle hne

/-- The only permutation in strict order is the sorted list. -/
theorem mergeSort_eq_of_perm {xs ys : List α} (hperm : ys.Perm xs)
    (hstrict : ys.Pairwise fun a b => key a < key b) : xs.mergeSort (before key) = ys := by
  have hsorted := pairwise_mergeSort_le key xs
  have hle : ys.Pairwise fun a b => key a ≤ key b := hstrict.imp Std.le_of_lt
  have hnodup : (ys.map key).Nodup := by
    rw [List.Nodup, List.pairwise_map]
    exact hstrict.imp String.ne_of_lt
  refine List.Perm.eq_of_pairwise ?_ hsorted hle ((xs.mergeSort_perm _).trans hperm.symm)
  intro a b ha hb hab hba
  have hmem : a ∈ ys := hperm.mem_iff.mpr ((xs.mergeSort_perm _).mem_iff.mp ha)
  exact List.inj_on_of_nodup_map hnodup hmem hb (String.le_antisymm hab hba)

/-! ### Groups -/

/-- Where only one of several items with different texts gives rise to anything, that is all. -/
theorem flatMap_eq_of_nodup {β : Type} (f : α → List β) {xs : List α}
    (hnodup : (xs.map key).Nodup) {x : α} (hx : x ∈ xs)
    (hother : ∀ y ∈ xs, key y ≠ key x → f y = []) : xs.flatMap f = f x := by
  induction xs with
  | nil => contradiction
  | cons y rest ih =>
    rw [List.map_cons, List.nodup_cons] at hnodup
    obtain ⟨hnew, hrest⟩ := hnodup
    rw [List.flatMap_cons]
    rcases List.mem_cons.mp hx with rfl | hmem
    · have hnone : rest.flatMap f = [] := by
        rw [List.flatMap_eq_nil_iff]
        intro z hz
        refine hother z (List.mem_cons_of_mem _ hz) ?_
        intro heq
        exact hnew (heq ▸ List.mem_map_of_mem hz)
      rw [hnone, List.append_nil]
    · have hne : key y ≠ key x := fun heq => hnew (heq ▸ List.mem_map_of_mem hmem)
      rw [hother y List.mem_cons_self hne, List.nil_append]
      exact ih hrest hmem fun z hz => hother z (List.mem_cons_of_mem _ hz)

/-- Among what items with different texts give rise to, what belongs to one text is what the item
with that text gives rise to. -/
theorem filter_flatMap_of_nodup {β : Type} (f : α → List β) (belongs : β → Bool) {xs : List α}
    (hnodup : (xs.map key).Nodup) {x : α} (hx : x ∈ xs) (hown : ∀ b ∈ f x, belongs b = true)
    (hother : ∀ y ∈ xs, key y ≠ key x → ∀ b ∈ f y, belongs b = false) :
    (xs.flatMap f).filter belongs = f x := by
  rw [List.filter_flatMap, flatMap_eq_of_nodup key _ hnodup hx, List.filter_eq_self.mpr hown]
  intro y hy hne
  rw [List.filter_eq_nil_iff]
  intro b hb
  simp [hother y hy hne b hb]

end ProjectSurvey.Sorting
