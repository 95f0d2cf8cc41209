import ProjectSurvey.Proofs.Json.Sorted

/-!
# Integers that are too long

Writing a value fails if an integer in it has more digits than may be shown. **What can be written
and read again can be shown** (`IsWritable.isShowable`), and of many values nothing else has to be
said: they can be written if they can be shown (`IsStorable`). Sorting members shows no other
integers (`isShowable_sortKeys`).
-/

namespace ProjectSurvey.Json

/-- A list of data can be shown when each of them can. -/
theorem areShowable_iff (ds : List Datum) :
    Datum.areShowable ds = true ↔ ∀ d ∈ ds, d.isShowable = true := by
  induction ds with
  | nil => simp [Datum.areShowable]
  | cons d ds ih => rw [Datum.areShowable, Bool.and_eq_true, ih, List.forall_mem_cons]

/-- The members of a table can be shown when each value can. -/
theorem membersAreShowable_iff (kvs : List (String × Datum)) :
    Datum.membersAreShowable kvs = true ↔ ∀ p ∈ kvs, p.2.isShowable = true := by
  induction kvs with
  | nil => simp [Datum.membersAreShowable]
  | cons p kvs ih =>
    obtain ⟨k, d⟩ := p
    rw [Datum.membersAreShowable, Bool.and_eq_true, ih, List.forall_mem_cons]

/-- What a table shows, its values show. -/
theorem isShowable_of_mem {kvs : List (String × Datum)} {k : String} {d : Datum}
    (h : (Datum.table kvs).isShowable = true) (hmem : (k, d) ∈ kvs) : d.isShowable = true := by
  rw [Datum.isShowable, membersAreShowable_iff] at h
  exact h (k, d) hmem

/-! ### What can be written -/

mutual

/-- **What can be written and read again can be shown.** -/
theorem IsWritable.isShowable (d : Datum) (h : IsWritable d) : d.isShowable = true :=
  match d with
  | .list ds => by
      rw [Datum.isShowable]
      exact AreWritable.areShowable ds h
  | .table kvs => by
      rw [Datum.isShowable]
      exact MembersAreWritable.membersAreShowable kvs h.2
  | .int _ => by
      rw [Datum.isShowable, decide_eq_true_eq]
      exact h
  | .null => rfl
  | .bool _ => rfl
  | .real _ => rfl
  | .text _ => rfl
  | .moment _ _ => rfl

/-- The items of a writable list can be shown. -/
theorem AreWritable.areShowable (ds : List Datum) (h : AreWritable ds) :
    Datum.areShowable ds = true :=
  match ds with
  | [] => rfl
  | d :: ds => by
      rw [Datum.areShowable, Bool.and_eq_true]
      exact ⟨IsWritable.isShowable d h.1, AreWritable.areShowable ds h.2⟩

/-- So can the values of a writable table. -/
theorem MembersAreWritable.membersAreShowable (kvs : List (String × Datum))
    (h : MembersAreWritable kvs) : Datum.membersAreShowable kvs = true :=
  match kvs with
  | [] => rfl
  | (_, d) :: kvs => by
      rw [Datum.membersAreShowable, Bool.and_eq_true]
      exact ⟨IsWritable.isShowable d h.1, MembersAreWritable.membersAreShowable kvs h.2⟩

end

/-! ### What can be written if it can be shown -/

/-- Whether a value can be written if its integers can be shown. -/
def IsStorable (d : Datum) : Prop := d.isShowable = true → IsWritable d

/-- A text can be stored. -/
theorem isStorable_text (s : String) : IsStorable (.text s) := fun _ => trivial

/-- So can a truth value, -/
theorem isStorable_bool (b : Bool) : IsStorable (.bool b) := fun _ => trivial

/-- a whole number, -/
theorem isStorable_int (n : Int) : IsStorable (.int n) := by
  intro h
  rw [Datum.isShowable, decide_eq_true_eq] at h
  exact h

/-- a natural number, -/
theorem isStorable_nat (n : Nat) : IsStorable (.nat n) := isStorable_int n

/-- a real number that is restored by reading, -/
theorem isStorable_real {x : Binary64} (h : IsRestored x) : IsStorable (.real x) := fun _ => h

/-- a list of texts, -/
theorem isStorable_texts (ss : List String) : IsStorable (Datum.texts ss) :=
  fun _ => isWritable_texts ss

/-- and a text that may be missing. -/
theorem isStorable_ofText? (s : Option String) : IsStorable (Datum.ofText? s) := by
  cases s <;> exact fun _ => trivial

/-- A list can be stored when its items can. -/
theorem isStorable_list {ds : List Datum} (h : ∀ d ∈ ds, IsStorable d) : IsStorable (.list ds) := by
  intro hshow
  rw [Datum.isShowable, areShowable_iff] at hshow
  exact isWritable_list.mpr fun d hd => h d hd (hshow d hd)

/-- A table with distinct keys can be stored when its values can. -/
theorem isStorable_table {kvs : List (String × Datum)} (hnodup : (kvs.map Prod.fst).Nodup)
    (h : ∀ p ∈ kvs, IsStorable p.2) : IsStorable (.table kvs) := by
  intro hshow
  rw [Datum.isShowable, membersAreShowable_iff] at hshow
  exact isWritable_table.mpr ⟨hnodup, fun p hp => h p hp (hshow p hp)⟩

/-- A list made from items can be stored when each made one can. -/
theorem isStorable_list_map {α : Type} {f : α → Datum} {items : List α}
    (h : ∀ a ∈ items, IsStorable (f a)) : IsStorable (.list (items.map f)) :=
  isStorable_list (List.forall_mem_map.mpr h)

/-- A mapping can be stored when its values can and its keys are distinct. -/
theorem isStorable_mapping {α : Type} {f : α → Datum} {mapping : Assoc String α}
    (hnodup : (Assoc.keys mapping).Nodup) (h : ∀ p ∈ mapping, IsStorable (f p.2)) :
    IsStorable (.table (mapping.map fun p => (p.1, f p.2))) := by
  refine isStorable_table ?_ (List.forall_mem_map.mpr h)
  rw [List.map_map]
  exact hnodup

/-! ### Sorting -/

mutual

/-- Sorting the keys changes nothing about what can be shown, -/
theorem isShowable_sortKeys (d : Datum) : (sortKeys d).isShowable = d.isShowable :=
  match d with
  | .list ds => by rw [sortKeys, Datum.isShowable, Datum.isShowable, areShowable_sortItems ds]
  | .table kvs => by
      rw [sortKeys, Datum.isShowable, Datum.isShowable, ← membersAreShowable_sortValues kvs,
        Bool.eq_iff_iff, membersAreShowable_iff, membersAreShowable_iff]
      exact forall_congr' fun p => imp_congr_left (sortMembers_perm _).mem_iff
  | .null => rfl
  | .bool _ => rfl
  | .int _ => rfl
  | .real _ => rfl
  | .text _ => rfl
  | .moment _ _ => rfl

/-- for the items of a list -/
theorem areShowable_sortItems (ds : List Datum) :
    Datum.areShowable (sortItems ds) = Datum.areShowable ds :=
  match ds with
  | [] => rfl
  | d :: ds => by
      rw [sortItems, Datum.areShowable, Datum.areShowable, isShowable_sortKeys d,
        areShowable_sortItems ds]

/-- and for the members of a table. -/
theorem membersAreShowable_sortValues (kvs : List (String × Datum)) :
    Datum.membersAreShowable (sortValues kvs) = Datum.membersAreShowable kvs :=
  match kvs with
  | [] => rfl
  | (k, d) :: kvs => by
      rw [sortValues, Datum.membersAreShowable, Datum.membersAreShowable, isShowable_sortKeys d,
        membersAreShowable_sortValues kvs]

end

end ProjectSurvey.Json
