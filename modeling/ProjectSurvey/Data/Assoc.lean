/-!
# Tables in order of insertion

Lists of pairs used as tables: the order is that in which the keys first came, a later value of a
key takes the place of the earlier one. **A table built by `insert` never holds a key twice**
(`nodup_keys_insert`), and `get?` after `insert` answers the new value (`get?_insert`); so it does
after `update` with a table that holds no key twice (`get?_update`). The table of a list of pairs
has the keys in the order in which they come first, each with the value that comes last
(`keys_ofPairs`, `get?_ofPairs`).
-/

namespace ProjectSurvey

/-- A table as the list of its pairs. -/
abbrev Assoc (κ α : Type) := List (κ × α)

namespace Assoc

variable {κ α : Type} [DecidableEq κ]

/-- The value of a key. -/
def get? (key : κ) : Assoc κ α → Option α
  | [] => none
  | (k, v) :: t => if k = key then some v else get? key t

/-- The table with a new value for a key. -/
def insert (key : κ) (value : α) : Assoc κ α → Assoc κ α
  | [] => [(key, value)]
  | (k, v) :: t => if k = key then (k, value) :: t else (k, v) :: insert key value t

/-- The table with all pairs of another inserted, in their order. -/
def update (t : Assoc κ α) (more : Assoc κ α) : Assoc κ α :=
  more.foldl (fun t (k, v) => insert k v t) t

/-- The table with a value only for keys that had none. -/
def insertNew (key : κ) (value : α) (t : Assoc κ α) : Assoc κ α :=
  if (get? key t).isSome then t else t ++ [(key, value)]

/-- The table of a list of pairs. -/
def ofPairs (pairs : List (κ × α)) : Assoc κ α := update [] pairs

/-- The table without a key. -/
def erase (key : κ) (t : Assoc κ α) : Assoc κ α := t.filter fun (k, _) => k ≠ key

/-- The keys in order. -/
def keys (t : Assoc κ α) : List κ := t.map Prod.fst

/-- Whether a key has a value. -/
def has (key : κ) (t : Assoc κ α) : Bool := (get? key t).isSome

/-- Nothing is kept under a key of the empty table. -/
@[simp] theorem get?_nil (key : κ) : get? key ([] : Assoc κ α) = none := rfl

/-- After an insertion the new value is what its key stands for, and every other key stands for what
it did. -/
theorem get?_insert (key key' : κ) (value : α) (t : Assoc κ α) :
    get? key' (insert key value t) = if key = key' then some value else get? key' t := by
  induction t with
  | nil => simp [insert, get?]
  | cons p t ih =>
    obtain ⟨k, v⟩ := p
    by_cases h : k = key
    · subst h
      by_cases h' : k = key' <;> simp [insert, get?, h']
    · by_cases h' : key = key'
      · subst h'
        simp [insert, get?, h, ih]
      · simp [insert, get?, h, ih, h']

/-- An insertion puts a key that is new at the end and leaves the order of the others. -/
theorem keys_insert (key : κ) (value : α) (t : Assoc κ α) :
    keys (insert key value t) = if key ∈ keys t then keys t else keys t ++ [key] := by
  induction t with
  | nil => simp [insert, keys]
  | cons p t ih =>
    obtain ⟨k, v⟩ := p
    by_cases h : k = key
    · subst h
      simp [insert, keys]
    · have h' : ¬ key = k := fun e => h e.symm
      simp only [keys] at ih
      by_cases hm : key ∈ t.map Prod.fst <;>
        simp_all [insert, keys]

/-- A new key comes last. -/
theorem insert_of_notMem {key : κ} {t : Assoc κ α} (h : key ∉ keys t) (value : α) :
    insert key value t = t ++ [(key, value)] := by
  induction t with
  | nil => rfl
  | cons p t ih =>
    obtain ⟨k, v⟩ := p
    rw [keys, List.map_cons, List.mem_cons, not_or] at h
    rw [insert, if_neg fun heq => h.1 heq.symm, ih h.2, List.cons_append]

/-- No key comes twice after an insertion. -/
theorem nodup_keys_insert (key : κ) (value : α) {t : Assoc κ α} (h : (keys t).Nodup) :
    (keys (insert key value t)).Nodup := by
  rw [keys_insert]
  split
  · exact h
  · next hk =>
    rw [List.nodup_append]
    refine ⟨h, by simp, ?_⟩
    intro a ha b hb hab
    rw [List.mem_singleton] at hb
    subst hb hab
    exact hk ha

/-- New keys that are all different come last, in their order. -/
theorem foldl_insert_of_nodup {β : Type} (key : β → κ) (value : β → α) (xs : List β)
    {t : Assoc κ α} (h : (keys t ++ xs.map key).Nodup) :
    xs.foldl (fun t x => insert (key x) (value x) t) t = t ++ xs.map fun x => (key x, value x) := by
  induction xs generalizing t with
  | nil => simp
  | cons x rest ih =>
    have hnew : key x ∉ keys t := by
      intro hmem
      rw [List.nodup_append] at h
      exact h.2.2 _ hmem _ (List.mem_map_of_mem List.mem_cons_self) rfl
    rw [List.foldl_cons, insert_of_notMem hnew, ih, List.append_assoc]
    · rfl
    · simpa [keys] using h

/-- The value of a key stands beside it. -/
theorem mem_of_get? {t : Assoc κ α} {key : κ} {value : α} (h : get? key t = some value) :
    (key, value) ∈ t := by
  induction t with
  | nil => cases h
  | cons p t ih =>
    obtain ⟨k, v⟩ := p
    rw [get?] at h
    split at h
    · next hk =>
      rw [← hk, ← Option.some.inj h]
      exact List.mem_cons_self
    · exact List.mem_cons_of_mem _ (ih h)

/-- Where no key comes twice, a key has the value that stands beside it. -/
theorem get?_eq_some_iff {t : Assoc κ α} (h : (keys t).Nodup) {key : κ} {value : α} :
    get? key t = some value ↔ (key, value) ∈ t := by
  induction t with
  | nil => simp
  | cons p t ih =>
    obtain ⟨k, v⟩ := p
    rw [keys, List.map_cons, List.nodup_cons] at h
    obtain ⟨hnew, hrest⟩ := h
    rw [get?, List.mem_cons, Prod.mk.injEq]
    by_cases hk : k = key
    · subst hk
      have habsent : (k, value) ∉ t := by
        intro hmem
        have hkey : (k, value).1 ∈ t.map Prod.fst := List.mem_map_of_mem hmem
        exact hnew hkey
      simp [habsent, eq_comm]
    · rw [if_neg hk, ih hrest]
      simp [Ne.symm hk]

/-- In another order the keys of a table have the same values. -/
theorem get?_of_perm {t t' : Assoc κ α} (h : t.Perm t') (hnodup : (keys t).Nodup) (key : κ) :
    get? key t = get? key t' := by
  have hnodup' : (keys t').Nodup := (h.map Prod.fst).nodup_iff.mp hnodup
  refine Option.ext fun v => ?_
  rw [get?_eq_some_iff hnodup, get?_eq_some_iff hnodup', h.mem_iff]

/-- Tables that hold no key twice and give every key the same value hold the same pairs. -/
theorem perm_of_get? {t t' : Assoc κ α} (hnodup : (keys t).Nodup) (hnodup' : (keys t').Nodup)
    (h : ∀ key, get? key t = get? key t') : t.Perm t' := by
  have hpairs : ∀ {t : Assoc κ α}, (keys t).Nodup → t.Nodup :=
    List.Pairwise.of_map Prod.fst fun p q hne heq => hne (congrArg Prod.fst heq)
  rw [List.perm_ext_iff_of_nodup (hpairs hnodup) (hpairs hnodup')]
  rintro ⟨key, v⟩
  rw [← get?_eq_some_iff hnodup, ← get?_eq_some_iff hnodup', h]

/-- A key has a value exactly if it is one of the keys. -/
theorem has_iff_mem_keys (key : κ) (t : Assoc κ α) : has key t = true ↔ key ∈ keys t := by
  induction t with
  | nil => simp [has, keys]
  | cons p t ih =>
    obtain ⟨k, v⟩ := p
    simp only [has, keys] at ih
    by_cases h : k = key
    · simp [has, get?, keys, h]
    · have h' : ¬ key = k := fun e => h e.symm
      simp [has, get?, keys, h, h', ih]

/-- The keys after an insertion are those before and the one inserted. -/
theorem mem_keys_insert (key k : κ) (value : α) (t : Assoc κ α) :
    k ∈ keys (insert key value t) ↔ k = key ∨ k ∈ keys t := by
  rw [keys_insert]
  split
  · next h =>
    constructor
    · exact Or.inr
    · rintro (rfl | hk)
      · exact h
      · exact hk
  · rw [List.mem_append, List.mem_singleton, or_comm]

/-- What is in a table after a new value is what was there before, or the new pair. -/
theorem of_mem_insert {key : κ} {value : α} {t : Assoc κ α} {p : κ × α}
    (h : p ∈ insert key value t) : p = (key, value) ∨ p ∈ t := by
  induction t with
  | nil => exact .inl (List.mem_singleton.mp h)
  | cons q t ih =>
    obtain ⟨k, v⟩ := q
    rw [insert] at h
    by_cases hk : k = key
    · rw [if_pos hk, List.mem_cons, hk] at h
      exact h.imp_right (List.mem_cons_of_mem _)
    · rw [if_neg hk, List.mem_cons] at h
      rcases h with rfl | h
      · exact .inr List.mem_cons_self
      · exact (ih h).imp_right (List.mem_cons_of_mem _)

/-- What is in an updated table was there before or is among the new pairs. -/
theorem of_mem_update {t more : Assoc κ α} {p : κ × α} (h : p ∈ update t more) :
    p ∈ t ∨ p ∈ more := by
  unfold update at h
  induction more generalizing t with
  | nil => exact .inl h
  | cons q rest ih =>
    rw [List.foldl_cons] at h
    rcases ih h with h | h
    · rcases of_mem_insert h with rfl | h
      · exact .inr List.mem_cons_self
      · exact .inl h
    · exact .inr (List.mem_cons_of_mem q h)

/-- A key that is there keeps its place; one that is new is put at the end. -/
theorem keys_insertNew (key : κ) (value : α) (t : Assoc κ α) :
    keys (insertNew key value t) = if key ∈ keys t then keys t else keys t ++ [key] := by
  unfold insertNew
  by_cases h : key ∈ keys t
  · have hhas : (get? key t).isSome = true := (has_iff_mem_keys key t).mpr h
    rw [if_pos hhas, if_pos h]
  · have hhas : ¬ (get? key t).isSome = true := fun hs => h ((has_iff_mem_keys key t).mp hs)
    rw [if_neg hhas, if_neg h]
    simp [keys]

/-- The keys after an insertion of what is missing are those before and the one inserted. -/
theorem mem_keys_insertNew (key k : κ) (value : α) (t : Assoc κ α) :
    k ∈ keys (insertNew key value t) ↔ k = key ∨ k ∈ keys t := by
  rw [keys_insertNew]
  split
  · next h =>
    constructor
    · exact Or.inr
    · rintro (rfl | hk)
      · exact h
      · exact hk
  · rw [List.mem_append, List.mem_singleton, or_comm]

/-- The keys after an update are those of both tables. -/
theorem mem_keys_update (k : κ) (t more : Assoc κ α) :
    k ∈ keys (update t more) ↔ k ∈ keys t ∨ k ∈ keys more := by
  unfold update
  induction more generalizing t with
  | nil => simp [keys]
  | cons p rest ih =>
    rw [List.foldl_cons, ih, mem_keys_insert]
    simp only [keys, List.map_cons, List.mem_cons]
    rw [or_assoc, or_left_comm]

/-- The new pairs of an updated table win. -/
theorem get?_update {more : Assoc κ α} (hmore : (keys more).Nodup) (t : Assoc κ α) (key : κ) :
    get? key (update t more) = (get? key more).or (get? key t) := by
  unfold update
  induction more generalizing t with
  | nil => rfl
  | cons p rest ih =>
    obtain ⟨k, v⟩ := p
    obtain ⟨hnew, hrest⟩ := List.nodup_cons.mp hmore
    rw [List.foldl_cons, ih hrest, get?_insert, get?]
    by_cases hk : k = key
    · subst hk
      have hnone : get? k rest = none := by
        rw [← Option.not_isSome_iff_eq_none]
        exact fun h => hnew ((has_iff_mem_keys k rest).mp h)
      rw [if_pos rfl, if_pos rfl, hnone]
      rfl
    · rw [if_neg hk, if_neg hk]

/-- No key comes twice after an update. -/
theorem nodup_keys_update {t : Assoc κ α} (h : (keys t).Nodup) (more : Assoc κ α) :
    (keys (update t more)).Nodup := by
  unfold update
  induction more generalizing t with
  | nil => exact h
  | cons p rest ih => exact ih (nodup_keys_insert p.1 p.2 h)

/-- The keys of a list of pairs come in the order in which each comes first. -/
theorem keys_ofPairs (pairs : List (κ × α)) :
    keys (ofPairs pairs) = (pairs.map Prod.fst).eraseDups := by
  unfold ofPairs update
  rw [← pairs.reverse_reverse]
  induction pairs.reverse with
  | nil => rfl
  | cons p rest ih =>
    rw [List.reverse_cons]
    generalize rest.reverse = front at ih ⊢
    rw [List.foldl_append, List.foldl_cons, List.foldl_nil, keys_insert, ih,
      List.map_append, List.eraseDups_append, List.map_singleton]
    by_cases h : p.1 ∈ front.map Prod.fst
    · rw [if_pos (List.mem_eraseDups.mpr h)]
      simp [List.removeAll, h]
    · rw [if_neg (mt List.mem_eraseDups.mp h)]
      simp [List.removeAll, h, List.eraseDups_cons]

/-- A key has the value that stands beside it where it comes last. -/
theorem get?_ofPairs (key : κ) (pairs : List (κ × α)) : get? key (ofPairs pairs) =
    ((pairs.filter fun p => decide (p.1 = key)).getLast?).map Prod.snd := by
  unfold ofPairs update
  rw [← pairs.reverse_reverse]
  induction pairs.reverse with
  | nil => rfl
  | cons p rest ih =>
    rw [List.reverse_cons, List.foldl_append, List.foldl_cons, List.foldl_nil, get?_insert, ih,
      List.filter_append]
    by_cases h : p.1 = key <;> simp [h]

/-- A list of pairs with different keys is its own table. -/
theorem ofPairs_of_nodup {pairs : List (κ × α)} (h : (keys pairs).Nodup) :
    ofPairs pairs = pairs := by
  have hfold := foldl_insert_of_nodup Prod.fst Prod.snd pairs (t := []) h
  rw [List.map_id', List.nil_append] at hfold
  exact hfold

/-- A removal leaves what every other key stands for. -/
theorem get?_erase {key other : κ} (h : other ≠ key) (t : Assoc κ α) :
    get? other (erase key t) = get? other t := by
  unfold erase
  induction t with
  | nil => rfl
  | cons p t ih =>
    obtain ⟨k, v⟩ := p
    by_cases hk : k = key
    · rw [List.filter_cons_of_neg (by simpa using hk), get?, if_neg (hk ▸ h.symm), ih]
    · rw [List.filter_cons_of_pos (by simpa using hk), get?, get?, ih]

end Assoc

end ProjectSurvey
