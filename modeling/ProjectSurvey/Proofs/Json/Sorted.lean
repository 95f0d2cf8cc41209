import ProjectSurvey.Proofs.Json.RoundTrip
import ProjectSurvey.Proofs.Sorting

/-!
# Values with sorted members

Files are kept with the members of every table sorted by name. Sorting changes nothing that is asked
of a table by key (`get?_sorted`) and nothing that is sorted already (`sortKeys_sortKeys`), so that
**what `Json.pretty` writes, `Json.parse` reads, up to the order of members** (`parse_pretty`).
-/

namespace ProjectSurvey.Json

/-- The items of a list are sorted one by one. -/
theorem sortItems_eq_map (ds : List Datum) : sortItems ds = ds.map sortKeys := by
  induction ds with
  | nil => rfl
  | cons d ds ih => rw [sortItems, ih, List.map_cons]

/-- The values of a table are sorted one by one. -/
theorem sortValues_eq_map (kvs : List (String × Datum)) :
    sortValues kvs = kvs.map fun p => (p.1, sortKeys p.2) := by
  induction kvs with
  | nil => rfl
  | cons p kvs ih =>
    obtain ⟨k, d⟩ := p
    rw [sortValues, ih, List.map_cons]

/-- Sorting the members rearranges them. -/
theorem sortMembers_perm {α : Type} (kvs : List (String × α)) : (sortMembers kvs).Perm kvs :=
  List.mergeSort_perm kvs _

/-- Sorted members stay as they are. -/
theorem sortMembers_sortMembers {α : Type} (kvs : List (String × α)) :
    sortMembers (sortMembers kvs) = sortMembers kvs := by
  unfold sortMembers
  exact List.mergeSort_of_pairwise
    (List.pairwise_mergeSort (Sorting.before_trans Prod.fst) (Sorting.before_total Prod.fst) _)

/-- What is in a sorted table. -/
theorem mem_sorted {kvs : List (String × Datum)} {p : String × Datum} :
    p ∈ sortMembers (sortValues kvs) ↔ ∃ d, (p.1, d) ∈ kvs ∧ p.2 = sortKeys d := by
  rw [(sortMembers_perm _).mem_iff, sortValues_eq_map, List.mem_map]
  constructor
  · rintro ⟨⟨k, d⟩, hmem, rfl⟩
    exact ⟨d, hmem, rfl⟩
  · rintro ⟨d, hmem, heq⟩
    exact ⟨(p.1, d), hmem, by rw [← heq]⟩

/-- The keys of a sorted table are the old ones in another order. -/
theorem keys_sorted_perm (kvs : List (String × Datum)) :
    ((sortMembers (sortValues kvs)).map Prod.fst).Perm (kvs.map Prod.fst) := by
  have h := (sortMembers_perm (sortValues kvs)).map Prod.fst
  rw [sortValues_eq_map, List.map_map] at h
  rw [sortValues_eq_map]
  exact h

mutual

/-- What is writable is so with sorted keys, -/
theorem isWritable_sortKeys (d : Datum) (h : IsWritable d) : IsWritable (sortKeys d) :=
  match d with
  | .list ds => by
      rw [sortKeys]
      exact areWritable_sortItems ds h
  | .table kvs => by
      rw [sortKeys, isWritable_table]
      refine ⟨(keys_sorted_perm kvs).nodup_iff.mpr h.1, ?_⟩
      intro p hp
      exact membersAreWritable_sortValues kvs h.2 p ((sortMembers_perm _).mem_iff.mp hp)
  | .null => h
  | .bool _ => h
  | .int _ => h
  | .real _ => h
  | .text _ => h
  | .moment _ _ => h

/-- for the items of a list -/
theorem areWritable_sortItems (ds : List Datum) (h : AreWritable ds) : AreWritable (sortItems ds) :=
  match ds with
  | [] => trivial
  | d :: ds => ⟨isWritable_sortKeys d h.1, areWritable_sortItems ds h.2⟩

/-- and for the values of a table. -/
theorem membersAreWritable_sortValues (kvs : List (String × Datum))
    (h : MembersAreWritable kvs) : ∀ p ∈ sortValues kvs, IsWritable p.2 :=
  match kvs with
  | [] => by
      intro p hp
      cases hp
  | (k, d) :: kvs => by
      rw [sortValues, List.forall_mem_cons]
      exact ⟨isWritable_sortKeys d h.1, membersAreWritable_sortValues kvs h.2⟩

end

/-- Sorting the keys makes nothing deeper. -/
theorem depth_sortKeys_le {n : Nat} {d : Datum} (h : d.depth ≤ n) : (sortKeys d).depth ≤ n := by
  induction n generalizing d with
  | zero =>
    cases d with
    | list _ => cases h
    | table _ => cases h
    | _ => exact h
  | succ n ih =>
    cases d with
    | list ds =>
      rw [depth_list_le_iff] at h
      rw [sortKeys, sortItems_eq_map, depth_list_le_iff, List.forall_mem_map]
      intro d hd
      exact ih (h d hd)
    | table kvs =>
      rw [depth_table_le_iff] at h
      rw [sortKeys, depth_table_le_iff]
      intro p hp
      obtain ⟨d, hmem, heq⟩ := mem_sorted.mp hp
      rw [heq]
      exact ih (h _ hmem)
    | _ => exact h

/-- Plain data have no keys to sort. -/
theorem sortKeys_of_isPlain {d : Datum} (h : IsPlain d) : sortKeys d = d := by
  cases d with
  | list _ => exact absurd h id
  | table _ => exact absurd h id
  | _ => rfl

/-- A value whose members are sorted stays as it is. -/
theorem sortKeys_sortKeys (d : Datum) : sortKeys (sortKeys d) = sortKeys d := by
  have hdepth : ∀ n, ∀ d : Datum, d.depth ≤ n → sortKeys (sortKeys d) = sortKeys d := by
    intro n
    induction n with
    | zero =>
      intro d h
      cases d with
      | list _ => cases h
      | table _ => cases h
      | _ => rfl
    | succ n ih =>
      intro d h
      cases d with
      | list ds =>
        rw [depth_list_le_iff] at h
        rw [sortKeys, sortKeys, sortItems_eq_map, sortItems_eq_map, List.map_map]
        refine congrArg Datum.list (List.map_congr_left ?_)
        intro d hd
        exact ih d (h d hd)
      | table kvs =>
        rw [depth_table_le_iff] at h
        have hsame : sortValues (sortMembers (sortValues kvs)) = sortMembers (sortValues kvs) := by
          have hid : (sortMembers (sortValues kvs)).map (fun p => (p.1, sortKeys p.2)) =
              (sortMembers (sortValues kvs)).map id := by
            refine List.map_congr_left ?_
            intro p hp
            obtain ⟨d, hmem, heq⟩ := mem_sorted.mp hp
            refine Prod.ext rfl ?_
            show sortKeys p.2 = p.2
            rw [heq]
            exact ih d (h _ hmem)
          rw [sortValues_eq_map (sortMembers (sortValues kvs)), hid, List.map_id]
        rw [sortKeys, sortKeys, hsame, sortMembers_sortMembers]
      | _ => rfl
  exact hdepth d.depth d (Nat.le_refl _)

/-- A key stands for the same value, its members sorted. -/
theorem get?_sorted {kvs : List (String × Datum)} (h : (kvs.map Prod.fst).Nodup) (key : String) :
    Assoc.get? key (sortMembers (sortValues kvs)) = (Assoc.get? key kvs).map sortKeys := by
  have hsorted : ((sortMembers (sortValues kvs)).map Prod.fst).Nodup :=
    (keys_sorted_perm kvs).nodup_iff.mpr h
  refine Option.ext ?_
  intro d
  rw [Assoc.get?_eq_some_iff hsorted, mem_sorted, Option.map_eq_some_iff]
  constructor
  · rintro ⟨x, hmem, rfl⟩
    exact ⟨x, (Assoc.get?_eq_some_iff h).mpr hmem, rfl⟩
  · rintro ⟨x, hget, rfl⟩
    exact ⟨x, (Assoc.get?_eq_some_iff h).mp hget, rfl⟩

/-- **What is written in lines is read as the value with its members sorted.** -/
theorem parse_pretty {d : Datum} (h : IsWritable d) (hdepth : d.depth ≤ nestingLimit) :
    parse (pretty d) = .ok (sortKeys d) :=
  parse_indented (isWritable_sortKeys d h) (depth_sortKeys_le hdepth)

end ProjectSurvey.Json
