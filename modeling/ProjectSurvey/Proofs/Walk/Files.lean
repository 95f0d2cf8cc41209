import ProjectSurvey.Proofs.Walk.Found

/-!
# The files of a walk and their order

The files that count, with the names that lead to them (`Scope.foundFiles`). **They come in one
strict order**: in every directory first its own files by name, then those of its subdirectories,
these by name as well (`Before`, `pairwise_foundFiles`). A strict order leaves no room for a file
that comes twice, and two walks with the same files have them in the same order
(`eq_of_pairwise_before`).
-/

namespace ProjectSurvey.Walk

/-! ### The order of files -/

/-- Whether a file comes before another one, both given by the names that lead to them. -/
def Before : List String → List String → Prop
  | [a], [b] => a < b
  | [_], _ :: _ :: _ => True
  | a :: a' :: as, b :: b' :: bs => a < b ∨ a = b ∧ Before (a' :: as) (b' :: bs)
  | _, _ => False

/-- Only locations with names stand before one another. -/
theorem Before.ne_nil {a b : List String} (h : Before a b) : a ≠ [] ∧ b ≠ [] := by
  constructor
  · rintro rfl
    simp [Before] at h
  · rintro rfl
    simp [Before] at h

/-- Names in front of both keep the order. -/
theorem Before.append_left {a b : List String} (h : Before a b) (names : List String) :
    Before (names ++ a) (names ++ b) := by
  induction names with
  | nil => exact h
  | cons n names ih =>
    obtain ⟨ha, hb⟩ := ih.ne_nil
    obtain ⟨a', as, has⟩ := List.exists_cons_of_ne_nil ha
    obtain ⟨b', bs, hbs⟩ := List.exists_cons_of_ne_nil hb
    rw [has, hbs] at ih
    rw [List.cons_append, List.cons_append, has, hbs]
    exact .inr ⟨rfl, ih⟩

/-- Files in different subdirectories come in the order of these. -/
theorem before_of_lt {a b : String} (h : a < b) {as bs : List String} (ha : as ≠ [])
    (hb : bs ≠ []) : Before (a :: as) (b :: bs) := by
  obtain ⟨a', as, rfl⟩ := List.exists_cons_of_ne_nil ha
  obtain ⟨b', bs, rfl⟩ := List.exists_cons_of_ne_nil hb
  exact .inl h

/-- The files of a directory come before those in its subdirectories. -/
theorem before_below (a b : String) {bs : List String} (hb : bs ≠ []) :
    Before [a] (b :: bs) := by
  obtain ⟨b', bs, rfl⟩ := List.exists_cons_of_ne_nil hb
  trivial

/-- The order goes one way only. -/
theorem Before.asymm {a b : List String} (hab : Before a b) (hba : Before b a) : False := by
  induction a generalizing b with
  | nil => exact hab.ne_nil.1 rfl
  | cons x as ih =>
    cases b with
    | nil => exact hab.ne_nil.2 rfl
    | cons y bs =>
      cases as with
      | nil =>
        cases bs with
        | nil => exact String.lt_asymm (show x < y from hab) (show y < x from hba)
        | cons y' bs => exact hba
      | cons x' as =>
        cases bs with
        | nil => exact hab
        | cons y' bs =>
          rcases hab with hxy | ⟨rfl, hab⟩
          · rcases hba with hyx | ⟨rfl, -⟩
            · exact String.lt_asymm hxy hyx
            · exact String.lt_irrefl _ hxy
          · rcases hba with hyx | ⟨-, hba⟩
            · exact String.lt_irrefl _ hyx
            · exact ih hab hba

/-- No location stands before itself. -/
theorem Before.irrefl (a : List String) : ¬ Before a a := fun h => h.asymm h

/-- Two lists in order with the same members are the same. -/
theorem eq_of_pairwise_before {α : Type} (names : α → List String) {xs ys : List α}
    (hxs : xs.Pairwise fun a b => Before (names a) (names b))
    (hys : ys.Pairwise fun a b => Before (names a) (names b)) (h : ∀ a, a ∈ xs ↔ a ∈ ys) :
    xs = ys := by
  have hnodup : ∀ {zs : List α}, (zs.Pairwise fun a b => Before (names a) (names b)) →
      zs.Nodup := by
    intro zs hzs
    refine hzs.imp ?_
    rintro a b hab rfl
    exact Before.irrefl _ hab
  have hperm : xs.Perm ys := (List.perm_ext_iff_of_nodup (hnodup hxs) (hnodup hys)).mpr h
  refine List.Perm.eq_of_pairwise ?_ hxs hys hperm
  intro a b _ _ hab hba
  exact absurd hba fun hba => hab.asymm hba

namespace Scope

variable (s : Scope)

/-! ### The files -/

/-- The files that count in the directories that a walk comes to, with the names that lead to
them. -/
def foundFiles (levels : Nat) (names : List String) (e : Entry) : List (List String × Entry) :=
  (s.found levels names e).flatMap fun p => (s.counted p.1 p.2).map fun f => (p.1 ++ [f.1], f.2)

/-- The files of the listings of a walk. -/
theorem flatMap_files_listings (levels : Nat) {names : List String} {e : Entry}
    (hnames : Path.AreNames names) (htree : e.IsTree) :
    (s.listings levels (Path.ofSegments names) e).flatMap Listing.files =
      (s.foundFiles levels names e).map fun q => s.recordAt q.1 q.2 := by
  rw [listings_eq_map_found s levels hnames htree, List.flatMap_map, foundFiles, List.map_flatMap]
  refine List.flatMap_congr ?_
  intro p _
  rw [listingOf, List.map_map]
  rfl

variable {s} {levels : Nat} {names : List String} {e : Entry}

/-- On the last level the files of the directory itself are found. -/
theorem foundFiles_zero :
    s.foundFiles 0 names e = (s.counted names e).map fun f => (names ++ [f.1], f.2) := by
  rw [foundFiles, found, List.flatMap_singleton]

/-- On any other the files of the directory come first, then those of the directories in it. -/
theorem foundFiles_succ :
    s.foundFiles (levels + 1) names e =
      ((s.counted names e).map fun f => (names ++ [f.1], f.2)) ++
        (s.inside names e).flatMap fun p => s.foundFiles levels (names ++ [p.1]) p.2 := by
  rw [foundFiles, found, List.flatMap_cons, List.flatMap_assoc]
  rfl

/-- The names of a file go on from those of the directory where the walk started. -/
theorem exists_of_mem_foundFiles (htree : e.IsTree) (hdir : e.isDirectory = true)
    (hnames : Path.AreNames names) {q : List String × Entry}
    (h : q ∈ s.foundFiles levels names e) :
    ∃ way, way ≠ [] ∧ q.1 = names ++ way ∧ Path.AreNames q.1 := by
  rw [foundFiles, List.mem_flatMap] at h
  obtain ⟨⟨all, d⟩, hfound, hq⟩ := h
  obtain ⟨⟨n, f⟩, hmem, rfl⟩ := List.mem_map.mp hq
  obtain ⟨hall, hd, -, way, rfl⟩ := isTree_of_mem_found htree hdir hnames hfound
  obtain ⟨-, hchild, -⟩ := (mem_counted s hd hall).mp hmem
  refine ⟨way ++ [n], by simp, by simp, Path.areNames_append.mpr ⟨hall, ?_⟩⟩
  simpa using (hd.child hchild).1

/-- The files of a directory itself are in order. -/
theorem pairwise_own (htree : e.IsTree) :
    ((s.counted names e).map fun f => (names ++ [f.1], f.2)).Pairwise
      fun q r => Before q.1 r.1 := by
  rw [List.pairwise_map]
  refine (pairwise_counted s htree names).imp ?_
  intro f g hfg
  exact Before.append_left (show Before [f.1] [g.1] from hfg) names

/-- **The files of a walk come in order.** -/
theorem pairwise_foundFiles (s : Scope) (levels : Nat) (htree : e.IsTree)
    (hnames : Path.AreNames names) :
    (s.foundFiles levels names e).Pairwise fun q r => Before q.1 r.1 := by
  induction levels generalizing names e with
  | zero =>
    rw [foundFiles_zero]
    exact pairwise_own htree
  | succ levels ih =>
    -- a file below a subdirectory has the name of that and at least one more
    have hbelow : ∀ p ∈ s.inside names e, ∀ q ∈ s.foundFiles levels (names ++ [p.1]) p.2,
        ∃ way, way ≠ [] ∧ q.1 = names ++ p.1 :: way := by
      intro p hp q hq
      obtain ⟨hmore, hsub, hsubdir⟩ := isTree_of_mem_inside s htree hnames hp
      obtain ⟨way, hway, hq, -⟩ := exists_of_mem_foundFiles hsub hsubdir hmore hq
      exact ⟨way, hway, by rw [hq]; simp⟩
    rw [foundFiles_succ, List.pairwise_append, List.pairwise_flatMap]
    refine ⟨pairwise_own htree, ⟨?_, ?_⟩, ?_⟩
    · intro p hp
      obtain ⟨hmore, hsub, -⟩ := isTree_of_mem_inside s htree hnames hp
      exact ih hsub hmore
    · refine List.Pairwise.imp_of_mem ?_ (pairwise_inside s htree names)
      intro p p' hp hp' hlt q hq r hr
      obtain ⟨way, hway, hq⟩ := hbelow p hp q hq
      obtain ⟨way', hway', hr⟩ := hbelow p' hp' r hr
      rw [hq, hr]
      exact (before_of_lt hlt hway hway').append_left names
    · intro q hq r hr
      obtain ⟨f, -, rfl⟩ := List.mem_map.mp hq
      obtain ⟨p, hp, hr⟩ := List.mem_flatMap.mp hr
      obtain ⟨way, hway, hr⟩ := hbelow p hp r hr
      rw [hr]
      exact (before_below f.1 p.1 hway).append_left names

end Scope

end ProjectSurvey.Walk
