import ProjectSurvey.Proofs.Walk.Files

/-!
# The tree of a walk

The tree is made of the flat list of listings, each listing looking for those that lie directly in
it by the text of their paths. **What comes out is the tree that the walk went through**
(`ofListings_eq_nest`): `Scope.nest` makes the node of a directory right where the walk comes to it.
Every node then stands for one directory that the walk came to, and holds the files below it
(`mem_subtrees_nest`, `filter_foundFiles`).
-/

namespace ProjectSurvey

namespace Directory

/-! ### Nodes -/

mutual

/-- A directory and all directories below it, each before those in it. -/
def subtrees : Directory → List Directory
  | node n p u ds fs c s r => node n p u ds fs c s r :: subtreesOf ds

/-- Some directories and all directories below them. -/
def subtreesOf : List Directory → List Directory
  | [] => []
  | d :: ds => subtrees d ++ subtreesOf ds

end

/-- A directory without those below it. -/
def listing (d : Directory) : Listing := ⟨d.path, d.files, d.readable⟩

/-- The directories below some are those below each. -/
theorem subtreesOf_eq_flatMap (ds : List Directory) : subtreesOf ds = ds.flatMap subtrees := by
  induction ds with
  | nil => rfl
  | cons d ds ih => rw [subtreesOf, ih, List.flatMap_cons]

/-- A directory stands before those below it. -/
theorem subtrees_eq_cons (d : Directory) : d.subtrees = d :: d.directories.flatMap subtrees := by
  cases d
  rw [subtrees, subtreesOf_eq_flatMap]
  rfl

/-- The files below some directories are those below each. -/
theorem allFilesOf_eq_flatMap (ds : List Directory) : allFilesOf ds = ds.flatMap allFiles := by
  induction ds with
  | nil => rfl
  | cons d ds ih => rw [allFilesOf, ih, List.flatMap_cons]

/-- The files of a directory stand before those below it. -/
theorem allFiles_eq_append (d : Directory) :
    d.allFiles = d.files ++ d.directories.flatMap allFiles := by
  cases d
  rw [allFiles, allFilesOf_eq_flatMap]
  rfl

/-- Some directories are so deep at most when each is. -/
theorem levelsOf_le_iff (ds : List Directory) (m : Nat) :
    levelsOf ds ≤ m ↔ ∀ d ∈ ds, d.levels + 1 ≤ m := by
  induction ds with
  | nil => simp [levelsOf]
  | cons d ds ih => rw [levelsOf, Nat.max_le, ih, List.forall_mem_cons]

/-- A directory is one deeper than those in it. -/
theorem levels_le_iff (d : Directory) (m : Nat) :
    d.levels ≤ m ↔ ∀ c ∈ d.directories, c.levels + 1 ≤ m := by
  cases d
  exact levelsOf_le_iff _ m

end Directory

namespace Walk.Scope

/-! ### The tree that a walk goes through -/

/-- The name of the node of a directory that names lead to. -/
def nodeName (rootName : String) (names : List String) : String :=
  if Path.ofSegments names = "" then rootName else Path.lastSegment (Path.ofSegments names)

/-- The node of a directory that a walk comes to. -/
def nest (s : Scope) (rootName : String) : (levels : Nat) → (names : List String) → Entry →
    Directory
  | 0, names, e =>
    Directory.make s.tables (nodeName rootName names) (Path.ofSegments names) []
      (s.listingOf (names, e)).files (s.listingOf (names, e)).readable
  | levels + 1, names, e =>
    Directory.make s.tables (nodeName rootName names) (Path.ofSegments names)
      ((s.inside names e).map fun p => nest s rootName levels (names ++ [p.1]) p.2)
      (s.listingOf (names, e)).files (s.listingOf (names, e)).readable

variable {s : Scope} {rootName : String} {levels : Nat} {names way : List String} {e d : Entry}

/-- The nest lists its start as the walk does. -/
theorem listing_nest : (s.nest rootName levels names e).listing = s.listingOf (names, e) := by
  cases levels <;> rfl

/-- The nest holds a nest for each directory inside. -/
theorem directories_nest_succ :
    (s.nest rootName (levels + 1) names e).directories =
      (s.inside names e).map fun p => s.nest rootName levels (names ++ [p.1]) p.2 := rfl

/-- The directories of the tree are those that the walk comes to, in the same order. -/
theorem map_listing_subtrees_nest (rootName : String) :
    ((s.nest rootName levels names e).subtrees.map Directory.listing) =
      (s.found levels names e).map s.listingOf := by
  induction levels generalizing names e with
  | zero =>
    rw [Directory.subtrees_eq_cons, List.map_cons, listing_nest]
    rfl
  | succ levels ih =>
    rw [Directory.subtrees_eq_cons, List.map_cons, listing_nest, directories_nest_succ, found,
      List.map_cons, List.flatMap_map, List.map_flatMap, List.map_flatMap]
    exact congrArg (List.cons _) (List.flatMap_congr fun p _ => ih)

/-- The files of the nest are those that are found. -/
theorem allFiles_nest :
    (s.nest rootName levels names e).allFiles =
      (s.foundFiles levels names e).map fun q => s.recordAt q.1 q.2 := by
  induction levels generalizing names e with
  | zero =>
    rw [Directory.allFiles_eq_append, foundFiles_zero, List.map_map]
    exact List.append_nil _
  | succ levels ih =>
    rw [Directory.allFiles_eq_append, directories_nest_succ, foundFiles_succ, List.map_append,
      List.map_map, List.flatMap_map, List.map_flatMap]
    exact congrArg (_ ++ ·) (List.flatMap_congr fun p _ => ih)

/-- The number that a node carries is that of the files below it. -/
theorem fileCount_nest :
    (s.nest rootName levels names e).fileCount =
      (s.nest rootName levels names e).allFiles.length := by
  induction levels generalizing names e with
  | zero =>
    rw [Directory.allFiles_eq_append, nest, Directory.fileCount_make]
    simp [Directory.make, Directory.files, Directory.directories]
  | succ levels ih =>
    rw [Directory.allFiles_eq_append, directories_nest_succ, nest, Directory.fileCount_make,
      List.length_append, List.flatMap_map, List.length_flatMap, List.map_map]
    exact congrArg (fun n => _ + List.sum n) (List.map_congr_left fun p _ => ih)

/-- The size that a node carries is that of the files below it. -/
theorem size_nest :
    (s.nest rootName levels names e).size =
      ((s.nest rootName levels names e).allFiles.map FileRecord.size).sum := by
  induction levels generalizing names e with
  | zero =>
    rw [Directory.allFiles_eq_append, nest, Directory.size_make]
    simp [Directory.make, Directory.files, Directory.directories]
  | succ levels ih =>
    rw [Directory.allFiles_eq_append, directories_nest_succ, nest, Directory.size_make,
      List.map_append, List.sum_append, List.flatMap_map, List.map_flatMap, List.flatMap_def,
      List.sum_flatten, List.map_map, List.map_map]
    exact congrArg (fun n => _ + List.sum n) (List.map_congr_left fun p _ => ih)

/-- How deep the tree is, as the number of names on the way to its directories. -/
theorem levels_nest_le_iff (m : Nat) :
    (s.nest rootName levels names e).levels ≤ m ↔
      ∀ p ∈ s.found levels names e, p.1.length ≤ names.length + m := by
  induction levels generalizing names e m with
  | zero =>
    rw [Directory.levels_le_iff, found]
    simp [nest, Directory.make, Directory.directories]
  | succ levels ih =>
    rw [Directory.levels_le_iff, directories_nest_succ, List.forall_mem_map, found,
      List.forall_mem_cons]
    simp only [List.forall_mem_flatMap]
    cases m with
    | zero =>
      constructor
      · intro h
        refine ⟨Nat.le_refl _, fun p hp => ?_⟩
        exact absurd (h p hp) (by omega)
      · rintro ⟨-, h⟩ p hp
        have hlength := h p hp _ (s.self_mem_found levels (names ++ [p.1]) p.2)
        rw [List.length_append, List.length_singleton] at hlength
        omega
    | succ m =>
      have hstep : ∀ p : String × Entry,
          (s.nest rootName levels (names ++ [p.1]) p.2).levels + 1 ≤ m + 1 ↔
            ∀ q ∈ s.found levels (names ++ [p.1]) p.2, q.1.length ≤ names.length + (m + 1) := by
        intro p
        rw [Nat.add_le_add_iff_right, ih, List.length_append, List.length_singleton,
          Nat.add_assoc, Nat.add_comm 1 m]
      simp only [hstep]
      exact ⟨fun h => ⟨by simp, h⟩, fun h => h.2⟩

/-! ### One node -/

/-- Every node is that of a directory that the walk came to. -/
theorem mem_subtrees_nest (htree : e.IsTree) (hdir : e.isDirectory = true)
    (hnames : Path.AreNames names) {n : Directory}
    (h : n ∈ (s.nest rootName levels names e).subtrees) :
    ∃ way x, s.Leads levels names e way x ∧
      n = s.nest rootName (levels - way.length) (names ++ way) x := by
  induction levels generalizing names e with
  | zero =>
    rw [Directory.subtrees_eq_cons, List.mem_cons] at h
    rcases h with rfl | h
    · exact ⟨[], e, leads_nil.mpr ⟨rfl, hdir⟩, by rw [List.append_nil]; rfl⟩
    · cases h
  | succ levels ih =>
    rw [Directory.subtrees_eq_cons, List.mem_cons, directories_nest_succ, List.flatMap_map,
      List.mem_flatMap] at h
    rcases h with rfl | ⟨⟨k, c⟩, hmem, h⟩
    · exact ⟨[], e, leads_nil.mpr ⟨rfl, hdir⟩, by rw [List.append_nil]; rfl⟩
    · obtain ⟨hmore, hsub, hsubdir⟩ := isTree_of_mem_inside s htree hnames hmem
      obtain ⟨way, x, hleads, rfl⟩ := ih hsub hsubdir hmore h
      refine ⟨k :: way, x, (leads_cons htree hnames).mpr ⟨c, hmem, hleads⟩, ?_⟩
      rw [List.length_cons, Nat.add_sub_add_right, List.append_assoc, List.singleton_append]

/-- The files below a directory are those whose names go on from its own. -/
theorem filter_foundFiles (htree : e.IsTree) (hdir : e.isDirectory = true)
    (hnames : Path.AreNames names) (h : s.Leads levels names e way d) :
    (s.foundFiles levels names e).filter (fun q => decide (names ++ way <+: q.1)) =
      s.foundFiles (levels - way.length) (names ++ way) d := by
  induction way generalizing levels names e with
  | nil =>
    obtain ⟨rfl, -⟩ := leads_nil.mp h
    rw [List.append_nil, List.length_nil, Nat.sub_zero, List.filter_eq_self]
    intro q hq
    obtain ⟨way, -, hq, -⟩ := exists_of_mem_foundFiles htree hdir hnames hq
    rw [decide_eq_true_eq, hq]
    exact List.prefix_append names way
  | cons n way ih =>
    cases levels with
    | zero => exact absurd h.depth (by simp)
    | succ levels =>
      obtain ⟨c, hmem, hleads⟩ := (leads_cons htree hnames).mp h
      obtain ⟨hmore, hsub, hsubdir⟩ := isTree_of_mem_inside s htree hnames hmem
      obtain ⟨-, hchild, hcdir, -⟩ := (mem_inside s htree hnames).mp hmem
      -- the files of the directory itself are not below any directory in it
      have hown : ((s.counted names e).map fun f => (names ++ [f.1], f.2)).filter
          (fun q => decide (names ++ n :: way <+: q.1)) = [] := by
        rw [List.filter_eq_nil_iff]
        intro q hq
        obtain ⟨⟨k, f⟩, hf, rfl⟩ := List.mem_map.mp hq
        rw [decide_eq_true_eq, List.prefix_append_right_inj, List.cons_prefix_cons]
        rintro ⟨rfl, -⟩
        obtain ⟨-, hfile, hfdir, -⟩ := (mem_counted s htree hnames).mp hf
        rw [hchild, Option.some_inj] at hfile
        subst hfile
        rw [hcdir] at hfdir
        cases hfdir
      rw [foundFiles_succ, List.filter_append, hown, List.nil_append, List.filter_flatMap,
        Sorting.flatMap_eq_of_nodup Prod.fst _ (nodup_inside s htree names) hmem]
      · have hsame := ih hsub hsubdir hmore hleads
        rw [List.append_assoc, List.singleton_append] at hsame
        rw [hsame, List.length_cons, Nat.add_sub_add_right]
      · intro p hp hne
        obtain ⟨hpmore, hpsub, hpdir⟩ := isTree_of_mem_inside s htree hnames hp
        rw [List.filter_eq_nil_iff]
        intro q hq
        obtain ⟨rest, -, hq, -⟩ := exists_of_mem_foundFiles hpsub hpdir hpmore hq
        rw [decide_eq_true_eq, hq, List.append_assoc, List.singleton_append,
          List.prefix_append_right_inj, List.cons_prefix_cons]
        rintro ⟨heq, -⟩
        exact hne heq.symm

/-! ### Arranging the listings -/

/-- What lies directly in a directory, among the directories that a walk comes to from one on. -/
def children (s : Scope) (levels : Nat) (names : List String) (e : Entry) (parent : List String) :
    List (List String × Entry) :=
  (s.found levels names e).filter fun p => decide (p.1 ≠ names ∧ p.1.dropLast = parent)

/-- What lies directly in the directory where the walk started. -/
theorem children_self (htree : e.IsTree) (hnames : Path.AreNames names) :
    s.children (levels + 1) names e names =
      (s.inside names e).map fun p => (names ++ [p.1], p.2) := by
  rw [children, found, List.filter_cons_of_neg (by simp), List.filter_flatMap,
    ← List.flatMap_pure_eq_map]
  refine List.flatMap_congr ?_
  intro p hp
  obtain ⟨hmore, hsub, -⟩ := isTree_of_mem_inside s htree hnames hp
  obtain ⟨rest, hrest, hlonger⟩ := found_eq_cons s levels hsub hmore
  rw [hrest, List.filter_cons_of_pos (by simp), List.filter_eq_nil_iff.mpr]
  · rfl
  · intro q hq
    obtain ⟨n, way, hq⟩ := hlonger q hq
    rw [decide_eq_true_eq, hq]
    rintro ⟨-, heq⟩
    have hlength := congrArg List.length heq
    simp at hlength

/-- What lies directly in a directory is found from the subdirectory on the way to it. -/
theorem children_of_mem_inside (htree : e.IsTree) (hnames : Path.AreNames names)
    {p : String × Entry} (hp : p ∈ s.inside names e) {parent : List String}
    (hparent : names ++ [p.1] <+: parent) :
    s.children (levels + 1) names e parent = s.children levels (names ++ [p.1]) p.2 parent := by
  obtain ⟨hmore, hsub, hsubdir⟩ := isTree_of_mem_inside s htree hnames hp
  obtain ⟨rest, rfl⟩ := hparent
  rw [children, found, List.filter_cons_of_neg (by simp), List.filter_flatMap,
    Sorting.flatMap_eq_of_nodup Prod.fst _ (nodup_inside s htree names) hp]
  · rw [children]
    refine List.filter_congr ?_
    intro q hq
    obtain ⟨-, -, -, way, hway⟩ := isTree_of_mem_found hsub hsubdir hmore hq
    rw [← hway, decide_eq_decide]
    cases way with
    | nil => simp
    | cons n way => simp
  · intro p' hp' hne
    obtain ⟨hmore', hsub', hsubdir'⟩ := isTree_of_mem_inside s htree hnames hp'
    rw [List.filter_eq_nil_iff]
    intro q hq
    obtain ⟨-, -, -, way, hway⟩ := isTree_of_mem_found hsub' hsubdir' hmore' hq
    rw [decide_eq_true_eq, ← hway]
    rintro ⟨-, heq⟩
    cases way with
    | nil => simp at heq
    | cons n way =>
      rw [List.append_assoc, List.dropLast_append_of_ne_nil (by simp)] at heq
      simp at heq
      exact hne heq.1

/-- A directory is arranged from the listings in it, sorted by their paths. -/
theorem arrange_succ (t : Tables) (rootName : String) (others : List (String × Listing))
    (fuel : Nat) (l : Listing) :
    Directory.arrange t rootName others (fuel + 1) l =
      Directory.make t (if l.path = "" then rootName else Path.lastSegment l.path) l.path
        ((((others.filter fun o => o.1 == l.path).map Prod.snd).mergeSort
          (Sorting.before Listing.path)).map (Directory.arrange t rootName others fuel))
        l.files l.readable := rfl

/-- The listings of subdirectories are in order as they are. -/
theorem mergeSort_listings (htree : e.IsTree) (names : List String) :
    ((s.inside names e).map fun p => s.listingOf (names ++ [p.1], p.2)).mergeSort
        (Sorting.before Listing.path) =
      (s.inside names e).map fun p => s.listingOf (names ++ [p.1], p.2) := by
  apply Sorting.mergeSort_eq_of_perm Listing.path (List.Perm.refl _)
  rw [List.pairwise_map]
  exact (pairwise_inside s htree names).imp fun h => Path.ofSegments_concat_lt names h

/-- Looking for the listings that lie directly in a listing gives the tree that the walk went
through, if among all of them it finds the same as among those below. -/
theorem arrange_eq_nest {others : List (String × Listing)} {fuel : Nat} (htree : e.IsTree)
    (hnames : Path.AreNames names) (hfuel : (s.found levels names e).length ≤ fuel)
    (hothers : ∀ parent, Path.AreNames parent → names <+: parent →
      (others.filter fun o => o.1 == Path.ofSegments parent).map Prod.snd =
        (s.children levels names e parent).map s.listingOf) :
    Directory.arrange s.tables rootName others fuel (s.listingOf (names, e)) =
      s.nest rootName levels names e := by
  induction levels generalizing names e fuel with
  | zero =>
    cases fuel with
    | zero => exact absurd hfuel (by simp [found])
    | succ fuel =>
      have hnone : s.children 0 names e names = [] := by simp [children, found]
      have hself := hothers names hnames (List.prefix_refl names)
      rw [hnone] at hself
      rw [arrange_succ, show (s.listingOf (names, e)).path = Path.ofSegments names from rfl, hself,
        List.map_nil, List.mergeSort_nil]
      rfl
  | succ levels ih =>
    cases fuel with
    | zero => exact absurd hfuel (by simp [found])
    | succ fuel =>
      have hself := hothers names hnames (List.prefix_refl names)
      rw [children_self htree hnames, List.map_map] at hself
      rw [arrange_succ, show (s.listingOf (names, e)).path = Path.ofSegments names from rfl, hself]
      have hchildren : ∀ p ∈ s.inside names e,
          Directory.arrange s.tables rootName others fuel (s.listingOf (names ++ [p.1], p.2)) =
            s.nest rootName levels (names ++ [p.1]) p.2 := by
        intro p hp
        obtain ⟨hmore, hsub, -⟩ := isTree_of_mem_inside s htree hnames hp
        refine ih hsub hmore ?_ ?_
        · rw [found, List.length_cons, Nat.add_le_add_iff_right, List.flatMap_def] at hfuel
          have hmem : s.found levels (names ++ [p.1]) p.2 ∈
              (s.inside names e).map fun p => s.found levels (names ++ [p.1]) p.2 :=
            List.mem_map.mpr ⟨p, hp, rfl⟩
          exact (List.sublist_flatten_of_mem hmem).length_le.trans hfuel
        · intro parent hparent hway
          rw [hothers parent hparent ((List.prefix_append names [p.1]).trans hway),
            children_of_mem_inside htree hnames hp hway]
      have hsorted := mergeSort_listings (s := s) htree names
      rw [show (s.listingOf ∘ fun p => (names ++ [p.1], p.2)) =
        fun p : String × Entry => s.listingOf (names ++ [p.1], p.2) from rfl, hsorted,
        List.map_map, nest]
      refine congrArg (fun ds => Directory.make s.tables _ _ ds _ _) ?_
      exact List.map_congr_left hchildren

/-- **The tree made of the listings of a walk is the tree that the walk went through.** -/
theorem ofListings_eq_nest (htree : e.IsTree) (hdir : e.isDirectory = true) :
    Directory.ofListings s.tables rootName (s.listings levels "" e) =
      s.nest rootName levels [] e := by
  have hlistings := s.listings_eq_map_found levels Path.areNames_nil htree
  rw [Path.ofSegments_nil] at hlistings
  obtain ⟨rest, hfound, -⟩ := found_eq_cons s levels htree Path.areNames_nil
  unfold Directory.ofListings
  have hroot :
      ((s.listings levels "" e).find? fun l => l.path == "") = some (s.listingOf ([], e)) := by
    rw [hlistings, hfound, List.map_cons, List.find?_cons_of_pos]
    rfl
  rw [hroot, Option.getD_some]
  refine arrange_eq_nest htree Path.areNames_nil ?_ ?_
  · rw [hlistings, List.length_map]
  · intro parent hparent _
    rw [hlistings]
    simp only [List.filter_map, List.map_map, List.filter_filter, children]
    refine congrArg (List.map s.listingOf) (List.filter_congr ?_)
    intro p hp
    obtain ⟨hall, -⟩ := isTree_of_mem_found htree hdir Path.areNames_nil hp
    rw [Bool.eq_iff_iff, Bool.and_eq_true, decide_eq_true_eq,
      ← Path.parent_ofSegments_eq_iff hall hparent]
    show ((Path.parent (Path.ofSegments p.1) == Path.ofSegments parent) = true ∧
      decide (Path.ofSegments p.1 ≠ "") = true) ↔ _
    rw [beq_iff_eq, decide_eq_true_eq]

end Walk.Scope

end ProjectSurvey
