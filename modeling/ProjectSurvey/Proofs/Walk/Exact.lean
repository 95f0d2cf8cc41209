import ProjectSurvey.Proofs.Walk.Nest
import ProjectSurvey.Proofs.Walk.Seen

/-!
# What a walk makes of its listings

`Scope.Reaches` says which directories a walk comes to, `Scope.Admits` which files count, both
without any walk; `IsExact` says what a scan has to do with these. **What is made of the listings of
a walk is exact** (`isExact_scanOf`): the files are those that count, once each and in order, the
tree holds the same files, and the directories that were skipped are those that cannot be listed.
-/

namespace ProjectSurvey.Walk

namespace Scope

/-! ### What counts -/

/-- Whether the directory that names below the root lead to can be listed: it may be, every
directory around it may be searched, and the system takes its path. -/
structure IsListed (s : Scope) (top : Entry) (dirs : List String) : Prop where
  /-- A way along the names reaches it, and the right to list it is given. -/
  granted : top.mayList dirs = true
  /-- Its path is one that the system takes. -/
  taken : s.isTaken (Path.ofSegments dirs) = true

/-- Whether a walk comes to the directory that names below the root lead to. -/
structure Reaches (s : Scope) (top : Entry) (dirs : List String) : Prop where
  /-- There is a directory. -/
  isDirectory : (top.at? dirs).map Entry.isDirectory = some true
  /-- It lies deep enough at most. -/
  depth : (dirs.length : Int) ≤ s.settings.maxDepth - 1
  /-- No name on the way is passed over. -/
  notPassedOver : ∀ n ∈ dirs, n ∉ s.settings.ignoreDirectories
  /-- The rules leave out no directory on the way. -/
  notIgnored : ∀ front n back, dirs = front ++ n :: back →
    isIgnored (Path.ofSegments (front ++ [n])) true s.rules = false
  /-- Every directory around it can be listed. -/
  listed : ∀ front n back, dirs = front ++ n :: back → s.IsListed top front

/-- Whether a file counts, given the names of its directories, its own name and what is there. -/
structure Admits (s : Scope) (top : Entry) (dirs : List String) (name : String) (e : Entry) :
    Prop where
  /-- A walk comes to its directory, -/
  reaches : s.Reaches top dirs
  /-- which can be listed. -/
  listed : s.IsListed top dirs
  /-- The file is there, and its directories may be searched. -/
  isThere : top.reach? (dirs ++ [name]) = some e
  /-- It is no directory. -/
  isFile : e.isDirectory = false
  /-- Its name is none of those that systems leave behind. -/
  notSystem : name ∉ systemFiles
  /-- The rules do not leave it out. -/
  notIgnored : isIgnored (Path.ofSegments (dirs ++ [name])) false s.rules = false
  /-- Its path is one that the system takes. -/
  taken : s.isTaken (Path.ofSegments (dirs ++ [name])) = true

variable {s : Scope} {top : Entry} {dirs : List String}

/-- How many levels of directories below the root are listed. -/
def listedLevels (s : Scope) : Nat := (s.settings.maxDepth - 1).toNat

/-- A directory is entered unless its name is ignored or a rule ignores its path. -/
theorem enters_iff (name path : String) :
    s.enters name path = true ↔
      name ∉ s.settings.ignoreDirectories ∧ isIgnored path true s.rules = false := by
  simp [enters]

/-- A file counts unless it is one of the system's, a rule ignores its path or it cannot be
taken. -/
theorem counts_iff (name path : String) :
    s.counts name path = true ↔
      name ∉ systemFiles ∧ isIgnored path false s.rules = false ∧ s.isTaken path = true := by
  simp [counts, and_assoc]

/-- A directory that is seen can be listed just if a walk lists it. -/
theorem isListed_iff {d : Entry} (h : (seen top).at? dirs = some d) :
    s.IsListed top dirs ↔ s.Lists dirs d := by
  have hlist : top.mayList dirs = d.mayList [] := mayList_of_at?_seen h
  constructor
  · rintro ⟨hgranted, htaken⟩
    exact ⟨hlist ▸ hgranted, htaken⟩
  · rintro ⟨hgranted, htaken⟩
    exact ⟨hlist ▸ hgranted, htaken⟩

/-- Every directory that a walk comes to is seen. -/
theorem Reaches.exists_seen (h : s.Reaches top dirs) (htree : top.IsTree) :
    ∃ d, (seen top).at? dirs = some d ∧ d.isDirectory = true := by
  obtain ⟨x, hx, hdir⟩ := Option.map_eq_some_iff.mp h.isDirectory
  exact exists_at?_seen htree hx hdir fun front n back hway => (h.listed front n back hway).granted

/-- What keeps a walk from going on is said of the whole way at once. -/
theorem leads_iff (htree : top.IsTree) (hdepth : 1 ≤ s.settings.maxDepth) {d : Entry} :
    s.Leads s.listedLevels [] (seen top) dirs d ↔
      s.Reaches top dirs ∧ (seen top).at? dirs = some d := by
  constructor
  · rintro ⟨hthere, hdir, hlength, hlisted, hentered⟩
    obtain ⟨x, hx, hxdir⟩ := exists_at?_of_at?_seen htree hthere hdir
    refine ⟨⟨?_, ?_, ?_, ?_, ?_⟩, hthere⟩
    · rw [hx, Option.map_some, hxdir]
    · unfold listedLevels at hlength
      omega
    · intro n hn
      obtain ⟨front, back, rfl⟩ := List.append_of_mem hn
      exact ((enters_iff _ _).mp (hentered front n back rfl)).1
    · intro front n back hway
      exact ((enters_iff _ _).mp (hentered front n back hway)).2
    · intro front n back hway
      obtain ⟨x, hx, hlists⟩ := hlisted front n back hway
      exact (isListed_iff hx).mpr hlists
  · rintro ⟨hreaches, hthere⟩
    obtain ⟨d', hd', hdir⟩ := hreaches.exists_seen htree
    cases hd'.symm.trans hthere
    obtain ⟨-, hlength, hpassed, hignored, hlisted⟩ := hreaches
    refine ⟨hthere, hdir, ?_, ?_, ?_⟩
    · unfold listedLevels
      omega
    · intro front n back hway
      have hfront := hlisted front n back hway
      rw [hway, Entry.at?_append, Option.bind_eq_some_iff] at hthere
      obtain ⟨x, hx, -⟩ := hthere
      exact ⟨x, hx, (isListed_iff hx).mp hfront⟩
    · intro front n back hway
      refine (enters_iff _ _).mpr ⟨hpassed n ?_, hignored front n back hway⟩
      rw [hway]
      simp

/-- A walk comes to the directories that it reaches. -/
theorem mem_found_iff (htree : top.IsTree) (htop : top.isDirectory = true)
    (hdepth : 1 ≤ s.settings.maxDepth) {d : Entry} :
    (dirs, d) ∈ s.found s.listedLevels [] (seen top) ↔
      s.Reaches top dirs ∧ (seen top).at? dirs = some d := by
  rw [mem_found (isTree_seen top htree) ((isDirectory_seen top).trans htop) Path.areNames_nil,
    ← leads_iff htree hdepth]
  simp

/-- The files of a walk are those that count. -/
theorem mem_foundFiles_iff (htree : top.IsTree) (htop : top.isDirectory = true)
    (hdepth : 1 ≤ s.settings.maxDepth) {q : List String × Entry} :
    q ∈ s.foundFiles s.listedLevels [] (seen top) ↔
      ∃ dirs name, q.1 = dirs ++ [name] ∧ s.Admits top dirs name q.2 := by
  rw [foundFiles, List.mem_flatMap]
  constructor
  · rintro ⟨⟨dirs, d⟩, hfound, hq⟩
    obtain ⟨⟨n, f⟩, hmem, rfl⟩ := List.mem_map.mp hq
    obtain ⟨hall, hd, -⟩ := isTree_of_mem_found (isTree_seen top htree)
      ((isDirectory_seen top).trans htop) Path.areNames_nil hfound
    obtain ⟨hreaches, hthere⟩ := (mem_found_iff htree htop hdepth).mp hfound
    obtain ⟨hlists, hchild, hfile, hcounts⟩ := (mem_counted s hd hall).mp hmem
    obtain ⟨hsystem, hignored, htaken⟩ := (counts_iff _ _).mp hcounts
    refine ⟨dirs, n, rfl, hreaches, (isListed_iff hthere).mpr hlists, ?_, hfile, hsystem, hignored,
      htaken⟩
    rw [← at?_seen_eq_some_iff hfile, Entry.at?_append, hthere, Option.bind_some, Entry.at?_cons,
      hchild]
    rfl
  · rintro ⟨dirs, n, hq, hreaches, hlisted, hthere, hfile, hsystem, hignored, htaken⟩
    rw [← at?_seen_eq_some_iff hfile, Entry.at?_append, Option.bind_eq_some_iff] at hthere
    obtain ⟨d, hd, hchild⟩ := hthere
    rw [Entry.at?_cons, Option.bind_eq_some_iff] at hchild
    obtain ⟨f, hf, hchild⟩ := hchild
    cases hchild
    have hfound := (mem_found_iff htree htop hdepth).mpr ⟨hreaches, hd⟩
    obtain ⟨hall, hdtree, -⟩ := isTree_of_mem_found (isTree_seen top htree)
      ((isDirectory_seen top).trans htop) Path.areNames_nil hfound
    refine ⟨(dirs, d), hfound, List.mem_map.mpr ⟨(n, q.2), ?_, Prod.ext hq.symm rfl⟩⟩
    exact (mem_counted s hdtree hall).mpr ⟨(isListed_iff hd).mp hlisted, hf, hfile,
      (counts_iff _ _).mpr ⟨hsystem, hignored, htaken⟩⟩

/-- The directories that are reached have plain names. -/
theorem areNames_of_reaches (htree : top.IsTree) (h : s.Reaches top dirs) :
    Path.AreNames dirs := by
  obtain ⟨d, hd, -⟩ := Option.map_eq_some_iff.mp h.isDirectory
  exact (htree.areNames_of_at? hd).1

/-- So have the files that are admitted. -/
theorem areNames_of_admits (htree : top.IsTree) {name : String} {e : Entry}
    (h : s.Admits top dirs name e) : Path.AreNames (dirs ++ [name]) :=
  (htree.areNames_of_at? (Entry.at?_of_reach? h.isThere)).1

end Scope

/-! ### What is exact about a scan -/

/-- Whether a scan has exactly what a walk is to find, once and in order. -/
structure IsExact (s : Scope) (top : Entry) (scan : Scan) : Prop where
  /-- The files are those that count. -/
  mem_files : ∀ r, r ∈ scan.files ↔
    ∃ dirs name e, s.Admits top dirs name e ∧ r = s.recordAt (dirs ++ [name]) e
  /-- No file comes twice. -/
  nodup_files : (scan.files.map FileRecord.path).Nodup
  /-- The files of a directory come first, by name, then those of its subdirectories, by name. -/
  ordered : scan.files.Pairwise fun a b =>
    Before (Path.components a.path) (Path.components b.path)
  /-- The tree holds the same files in the same order. -/
  allFiles_tree : scan.tree.allFiles = scan.files
  /-- Every node holds the files below it, with their number and their size. -/
  node : ∀ d ∈ scan.tree.subtrees,
    d.allFiles = scan.files.filter
      (fun r => decide (Path.components d.path <+: Path.components r.path)) ∧
    d.fileCount = d.allFiles.length ∧ d.size = (d.allFiles.map FileRecord.size).sum
  /-- The directories that were skipped are those of the tree that could not be listed. -/
  skipped_tree : scan.skipped =
    (scan.tree.subtrees.filter fun d => !d.readable).map Directory.path
  /-- They are the directories that the walk came to and that cannot be listed. -/
  mem_skipped : ∀ p, p ∈ scan.skipped ↔
    ∃ dirs, s.Reaches top dirs ∧ ¬ s.IsListed top dirs ∧ p = Path.ofSegments dirs
  /-- No directory is skipped twice. -/
  nodup_skipped : scan.skipped.Nodup

variable {s : Scope} {top : Entry}

/-- What a walk makes of its listings. -/
def scanOf (s : Scope) (top : Entry) : Scan :=
  Scan.ofListings s.tables s.root (s.listings s.listedLevels "" (seen top))

/-- The listings are those of the directories that the walk comes to. -/
theorem listings_scanOf (htree : top.IsTree) :
    s.listings s.listedLevels "" (seen top) =
      (s.found s.listedLevels [] (seen top)).map s.listingOf := by
  have h := s.listings_eq_map_found s.listedLevels Path.areNames_nil (isTree_seen top htree)
  rwa [Path.ofSegments_nil] at h

/-- The files are the records of those that the walk found. -/
theorem files_scanOf (htree : top.IsTree) :
    (scanOf s top).files =
      (s.foundFiles s.listedLevels [] (seen top)).map fun q => s.recordAt q.1 q.2 := by
  have h := s.flatMap_files_listings s.listedLevels Path.areNames_nil (isTree_seen top htree)
  rwa [Path.ofSegments_nil] at h

/-- The tree nests as the directories do that are seen. -/
theorem tree_scanOf (htree : top.IsTree) (htop : top.isDirectory = true) :
    (scanOf s top).tree = s.nest s.root.name s.listedLevels [] (seen top) :=
  Scope.ofListings_eq_nest (isTree_seen top htree) ((isDirectory_seen top).trans htop)

/-- Directories are skipped if their listing could not be read. -/
theorem skipped_scanOf (htree : top.IsTree) :
    (scanOf s top).skipped =
      (((s.found s.listedLevels [] (seen top)).map s.listingOf).filter fun l => !l.readable).map
        Listing.path := by
  rw [← listings_scanOf htree]
  rfl

/-- The path of a record is taken apart into its names. -/
theorem components_recordAt {names : List String} (h : Path.AreNames names) (e : Entry) :
    Path.components (s.recordAt names e).path = names := Path.components_ofSegments h

/-- The files found have plain names. -/
theorem areNames_of_mem_foundFiles (htree : top.IsTree) (htop : top.isDirectory = true)
    {q : List String × Entry} (hq : q ∈ s.foundFiles s.listedLevels [] (seen top)) :
    Path.AreNames q.1 := by
  obtain ⟨way, -, -, h⟩ := Scope.exists_of_mem_foundFiles (isTree_seen top htree)
    ((isDirectory_seen top).trans htop) Path.areNames_nil hq
  exact h

/-- The files of the scan are the records of those that are admitted. -/
theorem mem_files_scanOf_iff (htree : top.IsTree) (htop : top.isDirectory = true)
    (hdepth : 1 ≤ s.settings.maxDepth) (r : FileRecord) : r ∈ (scanOf s top).files ↔
      ∃ dirs name e, s.Admits top dirs name e ∧ r = s.recordAt (dirs ++ [name]) e := by
  rw [files_scanOf htree, List.mem_map]
  constructor
  · rintro ⟨q, hq, rfl⟩
    obtain ⟨dirs, name, heq, hadmits⟩ := (Scope.mem_foundFiles_iff htree htop hdepth).mp hq
    exact ⟨dirs, name, q.2, hadmits, by rw [heq]⟩
  · rintro ⟨dirs, name, e, hadmits, rfl⟩
    exact ⟨(dirs ++ [name], e),
      (Scope.mem_foundFiles_iff htree htop hdepth).mpr ⟨dirs, name, rfl, hadmits⟩, rfl⟩

/-- The files of the scan stand in the order of the walk. -/
theorem pairwise_files_scanOf (htree : top.IsTree) (htop : top.isDirectory = true) :
    (scanOf s top).files.Pairwise fun a b =>
      Before (Path.components a.path) (Path.components b.path) := by
  rw [files_scanOf htree, List.pairwise_map]
  refine List.Pairwise.imp_of_mem ?_
    (s.pairwise_foundFiles s.listedLevels (isTree_seen top htree) Path.areNames_nil)
  intro q r hq hr h
  rwa [components_recordAt (areNames_of_mem_foundFiles htree htop hq),
    components_recordAt (areNames_of_mem_foundFiles htree htop hr)]

/-- The files of a node are those below its path. -/
theorem allFiles_of_mem_subtrees_scanOf (htree : top.IsTree) (htop : top.isDirectory = true)
    {d : Directory} (hd : d ∈ (scanOf s top).tree.subtrees) :
    d.allFiles = (scanOf s top).files.filter
        (fun r => decide (Path.components d.path <+: Path.components r.path)) ∧
      d.fileCount = d.allFiles.length ∧ d.size = (d.allFiles.map FileRecord.size).sum := by
  have hseen := isTree_seen top htree
  have hseenDir := (isDirectory_seen top).trans htop
  rw [tree_scanOf htree htop] at hd
  obtain ⟨way, x, hleads, rfl⟩ := Scope.mem_subtrees_nest hseen hseenDir Path.areNames_nil hd
  refine ⟨?_, Scope.fileCount_nest, Scope.size_nest⟩
  have hway := Scope.filter_foundFiles hseen hseenDir Path.areNames_nil hleads
  rw [List.nil_append] at hway ⊢
  have hpath : (s.nest s.root.name (s.listedLevels - way.length) way x).path =
      Path.ofSegments way := congrArg Listing.path Scope.listing_nest
  rw [Scope.allFiles_nest, ← hway, files_scanOf htree, List.filter_map, hpath,
    Path.components_ofSegments (hseen.areNames_of_at? hleads.isThere).1]
  refine congrArg (List.map _) (List.filter_congr ?_)
  intro q hq
  rw [Function.comp_apply, components_recordAt (areNames_of_mem_foundFiles htree htop hq)]

/-- What the scan skipped is what it reached and could not list. -/
theorem mem_skipped_scanOf_iff (htree : top.IsTree) (htop : top.isDirectory = true)
    (hdepth : 1 ≤ s.settings.maxDepth) (p : String) : p ∈ (scanOf s top).skipped ↔
      ∃ dirs, s.Reaches top dirs ∧ ¬ s.IsListed top dirs ∧ p = Path.ofSegments dirs := by
  rw [skipped_scanOf htree, List.mem_map]
  constructor
  · rintro ⟨l, hl, rfl⟩
    obtain ⟨hl, hunread⟩ := List.mem_filter.mp hl
    obtain ⟨⟨dirs, d⟩, hfound, rfl⟩ := List.mem_map.mp hl
    obtain ⟨hreaches, hthere⟩ := (Scope.mem_found_iff htree htop hdepth).mp hfound
    refine ⟨dirs, hreaches, ?_, rfl⟩
    rw [Scope.isListed_iff hthere, ← Scope.isSome_contents?_iff]
    simpa [Scope.listingOf] using hunread
  · rintro ⟨dirs, hreaches, hlisted, rfl⟩
    obtain ⟨d, hd, -⟩ := hreaches.exists_seen htree
    have hfound := (Scope.mem_found_iff htree htop hdepth).mpr ⟨hreaches, hd⟩
    rw [Scope.isListed_iff hd, ← Scope.isSome_contents?_iff] at hlisted
    refine ⟨s.listingOf (dirs, d), List.mem_filter.mpr ⟨List.mem_map_of_mem hfound, ?_⟩, rfl⟩
    simpa [Scope.listingOf] using hlisted

/-- Nothing is skipped twice. -/
theorem nodup_skipped_scanOf (htree : top.IsTree) (htop : top.isDirectory = true) :
    (scanOf s top).skipped.Nodup := by
  rw [skipped_scanOf htree, List.filter_map, List.map_map, List.Nodup, List.pairwise_map]
  have hseen := isTree_seen top htree
  have hseenDir := (isDirectory_seen top).trans htop
  have hnodup := s.nodup_found s.listedLevels hseen Path.areNames_nil
  rw [List.Nodup, List.pairwise_map] at hnodup
  refine List.Pairwise.imp_of_mem ?_ (hnodup.filter _)
  intro p q hp hq hne heq
  obtain ⟨hall, -⟩ :=
    Scope.isTree_of_mem_found hseen hseenDir Path.areNames_nil (List.mem_filter.mp hp).1
  obtain ⟨hall', -⟩ :=
    Scope.isTree_of_mem_found hseen hseenDir Path.areNames_nil (List.mem_filter.mp hq).1
  exact hne (Path.ofSegments_injective hall hall' heq)

/-- **What a walk makes of its listings is exact.** -/
theorem isExact_scanOf (htree : top.IsTree) (htop : top.isDirectory = true)
    (hdepth : 1 ≤ s.settings.maxDepth) : IsExact s top (scanOf s top) where
  mem_files := mem_files_scanOf_iff htree htop hdepth
  nodup_files := by
    -- of two files one comes strictly before the other, so their paths differ
    rw [List.Nodup, List.pairwise_map]
    refine (pairwise_files_scanOf htree htop).imp ?_
    intro a b hbefore heq
    rw [heq] at hbefore
    exact Before.irrefl _ hbefore
  ordered := pairwise_files_scanOf htree htop
  allFiles_tree := by rw [tree_scanOf htree htop, Scope.allFiles_nest, files_scanOf htree]
  node := fun _ hd => allFiles_of_mem_subtrees_scanOf htree htop hd
  skipped_tree := by
    rw [skipped_scanOf htree, tree_scanOf htree htop,
      ← Scope.map_listing_subtrees_nest s.root.name, List.filter_map, List.map_map]
    rfl
  mem_skipped := mem_skipped_scanOf_iff htree htop hdepth
  nodup_skipped := nodup_skipped_scanOf htree htop

end ProjectSurvey.Walk
