import ProjectSurvey.Proofs.Walk.Frame

/-!
# What holds of every scan

`IsExact` tells of a walk that goes at least one level deep which files count. Here is what holds of
a scan under any settings: **its records are those of files of the disk, once each, and its tree
holds the same files and counts them** (`isConsistent_of_scan`).
-/

namespace ProjectSurvey.Walk

/-- Whether a way below the root reaches a file or a link whose path the system takes, and a record
is that of it. -/
structure IsRecordAt (t : Tables) (limit : Int) (disk : Entry) (root : Location)
    (names : List String) (f : Entry) (r : FileRecord) : Prop where
  /-- There are names, -/
  ne_nil : names ≠ []
  /-- they lead there, -/
  reached : disk.reach? (root ++ names) = some f
  /-- to no directory, -/
  isFile : f.isDirectory = false
  /-- by a path that the system takes, -/
  taken : Entry.checkPath (Location.text (root ++ names)) = .ok ()
  /-- and this is its record. -/
  record_eq : r = record t limit disk root (Path.ofSegments names) f

/-- Whether a scan agrees with the disk and with itself. -/
structure IsConsistent (t : Tables) (limit : Int) (disk : Entry) (root : Location) (scan : Scan) :
    Prop where
  /-- The scan knows its root. -/
  root_eq : scan.root = root
  /-- Every record is that of a file. -/
  exists_of_mem : ∀ r ∈ scan.files, ∃ names f, IsRecordAt t limit disk root names f r
  /-- No file comes twice. -/
  nodup_files : (scan.files.map FileRecord.path).Nodup
  /-- The tree holds the same files. -/
  allFiles_tree : scan.tree.allFiles = scan.files
  /-- Every node counts the files below it. -/
  fileCount_subtree : ∀ d ∈ scan.tree.subtrees, d.fileCount = d.allFiles.length
  /-- The directories at the root have different names. -/
  nodup_directories : (scan.tree.directories.map Directory.name).Nodup

section

variable {s : Scope} {top : Entry}

/-- What counts on a walk is a file of the disk. -/
theorem isRecordAt_of_mem_foundFiles (htree : s.disk.IsTree)
    (hroot : s.disk.reach? s.root = some top) (htop : top.isDirectory = true) {levels : Nat}
    {q : List String × Entry} (hq : q ∈ s.foundFiles levels [] (seen top)) :
    IsRecordAt s.tables s.settings.maxFileSize s.disk s.root q.1 q.2 (s.recordAt q.1 q.2) := by
  obtain ⟨hrootNames, hsub⟩ := htree.areNames_of_at? (Entry.at?_of_reach? hroot)
  have hseen := isTree_seen top hsub
  have hseenDir := (isDirectory_seen top).trans htop
  obtain ⟨way, hway, hq₁, hnames⟩ :=
    Scope.exists_of_mem_foundFiles hseen hseenDir Path.areNames_nil hq
  have hne : q.1 ≠ [] := by simpa [hq₁] using hway
  rw [Scope.foundFiles, List.mem_flatMap] at hq
  obtain ⟨⟨dirs, d⟩, hfound, hq⟩ := hq
  obtain ⟨⟨n, f⟩, hmem, rfl⟩ := List.mem_map.mp hq
  have hreach := Scope.reach?_of_mem_counted hsub htop hfound hmem
  obtain ⟨hall, hd, -⟩ := Scope.isTree_of_mem_found hseen hseenDir Path.areNames_nil hfound
  obtain ⟨-, -, hfile, hcounts⟩ := (Scope.mem_counted s hd hall).mp hmem
  obtain ⟨-, -, htaken⟩ := (Scope.counts_iff _ _).mp hcounts
  dsimp only at hne hnames hreach ⊢
  refine ⟨hne, ?_, hfile, ?_, rfl⟩
  · rw [Entry.reach?_append, hroot, Option.bind_some]
    exact hreach
  · have hpath : Path.ofSegments (dirs ++ [n]) ≠ "" :=
      fun h => hne ((Path.ofSegments_eq_empty_iff hnames).mp h)
    unfold Scope.isTaken at htaken
    rw [if_neg hpath, Path.join_text_ofSegments hrootNames hne hnames] at htaken
    cases hcheck : Entry.checkPath (Location.text (s.root ++ (dirs ++ [n]))) with
    | ok u => rfl
    | error e =>
      rw [hcheck] at htaken
      cases htaken

/-- The nodes inside the root of a walk are called like the directories there. -/
theorem map_name_directories_nest (htree : top.IsTree) (rootName : String) (levels : Nat) :
    (s.nest rootName (levels + 1) [] top).directories.map Directory.name =
      (s.inside [] top).map Prod.fst := by
  rw [Scope.directories_nest_succ, List.map_map]
  apply List.map_congr_left
  intro p hp
  obtain ⟨hnames, -, -⟩ := Scope.isTree_of_mem_inside s htree Path.areNames_nil hp
  have hname : Path.IsName p.1 := by simpa using hnames
  have hnode : Scope.nodeName rootName ([] ++ [p.1]) = p.1 := by
    rw [Scope.nodeName, List.nil_append, Path.ofSegments_singleton, if_neg hname.nonempty,
      hname.lastSegment_eq]
  refine Eq.trans ?_ hnode
  cases levels <;> rfl

end

/-- **Every scan is consistent.** -/
theorem isConsistent_of_scan {t : Tables} {st : WalkSettings} {disk : Entry} {root : Location}
    {sc : Scan} (h : scan t st disk root = .ok sc) (htree : disk.IsTree) :
    IsConsistent t st.maxFileSize disk root sc := by
  obtain ⟨top, hroot, htop, rfl⟩ := scan_eq_ok h
  have hreach := reach?_of_scan h htree hroot
  obtain ⟨-, hsub⟩ := htree.areNames_of_at? hroot
  have hseen := isTree_seen top hsub
  have hseenDir := (isDirectory_seen top).trans htop
  have hnames : ∀ q ∈ Scope.foundFiles ⟨t, st, disk, root, rules st disk root⟩
      (Scope.listedLevels ⟨t, st, disk, root, rules st disk root⟩) [] (seen top),
      Path.AreNames q.1 := by
    intro q hq
    obtain ⟨-, -, -, hq⟩ := Scope.exists_of_mem_foundFiles hseen hseenDir Path.areNames_nil hq
    exact hq
  refine ⟨rfl, ?_, ?_, ?_, ?_, ?_⟩
  · intro r hr
    rw [files_scanOf hsub] at hr
    obtain ⟨q, hq, rfl⟩ := List.mem_map.mp hr
    exact ⟨q.1, q.2, isRecordAt_of_mem_foundFiles htree hreach htop hq⟩
  · rw [files_scanOf hsub, List.map_map, List.Nodup, List.pairwise_map]
    apply (Scope.pairwise_foundFiles _ _ hseen Path.areNames_nil).imp_of_mem
    intro q q' hq hq' hbefore heq
    rw [Path.ofSegments_injective (hnames q hq) (hnames q' hq') heq] at hbefore
    exact Before.irrefl _ hbefore
  · rw [tree_scanOf hsub htop, Scope.allFiles_nest, files_scanOf hsub]
  · intro d hd
    rw [tree_scanOf hsub htop] at hd
    obtain ⟨way, x, -, rfl⟩ := Scope.mem_subtrees_nest hseen hseenDir Path.areNames_nil hd
    exact Scope.fileCount_nest
  · rw [tree_scanOf hsub htop]
    generalize Scope.listedLevels ⟨t, st, disk, root, rules st disk root⟩ = levels
    cases levels with
    | zero => exact List.nodup_nil
    | succ levels =>
      rw [map_name_directories_nest hseen]
      exact Scope.nodup_inside _ hseen []

namespace IsConsistent

variable {t : Tables} {limit : Int} {disk : Entry} {root : Location} {sc : Scan}
  (h : IsConsistent t limit disk root sc)

include h

/-- The tree counts all files. -/
theorem fileCount_tree : sc.tree.fileCount = sc.files.length := by
  rw [← h.allFiles_tree]
  apply h.fileCount_subtree
  rw [Directory.subtrees_eq_cons]
  exact List.mem_cons_self

/-- The files are those at the root and those that the directories at the root count. -/
theorem fileCount_eq_add :
    sc.tree.fileCount =
      sc.tree.files.length + (sc.tree.directories.map Directory.fileCount).sum := by
  have hdirectories : sc.tree.directories.map Directory.fileCount =
      sc.tree.directories.map fun d => d.allFiles.length := by
    apply List.map_congr_left
    intro d hd
    apply h.fileCount_subtree
    rw [Directory.subtrees_eq_cons]
    apply List.mem_cons_of_mem
    rw [List.mem_flatMap]
    exact ⟨d, hd, by rw [Directory.subtrees_eq_cons]; exact List.mem_cons_self⟩
  rw [h.fileCount_tree, hdirectories, ← h.allFiles_tree, Directory.allFiles_eq_append,
    List.length_append, List.length_flatMap]

/-- The files at the root are among the files. -/
theorem rootFiles_subset : sc.rootFiles ⊆ sc.files.map FileRecord.path := by
  rw [← h.allFiles_tree, Directory.allFiles_eq_append, List.map_append]
  exact List.subset_append_left _ _

end IsConsistent

end ProjectSurvey.Walk
