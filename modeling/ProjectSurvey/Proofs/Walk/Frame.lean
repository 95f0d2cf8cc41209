import ProjectSurvey.Proofs.Disk.Growth
import ProjectSurvey.Proofs.Walk.Exact

/-!
# What a walk does not see

A walk passes over the directory for output. Two disks hold the same project (`Entry.SameProject`)
if they agree beside that directory and every file there reads the same. **On such disks a walk
finds the same** (`scan_eq_of_sameProject`), so what a run writes below the directory for output is
nothing to the next one. Every record of a walk is that of a file beside it (`exists_of_mem_files`).
-/

namespace ProjectSurvey

namespace Entry

/-! ### Files of a project -/

/-- Whether names lead from the root of a project to a file or a link that does not lie below the
directory for output. -/
structure IsFileAt (disk : Entry) (root : Location) (out : String) (names : List String)
    (f : Entry) : Prop where
  /-- The names lead there, -/
  isThere : disk.at? (root ++ names) = some f
  /-- to no directory, -/
  isFile : f.isDirectory = false
  /-- and not through the directory for output. -/
  outside : ∀ n rest, names ≠ out :: n :: rest

/-- Whether two disks hold the same project, the directory for output apart. -/
structure SameProject (root : Location) (out : String) (disk disk' : Entry) : Prop where
  /-- The one disk is a tree, -/
  isTree : disk.IsTree
  /-- and the other. -/
  isTree' : disk'.IsTree
  /-- At the root there is a directory on both, -/
  top : ∃ es es' b g, disk.at? root = some (directory es b g) ∧
    disk'.at? root = some (directory es' b g) ∧ SameBeside out es es'
  /-- which a way reaches on the one if it does so on the other. -/
  reached : (disk'.reach? root).isSome = (disk.reach? root).isSome
  /-- Every file reads the same. -/
  reads : ∀ names f, disk.IsFileAt root out names f →
    disk'.readOctets (Location.text (root ++ names)) =
      disk.readOctets (Location.text (root ++ names))

variable {root : Location} {out n : String} {names : List String} {disk disk' f : Entry}

/-- A file of the project has a plain name, below a root of plain names. -/
theorem IsFileAt.areNames (h : disk.IsFileAt root out names f) (htree : disk.IsTree) :
    Path.AreNames root ∧ Path.AreNames names :=
  Path.areNames_append.mp (htree.areNames_of_at? h.isThere).1

/-- It is not the root, which is a directory. -/
theorem IsFileAt.ne_nil {es : List (String × Entry)} {b : ListRight} {g : Bool}
    (h : disk.IsFileAt root out names f) (hroot : disk.at? root = some (directory es b g)) :
    names ≠ [] := by
  rintro rfl
  have hthere := h.isThere
  rw [List.append_nil, hroot] at hthere
  cases hthere
  cases h.isFile

/-- What is beside the output directory does not change with it. -/
theorem IsFileAt.of_sameBeside {es es' : List (String × Entry)} {b : ListRight} {g : Bool}
    (h : disk.IsFileAt root out names f) (hroot : disk.at? root = some (directory es b g))
    (hroot' : disk'.at? root = some (directory es' b g)) (hsame : SameBeside out es es') :
    disk'.IsFileAt root out names f := by
  refine ⟨?_, h.isFile, h.outside⟩
  obtain ⟨n, rest, rfl⟩ := List.exists_cons_of_ne_nil (h.ne_nil hroot)
  have hthere := h.isThere
  rw [at?_append, hroot, Option.bind_some, at?_cons] at hthere
  rw [at?_append, hroot', Option.bind_some, at?_cons, ← hthere]
  rcases hsame with rfl | ⟨hfilter, hnone, hnone'⟩
  · rfl
  · by_cases hn : n = out
    · -- Nothing but the directory for output has its name.
      subst hn
      rw [Option.bind_eq_some_iff] at hthere
      obtain ⟨c, hc, hthere⟩ := hthere
      cases rest with
      | nil =>
        cases hthere
        have hdir := hnone f hc
        rw [h.isFile] at hdir
        cases hdir
      | cons m rest => exact absurd rfl (h.outside m rest)
    · exact congrArg (Option.bind · fun c => c.at? rest)
        (SameBeside.lookup_eq (.inr ⟨hfilter, hnone, hnone'⟩) hn)

/-- Being the same beside a name goes both ways. -/
theorem SameBeside.symm {es es' : List (String × Entry)} (h : SameBeside n es es') :
    SameBeside n es' es := by
  rcases h with rfl | ⟨hfilter, hes, hes'⟩
  · exact .inl rfl
  · exact .inr ⟨hfilter.symm, hes', hes⟩

namespace SameProject

/-- The same project has the same files. -/
theorem isFileAt_iff (h : SameProject root out disk disk') :
    disk'.IsFileAt root out names f ↔ disk.IsFileAt root out names f := by
  obtain ⟨es, es', b, g, hroot, hroot', hsame⟩ := h.top
  constructor
  · intro hfile
    exact hfile.of_sameBeside hroot' hroot hsame.symm
  · intro hfile
    exact hfile.of_sameBeside hroot hroot' hsame

/-- Its root is a location of plain names. -/
theorem areNames_root (h : SameProject root out disk disk') : Path.AreNames root := by
  obtain ⟨es, es', b, g, hroot, -⟩ := h.top
  exact (h.isTree.areNames_of_at? hroot).1

/-- A way reaches the root on both disks or on none. -/
theorem reach?_root (h : SameProject root out disk disk') :
    (∃ es es' b g, disk.reach? root = some (directory es b g) ∧
      disk'.reach? root = some (directory es' b g) ∧ SameBeside out es es') ∨
    disk.reach? root = none ∧ disk'.reach? root = none := by
  obtain ⟨es, es', b, g, hroot, hroot', hsame⟩ := h.top
  have hreached := h.reached
  cases hx : disk.reach? root with
  | none =>
    rw [hx] at hreached
    exact .inr ⟨rfl, Option.not_isSome_iff_eq_none.mp (by rw [hreached]; nofun)⟩
  | some x =>
    rw [hx] at hreached
    obtain ⟨x', hx'⟩ := Option.isSome_iff_exists.mp hreached
    cases hroot.symm.trans (at?_of_reach? hx)
    cases hroot'.symm.trans (at?_of_reach? hx')
    exact .inl ⟨es, es', b, g, rfl, hx', hsame⟩

end SameProject

end Entry

namespace Walk

open Entry

/-! ### What is left of a directory -/

namespace Scope

variable (s : Scope) {out : String} {es es' : List (String × Entry)} {b : ListRight} {g : Bool}

variable {s}

/-- A way reaches whatever counts in a directory that a walk comes to. -/
theorem reach?_of_mem_counted {levels : Nat} {top : Entry} (htree : top.IsTree)
    (htop : top.isDirectory = true) {p : List String × Entry}
    (hp : p ∈ s.found levels [] (seen top)) {f : String × Entry} (hf : f ∈ s.counted p.1 p.2) :
    top.reach? (p.1 ++ [f.1]) = some f.2 := by
  have hseen := isTree_seen top htree
  have hseenDir := (isDirectory_seen top).trans htop
  obtain ⟨hnames, hd, -⟩ := isTree_of_mem_found hseen hseenDir Path.areNames_nil hp
  obtain ⟨way, hway, hleads⟩ := (mem_found hseen hseenDir Path.areNames_nil).mp hp
  rw [List.nil_append] at hway
  obtain ⟨-, hchild, hfile, -⟩ := (mem_counted s hd hnames).mp hf
  rw [← at?_seen_eq_some_iff hfile, hway, at?_append, hleads.isThere, Option.bind_some, at?_cons,
    hchild]
  rfl

end Scope

/-! ### The walk on two disks -/

section

variable {t : Tables} {st : WalkSettings} {root : Location} {out : String} {disk disk' : Entry}

/-- A file of the project has the same record. -/
theorem record_eq_of_reads {limit : Int} {names : List String} {e : Entry}
    (hroot : Path.AreNames root) (hne : names ≠ []) (hnames : Path.AreNames names)
    (hreads : disk'.readOctets (Location.text (root ++ names)) =
      disk.readOctets (Location.text (root ++ names))) :
    record t limit disk' root (Path.ofSegments names) e =
      record t limit disk root (Path.ofSegments names) e := by
  have hsample : sample? disk' (Path.join root.text (Path.ofSegments names)) =
      sample? disk (Path.join root.text (Path.ofSegments names)) := by
    unfold sample?
    rw [Path.join_text_ofSegments hroot hne hnames, hreads]
  unfold record
  rw [hsample]

/-- The check of a root where a directory is: whether the system takes its path and a way reaches
it, and whether it may be read. -/
theorem checkRoot_of_at? {es : List (String × Entry)} {b : ListRight} {g : Bool}
    (hnames : Path.AreNames root)
    (hroot : disk.at? root = some (directory es b g)) (shown : String) :
    checkRoot disk root shown =
      match checkPath root.text with
      | .error f => if f.meansAbsent then .error (.notFound ("Project path not found: " ++ shown))
        else .error (.refused f root.text)
      | .ok () =>
        if (disk.reach? root).isSome then
          if b ≠ .denied && g then .ok ()
          else .error (.notGranted ("Project path is not readable: " ++ shown))
        else .error (.refused .denied root.text) := by
  unfold checkRoot seek
  cases hcheck : checkPath root.text with
  | error f =>
    rw [locate_of_error disk hcheck]
    dsimp only
    cases f.meansAbsent <;> rfl
  | ok u =>
    rw [locate_text_of_ok disk hnames hcheck]
    rcases follow_of_at? hnames hroot (noLinkAt_of_at? hroot (by simp)) true linkLimit with
      ⟨hreach, hfollow⟩ | ⟨hnone, hfollow⟩
    · rw [hfollow, hreach]
      rfl
    · rw [hfollow, hnone]
      rfl

/-- A root that passes its check is a directory that may be searched, and a way reaches it. -/
theorem reach?_of_checkRoot {es : List (String × Entry)} {b : ListRight} {g : Bool}
    (hnames : Path.AreNames root) (hroot : disk.at? root = some (directory es b g))
    {shown : String} (hcheck : checkRoot disk root shown = .ok ()) :
    g = true ∧ disk.reach? root = some (directory es b true) := by
  rw [checkRoot_of_at? hnames hroot] at hcheck
  cases hpath : checkPath root.text with
  | error f =>
    rw [hpath] at hcheck
    dsimp only at hcheck
    split at hcheck <;> cases hcheck
  | ok u =>
    rw [hpath] at hcheck
    cases hreach : disk.reach? root with
    | none =>
      rw [hreach] at hcheck
      cases hcheck
    | some x =>
      cases hroot.symm.trans (at?_of_reach? hreach)
      rw [hreach] at hcheck
      cases g with
      | true => exact ⟨rfl, rfl⟩
      | false => simp at hcheck

/-- What is in a root does not matter to its check, nor the rights to anything else. -/
theorem checkRoot_eq_of_reached {es es' : List (String × Entry)} {b : ListRight} {g : Bool}
    (hnames : Path.AreNames root) (hroot : disk.at? root = some (directory es b g))
    (hroot' : disk'.at? root = some (directory es' b g))
    (hreached : (disk'.reach? root).isSome = (disk.reach? root).isSome) (shown : String) :
    checkRoot disk' root shown = checkRoot disk root shown := by
  rw [checkRoot_of_at? hnames hroot, checkRoot_of_at? hnames hroot', hreached]

/-- The ignore file has a plain name. -/
theorem isName_ignoreFile : Path.IsName ignoreFile := by decide

/-- Its path is that of its location. -/
theorem join_text_ignoreFile (hroot : Path.AreNames root) :
    Path.join root.text ignoreFile = Location.text (root ++ [ignoreFile]) := by
  rw [← Path.join_text_ofSegments hroot (by simp) (by simpa using isName_ignoreFile),
    Path.ofSegments_singleton]

/-- Without an ignore file, only the patterns to pass over count. -/
theorem rules_of_none {es : List (String × Entry)} {b : ListRight} {g : Bool}
    (hnames : Path.AreNames root)
    (hroot : disk.at? root = some (directory es b g)) (hnone : es.lookup ignoreFile = none) :
    rules st disk root = IgnoreRule.ofLines (st.excludePatterns.map String.toList) := by
  have hfile : disk.at? (root ++ [ignoreFile]) = none := (at?_child hroot _).trans hnone
  obtain ⟨f, hread⟩ := readOctets_text_of_none
    (Path.areNames_append.mpr ⟨hnames, by simpa using isName_ignoreFile⟩)
    ((isStraight_of_at? hroot (by simp)).concat (noLinkAt_of_at? hfile (by simp)))
    (by simp [hfile])
  unfold rules readText
  rw [join_text_ignoreFile hnames, hread]
  simp

/-- Where the root does not pass its check, a walk fails as the check does. -/
theorem scan_of_checkRoot {f : Failure} (hcheck : checkRoot disk root root.text = .error f) :
    scan t st disk root = .error f := by
  unfold scan scanUnder
  rw [hcheck]
  rfl

/-- What a walk gives is made of the listings from a directory at the root, which is listed. -/
theorem exists_lists_of_scan {sc : Scan} (h : scan t st disk root = .ok sc) :
    ∃ top, disk.at? root = some top ∧
      Scope.Lists ⟨t, st, disk, root, rules st disk root⟩ [] top ∧
      sc = scanOf ⟨t, st, disk, root, rules st disk root⟩ top := by
  unfold scan scanUnder at h
  cases hcheck : checkRoot disk root root.text with
  | error f =>
    rw [hcheck] at h
    cases h
  | ok u =>
    rw [hcheck] at h
    cases hroot : disk.at? root with
    | none =>
      rw [hroot] at h
      cases h
    | some top =>
      rw [hroot] at h
      simp only [bind, Except.bind] at h
      split at h
      · cases h
      · next hlisted =>
        split at h
        · cases h
        · refine ⟨top, rfl, ?_, (Except.ok.inj h).symm⟩
          rw [← Scope.isSome_contents?_iff, Path.ofSegments_nil, ← Option.not_isNone]
          rw [Bool.not_eq_true] at hlisted
          rw [hlisted]
          rfl

/-- What a walk gives is made of the listings from a directory at the root. -/
theorem scan_eq_ok {sc : Scan} (h : scan t st disk root = .ok sc) :
    ∃ top, disk.at? root = some top ∧ top.isDirectory = true ∧
      sc = scanOf ⟨t, st, disk, root, rules st disk root⟩ top := by
  obtain ⟨top, hroot, hlists, heq⟩ := exists_lists_of_scan h
  exact ⟨top, hroot, hlists.isDirectory, heq⟩

/-- A root that a walk gives something for is a directory that may be searched. -/
theorem exists_searchable_of_scan {sc : Scan} (h : scan t st disk root = .ok sc)
    (htree : disk.IsTree) {top : Entry} (hroot : disk.at? root = some top) :
    ∃ es b, top = directory es b true ∧ disk.reach? root = some (directory es b true) := by
  obtain ⟨top', hroot', htop, -⟩ := scan_eq_ok h
  cases hroot.symm.trans hroot'
  cases hcheck : checkRoot disk root root.text with
  | error f =>
    rw [scan_of_checkRoot hcheck] at h
    cases h
  | ok u =>
    cases top with
    | file _ _ => cases htop
    | link _ _ => cases htop
    | directory es b g =>
      obtain ⟨rfl, hreach⟩ := reach?_of_checkRoot (htree.areNames_of_at? hroot).1 hroot hcheck
      exact ⟨es, b, rfl, hreach⟩

/-- Of a root that a walk gives something for, a way reaches it. -/
theorem reach?_of_scan {sc : Scan} (h : scan t st disk root = .ok sc) (htree : disk.IsTree)
    {top : Entry} (hroot : disk.at? root = some top) : disk.reach? root = some top := by
  obtain ⟨es, b, rfl, hreach⟩ := exists_searchable_of_scan h htree hroot
  exact hreach

/-- What a walk gives is exact. -/
theorem isExact_of_scan {sc : Scan} (h : scan t st disk root = .ok sc) (htree : disk.IsTree)
    (hdepth : 1 ≤ st.maxDepth) {top : Entry} (hroot : disk.at? root = some top) :
    IsExact ⟨t, st, disk, root, rules st disk root⟩ top sc := by
  obtain ⟨top', hroot', htop, rfl⟩ := scan_eq_ok h
  rw [hroot] at hroot'
  cases hroot'
  exact isExact_scanOf (htree.areNames_of_at? hroot).2 htop hdepth

/-- The files at the root are those that count there. -/
theorem rootFiles_scanOf {s : Scope} {top : Entry} (htree : top.IsTree)
    (htop : top.isDirectory = true) :
    (scanOf s top).rootFiles = (s.counted [] (seen top)).map Prod.fst := by
  rw [Scan.rootFiles, tree_scanOf htree htop]
  have hlisting : (Scope.nest s s.root.name s.listedLevels [] (seen top)).files =
      (s.listingOf ([], seen top)).files := congrArg Listing.files Scope.listing_nest
  rw [hlisting, Scope.listingOf, List.map_map]
  refine List.map_congr_left fun f _ => ?_
  show Path.ofSegments ([] ++ [f.1]) = f.1
  rw [List.nil_append, Path.ofSegments_singleton]

end

end Walk

end ProjectSurvey
