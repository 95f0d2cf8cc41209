import ProjectSurvey.Proofs.Disk.Unlinked
import ProjectSurvey.Proofs.Walk.Frame

/-!
# What a walk returns

**A walk returns exactly the files that count, and a directory that may not be listed or not be
searched takes away what lies in it and nothing else** (`scan_isExact`). Whether a directory may be
listed changes no record, since reading a file lists nothing; whether it may be searched changes
none where no link leads into it. So the walk without one of these rights comes to the same files
with the same records, except below that directory (`IsCut.files_eq`).

All this holds of projects of at most `levelLimit` levels. A walk that comes to a directory further
down has no result at all (`scan_of_deep`), whatever depth it was asked for.
-/

namespace ProjectSurvey.Walk

variable {s : Scope} {top : Entry}

/-! ### A directory that is cut off -/

/-- The scope on another disk. -/
def Scope.over (s : Scope) (disk : Entry) : Scope := { s with disk }

/-- Whether a project on another disk is the same, but for a directory in which no file is found. -/
structure IsCut (s : Scope) (top : Entry) (cut : List String) (disk' top' : Entry) : Prop where
  /-- There are directories where there were some. -/
  isDirectory : ∀ dirs, (top'.at? dirs).map Entry.isDirectory = (top.at? dirs).map Entry.isDirectory
  /-- What can be listed could be listed before, -/
  mayList : ∀ dirs, top'.mayList dirs = true → top.mayList dirs = true
  /-- and elsewhere what could be listed can. -/
  mayList_beside : ∀ dirs, ¬ cut <+: dirs → top.mayList dirs = true → top'.mayList dirs = true
  /-- Files that are reached were reached before, -/
  reach : ∀ l x, x.isDirectory = false → top'.reach? l = some x → top.reach? l = some x
  /-- and elsewhere those that were reached are. -/
  reach_beside : ∀ l x, x.isDirectory = false → ¬ cut <+: l → top.reach? l = some x →
    top'.reach? l = some x
  /-- No file in the directory counts. -/
  hidden : ∀ dirs name e, (s.over disk').Admits top' dirs name e → ¬ cut <+: dirs
  /-- Files that count have the records that they had. -/
  record : ∀ dirs name e, (s.over disk').Admits top' dirs name e →
    (s.over disk').recordAt (dirs ++ [name]) e = s.recordAt (dirs ++ [name]) e

namespace IsCut

variable {cut dirs : List String} {disk' top' : Entry} (h : IsCut s top cut disk' top')

include h

/-- What can be listed could be listed before. -/
theorem isListed (hlisted : (s.over disk').IsListed top' dirs) : s.IsListed top dirs :=
  ⟨h.mayList dirs hlisted.granted, hlisted.taken⟩

/-- What can be listed elsewhere is the same as before. -/
theorem isListed_iff (hdirs : ¬ cut <+: dirs) :
    (s.over disk').IsListed top' dirs ↔ s.IsListed top dirs :=
  ⟨h.isListed, fun hlisted => ⟨h.mayList_beside dirs hdirs hlisted.granted, hlisted.taken⟩⟩

/-- A walk comes to nothing new. -/
theorem reaches (hreaches : (s.over disk').Reaches top' dirs) : s.Reaches top dirs := by
  obtain ⟨hdir, hdepth, hpassed, hignored, hlisted⟩ := hreaches
  refine ⟨?_, hdepth, hpassed, hignored, fun front n back hway => ?_⟩
  · rwa [h.isDirectory] at hdir
  · exact h.isListed (hlisted front n back hway)

/-- A walk comes to the same directories elsewhere. -/
theorem reaches_iff (hdirs : ¬ cut <+: dirs) :
    (s.over disk').Reaches top' dirs ↔ s.Reaches top dirs := by
  refine ⟨h.reaches, ?_⟩
  rintro ⟨hdir, hdepth, hpassed, hignored, hlisted⟩
  refine ⟨?_, hdepth, hpassed, hignored, fun front n back hway => ?_⟩
  · rwa [h.isDirectory]
  · refine (h.isListed_iff fun hfront => hdirs ?_).mpr (hlisted front n back hway)
    rw [hway]
    exact hfront.trans (List.prefix_append front (n :: back))

/-- A file is not itself the directory, so it lies below it as soon as its directory does. -/
theorem prefix_concat_iff (hcut : (top.at? cut).map Entry.isDirectory = some true) {name : String}
    {e : Entry} (hadmits : s.Admits top dirs name e) : cut <+: dirs ++ [name] ↔ cut <+: dirs := by
  rw [List.prefix_concat_iff]
  refine or_iff_right ?_
  rintro rfl
  rw [Entry.at?_of_reach? hadmits.isThere, Option.map_some, hadmits.isFile] at hcut
  cases hcut

/-- **The same files count, except those below the directory.** -/
theorem admits_iff (hcut : (top.at? cut).map Entry.isDirectory = some true) {name : String}
    {e : Entry} :
    (s.over disk').Admits top' dirs name e ↔ s.Admits top dirs name e ∧ ¬ cut <+: dirs := by
  constructor
  · intro hadmits
    have hdirs := h.hidden dirs name e hadmits
    obtain ⟨hreaches, hlisted, hthere, hfile, hsystem, hignored, htaken⟩ := hadmits
    exact ⟨⟨h.reaches hreaches, h.isListed hlisted, h.reach _ e hfile hthere, hfile, hsystem,
      hignored, htaken⟩, hdirs⟩
  · rintro ⟨hadmits, hdirs⟩
    have hbelow := mt (h.prefix_concat_iff hcut hadmits).mp hdirs
    obtain ⟨hreaches, hlisted, hthere, hfile, hsystem, hignored, htaken⟩ := hadmits
    exact ⟨(h.reaches_iff hdirs).mpr hreaches, (h.isListed_iff hdirs).mpr hlisted,
      h.reach_beside _ e hfile hbelow hthere, hfile, hsystem, hignored, htaken⟩

/-- **The scan is the same without what lies in the directory.** -/
theorem files_eq (htree : top.IsTree) (hcut : (top.at? cut).map Entry.isDirectory = some true)
    {scan scan' : Scan} (hexact : IsExact s top scan)
    (hexact' : IsExact (s.over disk') top' scan') :
    scan'.files = scan.files.filter fun r => decide (¬ cut <+: Path.components r.path) := by
  have hfilter := hexact.ordered.filter fun r => decide (¬ cut <+: Path.components r.path)
  refine eq_of_pairwise_before (fun r : FileRecord => Path.components r.path) hexact'.ordered
    hfilter ?_
  intro r
  rw [hexact'.mem_files, List.mem_filter, hexact.mem_files, decide_eq_true_eq]
  constructor
  · rintro ⟨dirs, name, e, hadmits, hr⟩
    rw [h.record dirs name e hadmits] at hr
    obtain ⟨hadmits, hdirs⟩ := (h.admits_iff hcut).mp hadmits
    refine ⟨⟨dirs, name, e, hadmits, hr⟩, ?_⟩
    rw [hr, components_recordAt (Scope.areNames_of_admits htree hadmits),
      h.prefix_concat_iff hcut hadmits]
    exact hdirs
  · rintro ⟨⟨dirs, name, e, hadmits, hr⟩, hdirs⟩
    rw [hr, components_recordAt (Scope.areNames_of_admits htree hadmits),
      h.prefix_concat_iff hcut hadmits] at hdirs
    have hadmits' := (h.admits_iff hcut).mpr ⟨hadmits, hdirs⟩
    exact ⟨dirs, name, e, hadmits', hr.trans (h.record dirs name e hadmits').symm⟩

/-- What is skipped elsewhere is the same as before. -/
theorem mem_skipped_iff (htree : top.IsTree) {scan scan' : Scan} (hexact : IsExact s top scan)
    (hexact' : IsExact (s.over disk') top' scan') {p : String}
    (hp : ¬ cut <+: Path.components p) : p ∈ scan'.skipped ↔ p ∈ scan.skipped := by
  rw [hexact'.mem_skipped, hexact.mem_skipped]
  constructor
  · rintro ⟨dirs, hreaches, hlisted, rfl⟩
    have hreaches' := h.reaches hreaches
    rw [Path.components_ofSegments (Scope.areNames_of_reaches htree hreaches')] at hp
    exact ⟨dirs, hreaches', mt (h.isListed_iff hp).mpr hlisted, rfl⟩
  · rintro ⟨dirs, hreaches, hlisted, rfl⟩
    rw [Path.components_ofSegments (Scope.areNames_of_reaches htree hreaches)] at hp
    exact ⟨dirs, (h.reaches_iff hp).mpr hreaches, mt (h.isListed_iff hp).mp hlisted, rfl⟩

end IsCut

/-! ### The walk of a project -/

namespace Scope

/-- The walk of a scope, from its root. -/
def scan (s : Scope) : Except Failure Scan :=
  scanUnder s.tables s.settings s.disk s.root s.rules

/-- Whether a directory lies at the root that a walk can start from. -/
structure StartsAt (s : Scope) (top : Entry) : Prop where
  /-- The root passes its check. -/
  check : checkRoot s.disk s.root s.root.text = .ok ()
  /-- It is there. -/
  isThere : s.disk.at? s.root = some top
  /-- It can be listed. -/
  listed : s.IsListed top []

/-- A root that can be listed is listed by a walk. -/
theorem isListed_nil_iff : s.IsListed top [] ↔ s.Lists [] top := by
  constructor
  · rintro ⟨hgranted, htaken⟩
    exact ⟨hgranted, htaken⟩
  · rintro ⟨hgranted, htaken⟩
    exact ⟨hgranted, htaken⟩

/-- A walk starts at a directory. -/
theorem StartsAt.isDirectory (h : s.StartsAt top) : top.isDirectory = true :=
  (isListed_nil_iff.mp h.listed).isDirectory

/-- A way reaches the root that a walk can start from. -/
theorem StartsAt.reach?_root (h : s.StartsAt top) (hdisk : s.disk.IsTree) :
    s.disk.reach? s.root = some top := by
  have hdir := h.isDirectory
  cases top with
  | file _ _ => cases hdir
  | link _ _ => cases hdir
  | directory es b g =>
    obtain ⟨rfl, hreach⟩ :=
      reach?_of_checkRoot (hdisk.areNames_of_at? h.isThere).1 h.isThere h.check
    exact hreach

end Scope

/-- A walk fails only if it comes too far down. -/
theorem scan_eq (h : s.StartsAt top) :
    s.scan = if levelLimit < (scanOf s top).tree.levels then .error .tooDeep
      else .ok (scanOf s top) := by
  have hlists : (s.contents? "" top).isSome = true := by
    rw [← Path.ofSegments_nil, Scope.isSome_contents?_iff]
    exact Scope.isListed_nil_iff.mp h.listed
  have hnone : (s.contents? "" top).isNone = false := by
    rw [← Option.not_isSome, hlists]
    rfl
  unfold Scope.scan scanUnder
  rw [h.check, h.isThere]
  simp only [Except.bind, bind, hnone, Bool.false_eq_true, if_false]
  rfl

/-- The tree of the scan is no deeper than what is reached. -/
theorem levels_scanOf_le (htree : top.IsTree) (htop : top.isDirectory = true)
    (hdepth : 1 ≤ s.settings.maxDepth)
    (hlevels : ∀ dirs, s.Reaches top dirs → dirs.length ≤ levelLimit) :
    (scanOf s top).tree.levels ≤ levelLimit := by
  rw [tree_scanOf htree htop, Scope.levels_nest_le_iff]
  rintro ⟨dirs, d⟩ hfound
  have hreaches := ((Scope.mem_found_iff htree htop hdepth).mp hfound).1
  simpa using hlevels dirs hreaches

/-- Whether the walk of a scope comes to what a scan has found without the files in a directory. -/
def ComesToAllBut (s : Scope) (top : Entry) (scan : Scan) (cut : List String) : Prop :=
  ∃ scan', s.scan = .ok scan' ∧ IsExact s top scan' ∧
    scan'.files = scan.files.filter (fun r => decide (¬ cut <+: Path.components r.path)) ∧
    ∀ p, ¬ cut <+: Path.components p → (p ∈ scan'.skipped ↔ p ∈ scan.skipped)

/-- **A directory that is cut off takes away what lies in it and nothing else.** -/
theorem IsCut.comesToAllBut {cut : List String} {disk' top' : Entry}
    (h : IsCut s top cut disk' top')
    (htree : top.IsTree) (htree' : top'.IsTree) (hstart : (s.over disk').StartsAt top')
    (hdepth : 1 ≤ s.settings.maxDepth)
    (hlevels : ∀ dirs, s.Reaches top dirs → dirs.length ≤ levelLimit)
    (hcut : (top.at? cut).map Entry.isDirectory = some true) {scan : Scan}
    (hexact : IsExact s top scan) : ComesToAllBut (s.over disk') top' scan cut := by
  have hexact' := isExact_scanOf (s := s.over disk') htree' hstart.isDirectory hdepth
  refine ⟨scanOf (s.over disk') top', ?_, hexact', h.files_eq htree hcut hexact hexact',
    fun p hp => h.mem_skipped_iff htree hexact hexact' hp⟩
  have hle := levels_scanOf_le (s := s.over disk') htree' hstart.isDirectory hdepth
    fun dirs hreaches => hlevels dirs (h.reaches hreaches)
  rw [scan_eq hstart, if_neg (Nat.not_lt.mpr hle)]

/-! ### The right to list -/

/-- The scope in which one directory below the root may not be listed. -/
def Scope.deny (s : Scope) (dirs : List String) : Scope := s.over (s.disk.deny (s.root ++ dirs))

/-- Not listing a directory cuts it off. -/
theorem isCut_deny (s : Scope) (top : Entry) (cut : List String) :
    IsCut s top cut (s.disk.deny (s.root ++ cut)) (top.deny cut) where
  isDirectory := fun dirs => Entry.isDirectory_at?_deny top cut dirs
  mayList := by
    intro dirs hgranted
    rw [Entry.mayList_deny, Bool.and_eq_true] at hgranted
    exact hgranted.1
  mayList_beside := by
    intro dirs hdirs hgranted
    rw [Entry.mayList_deny, Bool.and_eq_true, decide_eq_true_eq]
    refine ⟨hgranted, ?_⟩
    rintro rfl
    exact hdirs (List.prefix_refl _)
  reach := fun l x hx => (Entry.reach?_deny_iff top cut l hx).mp
  reach_beside := fun l x hx _ => (Entry.reach?_deny_iff top cut l hx).mpr
  hidden := by
    have hunlisted : (top.deny cut).mayList cut = false := by simp [Entry.mayList_deny]
    rintro dirs name e hadmits ⟨back, rfl⟩
    have hgranted : (top.deny cut).mayList cut = true := by
      cases back with
      | nil =>
        have hlisted := hadmits.listed.granted
        rwa [List.append_nil] at hlisted
      | cons n back => exact (hadmits.reaches.listed cut n back rfl).granted
    rw [hunlisted] at hgranted
    cases hgranted
  record := by
    intro dirs name e _
    unfold Scope.recordAt record sample? Scope.over
    simp only [Entry.readOctets_deny]

/-- Denying a directory below the start leaves the start. -/
theorem Scope.StartsAt.deny (h : s.StartsAt top) (hdisk : s.disk.IsTree) {cut : List String}
    (hne : cut ≠ []) : (s.deny cut).StartsAt (top.deny cut) := by
  obtain ⟨n, cut, rfl⟩ := List.exists_cons_of_ne_nil hne
  have hthere : (s.disk.deny (s.root ++ n :: cut)).at? s.root = some (top.deny (n :: cut)) := by
    rw [Entry.at?_deny_append, h.isThere]
    rfl
  refine ⟨?_, hthere, ?_, h.listed.taken⟩
  · have hdir := h.isDirectory
    cases top with
    | file _ _ => cases hdir
    | link _ _ => cases hdir
    | directory es b g =>
      obtain ⟨es', hdeny⟩ := Entry.exists_deny_cons es b g n cut
      rw [hdeny] at hthere
      exact (checkRoot_eq_of_reached (hdisk.areNames_of_at? h.isThere).1 h.isThere hthere
        (Entry.isSome_reach?_deny _ _ _) _).trans h.check
  · rw [Entry.mayList_deny, h.listed.granted]
    exact decide_eq_true (List.cons_ne_nil n cut).symm

/-! ### The right to search -/

/-- The scope in which one directory below the root may not be searched. -/
def Scope.shut (s : Scope) (dirs : List String) : Scope := s.over (s.disk.shut (s.root ++ dirs))

/-- Not searching a directory cuts it off where there are no links. -/
theorem isCut_shut (hdisk : s.disk.IsTree) (hunlinked : s.disk.IsUnlinked) (hstart : s.StartsAt top)
    (cut : List String) : IsCut s top cut (s.disk.shut (s.root ++ cut)) (top.shut cut) where
  isDirectory := fun dirs => Entry.isDirectory_at?_shut top cut dirs
  mayList := by
    intro dirs hgranted
    rw [Entry.mayList_shut, Bool.and_eq_true] at hgranted
    exact hgranted.1
  mayList_beside := by
    intro dirs hdirs hgranted
    rw [Entry.mayList_shut, Bool.and_eq_true, decide_eq_true_eq]
    exact ⟨hgranted, fun h => hdirs h.1⟩
  reach := fun l x hx h => ((Entry.reach?_shut_iff hx).mp h).1
  reach_beside := fun l x hx hl h => (Entry.reach?_shut_iff hx).mpr ⟨h, fun hbelow => hl hbelow.1⟩
  hidden := by
    intro dirs name e hadmits hcut
    refine ((Entry.reach?_shut_iff hadmits.isFile).mp hadmits.isThere).2
      ⟨hcut.trans (List.prefix_append dirs [name]), ?_⟩
    rintro rfl
    exact absurd hcut.length_le (by simp)
  record := by
    intro dirs name e hadmits
    have hroot := (hdisk.areNames_of_at? hstart.isThere).1
    have hreach' := hadmits.isThere
    obtain ⟨hreach, -⟩ := (Entry.reach?_shut_iff hadmits.isFile).mp hreach'
    have hnames := ((hdisk.areNames_of_at? hstart.isThere).2.areNames_of_at?
      (Entry.at?_of_reach? hreach)).1
    -- on both disks a straight way leads to the file
    have hthere : s.disk.reach? (s.root ++ (dirs ++ [name])) = some e := by
      rw [Entry.reach?_append, hstart.reach?_root hdisk]
      exact hreach
    have hthere' : (s.disk.shut (s.root ++ cut)).reach? (s.root ++ (dirs ++ [name])) = some e := by
      rw [Entry.reach?_append, Entry.reach?_shut_append, hstart.reach?_root hdisk]
      exact hreach'
    have hall := Path.areNames_append.mpr ⟨hroot, hnames⟩
    cases e with
    | directory _ _ _ => exact absurd hadmits.isFile (by simp [Entry.isDirectory])
    | link t m => exact absurd (Entry.at?_of_reach? hthere) (hunlinked _ t m)
    | file octets m =>
      exact record_eq_of_reads hroot (by simp) hnames
        ((Entry.readOctets_text_of_file hall hthere').trans
          (Entry.readOctets_text_of_file hall hthere).symm)

/-- Shutting a directory below the start leaves it too. -/
theorem Scope.StartsAt.shut (h : s.StartsAt top) (hdisk : s.disk.IsTree) {cut : List String}
    (hne : cut ≠ []) : (s.shut cut).StartsAt (top.shut cut) := by
  obtain ⟨n, cut, rfl⟩ := List.exists_cons_of_ne_nil hne
  have hthere : (s.disk.shut (s.root ++ n :: cut)).at? s.root = some (top.shut (n :: cut)) := by
    rw [Entry.at?_shut_append, h.isThere]
    rfl
  refine ⟨?_, hthere, ?_, h.listed.taken⟩
  · have hdir := h.isDirectory
    cases top with
    | file _ _ => cases hdir
    | link _ _ => cases hdir
    | directory es b g =>
      obtain ⟨es', hshut⟩ := Entry.exists_shut_cons es b g n cut
      rw [hshut] at hthere
      refine (checkRoot_eq_of_reached (hdisk.areNames_of_at? h.isThere).1 h.isThere
        hthere ?_ _).trans
        h.check
      rw [Entry.reach?_shut_append, Option.isSome_map]
  · rw [Entry.mayList_shut_nil]
    exact h.listed.granted

/-- **A walk returns exactly the files that count, and a directory that may not be listed takes away
what lies in it and nothing else**, as long as no directory that the walk comes to is too far down.
Where there are no links, the same holds of a directory that may not be searched. -/
theorem scan_isExact (hdisk : s.disk.IsTree) (hstart : s.StartsAt top)
    (hdepth : 1 ≤ s.settings.maxDepth)
    (hlevels : ∀ dirs, s.Reaches top dirs → dirs.length ≤ levelLimit) :
    ∃ scan, s.scan = .ok scan ∧ IsExact s top scan ∧
      ∀ cut, cut ≠ [] → (top.at? cut).map Entry.isDirectory = some true →
        ComesToAllBut (s.deny cut) (top.deny cut) scan cut ∧
          (s.disk.linkCount = 0 → ComesToAllBut (s.shut cut) (top.shut cut) scan cut) := by
  have htree : top.IsTree := (hdisk.areNames_of_at? hstart.isThere).2
  have htop := hstart.isDirectory
  have hexact := isExact_scanOf htree htop hdepth
  refine ⟨scanOf s top, ?_, hexact, fun cut hne hcut => ⟨?_, fun hlinks => ?_⟩⟩
  · rw [scan_eq hstart, if_neg (Nat.not_lt.mpr (levels_scanOf_le htree htop hdepth hlevels))]
  · exact (isCut_deny s top cut).comesToAllBut htree (Entry.isTree_deny htree cut)
      (hstart.deny hdisk hne) hdepth hlevels hcut hexact
  · exact (isCut_shut hdisk (Entry.isUnlinked_of_linkCount hlinks) hstart cut).comesToAllBut htree
      (Entry.isTree_shut htree cut) (hstart.shut hdisk hne) hdepth hlevels hcut hexact

/-- A project with a file that systems leave behind, a directory that may not be listed, one that
may not be searched and one with a file. -/
theorem scan_isExact_of_unlisted :
    let top : Entry := .ofEntries [("b", .directory [("g", .file [] 0)] .denied true),
      ("Thumbs.db", .file [] 0), ("c", .directory [("h", .file [] 0)] .granted false),
      ("a", .ofEntries [("f", .file [97] 0)])]
    let s : Scope := ⟨.default, ⟨[], 3, [], false, 0⟩, .ofEntries [("p", top)], ["p"], []⟩
    s.disk.IsTree ∧ s.StartsAt top ∧ 1 ≤ s.settings.maxDepth ∧
      (∀ dirs, s.Reaches top dirs → dirs.length ≤ levelLimit) ∧
      ∃ scan, s.scan = .ok scan ∧ IsExact s top scan ∧
        ComesToAllBut (s.deny ["a"]) (top.deny ["a"]) scan ["a"] ∧
        ComesToAllBut (s.shut ["a"]) (top.shut ["a"]) scan ["a"] := by
  intro top s
  have htop : top.IsTree := by
    refine Entry.isTree_directory.mpr ⟨by decide, ?_⟩
    intro p hp
    simp only [List.mem_cons, List.not_mem_nil, or_false] at hp
    rcases hp with rfl | rfl | rfl | rfl
    · exact ⟨by decide, Entry.isTree_singleton (by decide) trivial⟩
    · exact ⟨by decide, trivial⟩
    · exact ⟨by decide, Entry.isTree_singleton (by decide) trivial⟩
    · exact ⟨by decide, Entry.isTree_singleton (by decide) trivial⟩
  have hdisk : s.disk.IsTree := Entry.isTree_singleton (by decide) htop
  have hstart : s.StartsAt top := ⟨by decide, rfl, by decide, by decide⟩
  have hlevels : ∀ dirs, s.Reaches top dirs → dirs.length ≤ levelLimit := by
    intro dirs h
    have hdepth : (dirs.length : Int) ≤ 3 - 1 := h.depth
    unfold levelLimit
    omega
  obtain ⟨scan, hscan, hexact, hcut⟩ := scan_isExact hdisk hstart (by decide) hlevels
  obtain ⟨hdeny, hshut⟩ := hcut ["a"] (List.cons_ne_nil _ _) rfl
  exact ⟨hdisk, hstart, by decide, hlevels, scan, hscan, hexact, hdeny, hshut rfl⟩

/-! ### Too far down -/

/-- The system takes every path that is not too long. -/
theorem Scope.isTaken_iff {names : List String} (hroot : Path.AreNames s.root)
    (h : Path.AreNames names) : s.isTaken (Path.ofSegments names) = true ↔
      (Location.text (s.root ++ names)).utf8ByteSize ≤ pathLimit := by
  have htext : (if Path.ofSegments names = "" then s.root.text
      else Path.join s.root.text (Path.ofSegments names)) = Location.text (s.root ++ names) := by
    by_cases hne : names = []
    · subst hne
      simp
    · rw [if_neg fun heq => hne ((Path.ofSegments_eq_empty_iff h).mp heq),
        Path.join_text_ofSegments hroot hne h]
  have hzero := Path.holdsZero_text (Path.areNames_append.mpr ⟨hroot, h⟩)
  unfold isTaken Entry.checkPath
  rw [htext, hzero, if_neg Bool.false_ne_true]
  split
  · rename_i hlong
    simp only [Except.isOk, Except.toBool, Bool.false_eq_true, false_iff]
    omega
  · rename_i hshort
    simp only [Except.isOk, Except.toBool, true_iff]
    omega

/-- Where no rules leave anything out, every file at the root counts. -/
theorem Scope.StartsAt.admits (h : s.StartsAt top) (hroot : Path.AreNames s.root)
    (hrules : s.rules = []) (hdepth : 1 ≤ s.settings.maxDepth) {n : String} {e : Entry}
    (hn : Path.IsName n) (hsystem : n ∉ systemFiles)
    (hshort : (Location.text (s.root ++ [n])).utf8ByteSize ≤ pathLimit)
    (hthere : top.reach? [n] = some e) (hfile : e.isDirectory = false) : s.Admits top [] n e := by
  refine ⟨⟨congrArg some h.isDirectory, ?_, by simp, by simp, by simp⟩, h.listed, hthere, hfile,
    hsystem, ?_, ?_⟩
  · rw [List.length_nil]
    omega
  · rw [hrules]
    rfl
  · exact (Scope.isTaken_iff hroot (Path.areNames_cons.mpr ⟨hn, Path.areNames_nil⟩)).mpr hshort

/-- A walk that comes to a directory too far down has no result. -/
theorem scan_of_deep (hdisk : s.disk.IsTree) (hstart : s.StartsAt top)
    (hdepth : 1 ≤ s.settings.maxDepth) {dirs : List String} (hreaches : s.Reaches top dirs)
    (hdeep : levelLimit < dirs.length) : s.scan = .error .tooDeep := by
  have htree : top.IsTree := (hdisk.areNames_of_at? hstart.isThere).2
  have htop := hstart.isDirectory
  obtain ⟨d, hd, -⟩ := hreaches.exists_seen htree
  rw [scan_eq hstart, if_pos]
  rw [← Nat.not_le, tree_scanOf htree htop, Scope.levels_nest_le_iff]
  intro hall
  have hfound := (Scope.mem_found_iff htree htop hdepth).mpr ⟨hreaches, hd⟩
  have hlength := hall _ hfound
  rw [List.length_nil, Nat.zero_add] at hlength
  exact absurd hdeep (Nat.not_lt.mpr hlength)

/-- A file below directories of one name, each in the one before. -/
def chain : (length : Nat) → Entry
  | 0 => .ofEntries [("f", .file [] 0)]
  | length + 1 => .ofEntries [("a", chain length)]

/-- So far down a chain there is the rest of it. -/
theorem reach?_chain (n m : Nat) :
    (chain (n + m)).reach? (List.replicate n "a") = some (chain m) := by
  induction n with
  | zero =>
    rw [Nat.zero_add]
    rfl
  | succ n ih =>
    rw [Nat.succ_add, List.replicate_succ, Entry.reach?_cons]
    exact ih

/-- The top of a chain may be listed. -/
theorem mayList_chain (n : Nat) : (chain n).mayList [] = true := by
  cases n <;> rfl

/-- A chain is a directory. -/
theorem isDirectory_chain (n : Nat) : (chain n).isDirectory = true := by
  cases n <;> rfl

/-- A chain is a tree. -/
theorem isTree_chain (n : Nat) : (chain n).IsTree := by
  induction n with
  | zero => exact Entry.isTree_singleton (by decide) trivial
  | succ n ih => exact Entry.isTree_singleton (by decide) ih

/-- There is no link in a chain. -/
theorem linkCount_chain (n : Nat) : (chain n).linkCount = 0 := by
  induction n with
  | zero => rfl
  | succ n ih => simp [chain, Entry.ofEntries, Entry.linkCount, Entry.linkCountOf, ih]

/-- The names in a chain are plain. -/
theorem areNames_replicate (n : Nat) : Path.AreNames (List.replicate n "a") := by
  intro m hm
  rw [List.eq_of_mem_replicate hm]
  decide

/-- A place in a chain has a path of two characters a level at most. -/
theorem utf8ByteSize_chain_le (n : Nat) :
    (Path.ofSegments (List.replicate n "a")).utf8ByteSize ≤ 2 * n := by
  induction n with
  | zero => simp
  | succ n ih =>
    cases n with
    | zero => decide
    | succ n =>
      rw [List.replicate_succ, Path.ofSegments_cons (by simp), String.utf8ByteSize_append,
        String.utf8ByteSize_append, show "a".utf8ByteSize = 1 from rfl,
        show "/".utf8ByteSize = 1 from rfl]
      omega

/-- The walk of a project in which a file lies below 493 directories. -/
def deepScope : Scope :=
  ⟨.default, ⟨[], 1000, [], false, 0⟩, .ofEntries [("p", chain 493)], ["p"], []⟩

/-- A file of the deep scope is taken while its path is short enough. -/
theorem isTaken_deepScope {names : List String} (h : Path.AreNames names)
    (hsize : (Path.ofSegments names).utf8ByteSize ≤ 1000) :
    deepScope.isTaken (Path.ofSegments names) = true := by
  have hroot : Path.AreNames deepScope.root := Path.areNames_cons.mpr ⟨by decide, by simp⟩
  rw [Scope.isTaken_iff hroot h, Location.text, ← Path.ofSegments, String.utf8ByteSize_append]
  by_cases hne : names = []
  · subst hne
    decide
  · rw [Path.ofSegments_append (by simp [deepScope]) hne, String.utf8ByteSize_append,
      String.utf8ByteSize_append, show deepScope.root = ["p"] from rfl, Path.ofSegments_singleton,
      show "p".utf8ByteSize = 1 from rfl, show "/".utf8ByteSize = 1 from rfl]
    unfold pathLimit
    omega

/-- The directories of the chain are listed, down to the last. -/
theorem isListed_deepScope {front : List String} {n : Nat} (hn : n ≤ 493)
    (hfront : front = List.replicate n "a") : deepScope.IsListed (chain 493) front := by
  subst hfront
  refine ⟨?_, isTaken_deepScope (areNames_replicate n) ?_⟩
  · have hreach := reach?_chain n (493 - n)
    rw [Nat.add_sub_cancel' hn] at hreach
    have hlist := mayList_chain (493 - n)
    unfold Entry.mayList at hlist ⊢
    rw [hreach]
    exact hlist
  · exact (utf8ByteSize_chain_le n).trans (by omega)

/-- The file far down counts, and yet the walk has no result. -/
theorem scan_deepScope :
    deepScope.disk.linkCount = 0 ∧ deepScope.disk.IsTree ∧ deepScope.StartsAt (chain 493) ∧
      1 ≤ deepScope.settings.maxDepth ∧
      deepScope.Admits (chain 493) (List.replicate 493 "a") "f" (.file [] 0) ∧
      deepScope.scan = .error .tooDeep := by
  have hdisk : deepScope.disk.IsTree := Entry.isTree_singleton (by decide) (isTree_chain 493)
  have hstart : deepScope.StartsAt (chain 493) :=
    ⟨rfl, rfl, isListed_deepScope (Nat.zero_le _) rfl⟩
  have hreach : (chain 493).reach? (List.replicate 493 "a") = some (chain 0) := reach?_chain 493 0
  have hfronts : ∀ front n back, List.replicate 493 "a" = front ++ n :: back →
      front = List.replicate front.length "a" ∧ front.length ≤ 493 := by
    intro front n back hway
    have hparts := List.replicate_eq_append_iff.mp hway
    exact ⟨hparts.2.1, by omega⟩
  have hreaches : deepScope.Reaches (chain 493) (List.replicate 493 "a") := by
    refine ⟨?_, ?_, ?_, ?_, ?_⟩
    · rw [Entry.at?_of_reach? hreach, Option.map_some, isDirectory_chain]
    · rw [List.length_replicate]
      decide
    · intro n _
      exact List.not_mem_nil
    · intro front n back _
      rfl
    · intro front n back hway
      obtain ⟨hfront, hlength⟩ := hfronts front n back hway
      exact isListed_deepScope hlength hfront
  refine ⟨?_, hdisk, hstart, by decide, ?_, ?_⟩
  · simp [deepScope, Entry.ofEntries, Entry.linkCount, Entry.linkCountOf, linkCount_chain]
  · refine ⟨hreaches, isListed_deepScope (Nat.le_refl _) rfl, ?_, rfl, by decide, rfl, ?_⟩
    · rw [Entry.reach?_append, hreach]
      rfl
    · have hname : Path.AreNames ["f"] := Path.areNames_cons.mpr ⟨by decide, by simp⟩
      have hne : List.replicate 493 "a" ≠ [] :=
        List.ne_nil_of_mem (List.mem_replicate.mpr ⟨by decide, rfl⟩)
      have hsize := utf8ByteSize_chain_le 493
      refine isTaken_deepScope (Path.areNames_append.mpr ⟨areNames_replicate _, hname⟩) ?_
      rw [Path.ofSegments_append hne (List.cons_ne_nil _ _), String.utf8ByteSize_append,
        String.utf8ByteSize_append, Path.ofSegments_singleton,
        show "f".utf8ByteSize = 1 from rfl, show "/".utf8ByteSize = 1 from rfl]
      omega
  · exact scan_of_deep hdisk hstart (by decide) hreaches (by rw [List.length_replicate]; decide)

end ProjectSurvey.Walk
