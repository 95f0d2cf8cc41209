import ProjectSurvey.Proofs.Json.RoundTrip
import ProjectSurvey.Proofs.Stages
import ProjectSurvey.Snapshot.Reader

/-!
# Values in the place of a table

A value is read part by part, and the first part that is not in order decides why it is no snapshot.
**Reading asks for the members of a value that is no table exactly if such a value is the first part
that is not in order** (`ofDatum_eq_noTable_iff`), which can happen in five places: to the top-level
directories, the nodes of the graph and the advice, to a file of the tree and to the kind of a file
(`Strays`, `Folder.Strays`, `File.IsStray`). Everywhere else what is asked for first is a part that
a value which is no table has not.

A value whose tables are where they are asked for is never read so (`ofDatum_ne_noTable`), in
whatever order its parts are read.
-/

namespace ProjectSurvey

namespace Snapshot

/-! ### Parts of values -/

/-- Whether a value is a table. -/
def IsTable (d : Datum) : Prop := ∃ members, d = .table members

variable {key : String} {d v : Datum}

/-- What has a member is a table. -/
theorem isTable_of_get? (h : d.get? key = some v) : IsTable d := by
  cases d with
  | table members => exact ⟨members, rfl⟩
  | _ => cases h

/-- A part is read when it is there. -/
theorem part_eq_ok_iff : part key d = .ok v ↔ d.get? key = some v := by
  cases d with
  | table members =>
    rw [part, Datum.get?]
    cases Assoc.get? key members <;> simp
  | _ => simp [part, Datum.get?]

/-- A part that is missing is a misfit of another kind than a missing table. -/
@[simp] theorem part_ne_noTable : part key d ≠ .error .noTable := by
  cases d with
  | table members =>
    rw [part]
    cases Assoc.get? key members <;> simp
  | _ => simp [part]

/-- A part with a default is read from any table. -/
theorem partOr_of_isTable (h : IsTable d) (usual : Datum) :
    partOr key usual d = .ok ((d.get? key).getD usual) := by
  obtain ⟨members, rfl⟩ := h
  rfl

/-- A part with a default asks for a table and nothing else. -/
theorem partOr_eq_noTable_iff {usual : Datum} :
    partOr key usual d = .error .noTable ↔ ¬ IsTable d := by
  cases d <;> simp [partOr, IsTable]

/-- So do members. -/
theorem membersOf_eq_noTable_iff : membersOf d = .error .noTable ↔ ¬ IsTable d := by
  cases d <;> simp [membersOf, IsTable]

/-- Items never ask for a table. -/
@[simp] theorem itemsOf_ne_noTable : itemsOf d ≠ .error .noTable := by
  cases d <;> simp [itemsOf]

/-- A list that has to be there asks for none. -/
@[simp] theorem listAt_ne_noTable : listAt key d ≠ .error .noTable := by
  simp [listAt, bind_eq_error_iff]

/-- A list with a default asks for a table and nothing else. -/
theorem listAtOr_eq_noTable_iff : listAtOr key d = .error .noTable ↔ ¬ IsTable d := by
  simp [listAtOr, bind_eq_error_iff, partOr_eq_noTable_iff]

/-! ### Named facts -/

namespace Facts

/-- The check of the facts asks for no table, -/
@[simp] theorem check_ne_noTable (f : Facts) (needed further : List String) :
    f.check needed further ≠ .error .noTable := by
  unfold check
  split <;> simp

/-- adding a pair asks for none, -/
theorem add_ne_noTable (f : Facts) (position : Nat) (pair : Datum) :
    f.add position pair ≠ .error .noTable := by
  simp only [add, Ne, bind_eq_error_iff, itemsOf_ne_noTable, false_or, not_exists, not_and]
  intro items _
  split <;> simp

/-- nor does adding any number, -/
theorem ofPairs_ne_noTable (f : Facts) (position : Nat) (pairs : List Datum) :
    f.ofPairs position pairs ≠ .error .noTable := by
  induction pairs generalizing f position with
  | nil => simp [ofPairs]
  | cons pair pairs ih => simp [ofPairs, bind_eq_error_iff, add_ne_noTable, ih]

/-- and so the facts of a datum ask for none. -/
@[simp] theorem ofDatum_ne_noTable (d : Datum) : Facts.ofDatum d ≠ .error .noTable := by
  cases d <;> simp [Facts.ofDatum, bind_eq_error_iff, ofPairs_ne_noTable]

/-- A list among the facts asks for no table. -/
@[simp] theorem listOr_ne_noTable (f : Facts) (key : String) :
    f.listOr key ≠ .error .noTable := itemsOf_ne_noTable

end Facts

/-- Facts that are checked ask for none. -/
theorem factsOf_ne_noTable (needed further : List String) (d : Datum) :
    factsOf needed further d ≠ .error .noTable := by
  cases d <;> simp [factsOf, bind_eq_error_iff]

/-- An edge asks for no table, -/
theorem Edge.ofDatum_ne_noTable (d : Datum) : Edge.ofDatum d ≠ .error .noTable := by
  simp [Edge.ofDatum, bind_eq_error_iff, factsOf_ne_noTable]

/-- a finding for none, -/
theorem findingOf_ne_noTable (d : Datum) : findingOf d ≠ .error .noTable := by
  simp [findingOf, bind_eq_error_iff, factsOf_ne_noTable]

/-- and the figures for none. -/
theorem Figures.ofDatum_ne_noTable (d : Datum) : Figures.ofDatum d ≠ .error .noTable := by
  simp [Figures.ofDatum, bind_eq_error_iff, factsOf_ne_noTable]

/-- The recommendations ask for a table and nothing else. -/
theorem Counsel.ofDatum_eq_noTable_iff :
    Counsel.ofDatum d = .error .noTable ↔ ¬ IsTable d := by
  simp [Counsel.ofDatum, bind_eq_error_iff, membersOf_eq_noTable_iff]

/-! ### Parts that are asked for one by one -/

/-- A directory is asked first for a part that it must have. -/
theorem Area.ofDatum_ne_noTable (d : Datum) : Area.ofDatum d ≠ .error .noTable := by
  simp only [Area.ofDatum, Ne, bind_eq_error_iff, part_ne_noTable, false_or, not_exists, not_and,
    part_eq_ok_iff, listAtOr_eq_noTable_iff]
  intro purpose hpurpose
  simp [isTable_of_get? hpurpose]

/-- So is a node. -/
theorem Node.ofDatum_ne_noTable (d : Datum) : Node.ofDatum d ≠ .error .noTable := by
  simp only [Node.ofDatum, Ne, bind_eq_error_iff, part_ne_noTable, false_or, not_exists, not_and,
    part_eq_ok_iff, listAtOr_eq_noTable_iff, partOr_eq_noTable_iff]
  intro kind hkind
  simp [isTable_of_get? hkind]

/-- The packages ask for no table. -/
theorem Packages.ofDatum_ne_noTable (d : Datum) : Packages.ofDatum d ≠ .error .noTable := by
  simp [Packages.ofDatum, bind_eq_error_iff]

/-- The outline asks for one when its directories are there and are none. -/
theorem Outline.ofDatum_eq_noTable_iff :
    Outline.ofDatum d = .error .noTable ↔
      ∃ areas, d.get? "directories" = some areas ∧ ¬ IsTable areas := by
  simp only [Outline.ofDatum, bind_eq_error_iff, part_eq_ok_iff, membersOf_eq_noTable_iff,
    mapM_snd_ne_error Area.ofDatum_ne_noTable, part_ne_noTable, listAt_ne_noTable, reduceCtorEq,
    and_false, exists_const, or_false, false_or]

/-! ### Files -/

namespace File

/-- What is asked for the kind of a file: no kind and one that counts as false are an empty one. -/
def kindOf (d : Datum) : Datum :=
  if ((d.get? "kind").getD .null).truthy then (d.get? "kind").getD .null else .table []

/-- Whether a value in the place of a file is none because it is no table, or because what stands
for its kind is no table though it counts as true. -/
def IsStray (d : Datum) : Prop :=
  ¬ IsTable d ∨ (∀ key ∈ ["path", "size", "extension"], (d.get? key).isSome) ∧
    ∃ kind, d.get? "kind" = some kind ∧ kind.truthy = true ∧ ¬ IsTable kind

/-- The kind of a file is no table when it is there, is not empty and is none. -/
theorem not_isTable_kindOf_iff (d : Datum) : ¬ IsTable (kindOf d) ↔
    ∃ kind, d.get? "kind" = some kind ∧ kind.truthy = true ∧ ¬ IsTable kind := by
  unfold kindOf
  cases hkind : d.get? "kind" with
  | none => simp [Datum.truthy, IsTable]
  | some kind =>
    by_cases htruthy : kind.truthy = true
    · simp [htruthy]
    · simp [htruthy, IsTable]

/-- A file asks for a table exactly when it strays. -/
theorem ofDatum_eq_noTable_iff : File.ofDatum d = .error .noTable ↔ IsStray d := by
  by_cases hd : IsTable d
  · simp only [File.ofDatum, partOr_of_isTable hd, bind_eq_error_iff, part_ne_noTable,
      part_eq_ok_iff, false_or, reduceCtorEq, Except.ok.injEq, exists_eq_left', ← kindOf.eq_def]
    by_cases hkind : IsTable (kindOf d)
    · have hfree := mt (not_isTable_kindOf_iff d).mpr (not_not_intro hkind)
      simp [IsStray, hd, hfree, hkind, partOr_of_isTable hkind, listAtOr_eq_noTable_iff]
    · have hstray := (not_isTable_kindOf_iff d).mp hkind
      simp [IsStray, hd, hstray, hkind, partOr_eq_noTable_iff, Option.isSome_iff_exists]
  · simp [File.ofDatum, bind_eq_error_iff, partOr_eq_noTable_iff, IsStray, hd]

end File

/-! ### Directories -/

namespace Folder

/-- A part nests less deeply than the whole. -/
theorem depth_lt_of_get? (h : d.get? key = some v) : v.depth < d.depth := by
  obtain ⟨members, rfl⟩ := isTable_of_get? h
  exact Nat.lt_succ_of_le
    ((Json.depthOfMembers_le_iff members _).mp (Nat.le_refl _) _ (Assoc.mem_of_get? h))

/-- What is gone through nests no more deeply than the value. -/
theorem depth_le_of_itemsOf {items : List Datum} (h : itemsOf v = .ok items) {x : Datum}
    (hx : x ∈ items) : x.depth ≤ v.depth := by
  cases v with
  | list ds =>
    obtain rfl : ds = items := Except.ok.inj h
    exact Nat.le_of_lt (Json.depth_lt_of_mem hx)
  | text s =>
    obtain rfl := Except.ok.inj h
    obtain ⟨c, -, rfl⟩ := List.mem_map.mp hx
    exact Nat.zero_le _
  | table members =>
    obtain rfl := Except.ok.inj h
    obtain ⟨p, -, rfl⟩ := List.mem_map.mp hx
    exact Nat.zero_le _
  | _ => cases h

/-- What is in a list of a table is less deep than the table. -/
theorem depth_lt_of_listAtOr {items : List Datum} (h : listAtOr key d = .ok items) {x : Datum}
    (hx : x ∈ items) : x.depth < d.depth := by
  have hd : IsTable d := by
    by_contra hd
    rw [listAtOr_eq_noTable_iff.mpr hd] at h
    cases h
  unfold listAtOr at h
  rw [partOr_of_isTable hd] at h
  cases hv : d.get? key with
  | none =>
    rw [hv] at h
    obtain rfl : [] = items := Except.ok.inj h
    cases hx
  | some v =>
    rw [hv] at h
    exact Nat.lt_of_le_of_lt (depth_le_of_itemsOf h hx) (depth_lt_of_get? hv)

/-- One level of a directory depends on what the levels below make of its directories. -/
theorem ofParts_congr {below below' : Datum → Reading Folder}
    (h : ∀ children, listAtOr "directories" d = .ok children → ∀ c ∈ children, below c = below' c) :
    ofParts below d = ofParts below' d := by
  unfold ofParts
  cases hchildren : listAtOr "directories" d with
  | error m => rfl
  | ok children =>
    have hsame : children.mapM below = children.mapM below' := mapM_congr (h children hchildren)
    simp only [bind, Except.bind, hsame]

/-- One more level than containers nest makes no difference. -/
theorem ofDatumWithin_succ {levels : Nat} (h : d.depth ≤ levels) :
    ofDatumWithin (levels + 1) d = ofDatumWithin levels d := by
  induction levels generalizing d with
  | zero =>
    apply ofParts_congr
    intro children hchildren c hc
    exact absurd (depth_lt_of_listAtOr hchildren hc) (by omega)
  | succ levels ih =>
    apply ofParts_congr
    intro children hchildren c hc
    apply ih
    have hdepth := depth_lt_of_listAtOr hchildren hc
    omega

/-- With levels enough for its depth a folder is read in full. -/
theorem ofDatumWithin_eq {levels : Nat} (h : d.depth ≤ levels) :
    ofDatumWithin levels d = Folder.ofDatum d := by
  induction h with
  | refl => rfl
  | step h ih => rw [ofDatumWithin_succ h, ih]

/-- **A directory is read by reading the directories in it.** -/
theorem ofDatum_eq (d : Datum) : Folder.ofDatum d = ofParts Folder.ofDatum d := by
  rw [← ofDatumWithin_eq (Nat.le_succ d.depth)]
  apply ofParts_congr
  intro children hchildren c hc
  exact ofDatumWithin_eq (Nat.le_of_lt (depth_lt_of_listAtOr hchildren hc))

/-- Whether a value has the parts with which a directory begins. -/
def HasHead (d : Datum) : Prop := ∀ key ∈ ["name", "path", "purpose"], (d.get? key).isSome

/-- Whether a value in the place of a directory is none because of a file that is none for want of a
table: in a directory before which all others are in order, or in the directory itself. -/
inductive Strays : Datum → Prop where
  /-- A directory in it is the first part that is not in order. -/
  | inside {d child : Datum} {before after : List Datum} : HasHead d →
      listAtOr "directories" d = .ok (before ++ child :: after) →
      (∀ c ∈ before, ∃ f, Folder.ofDatum c = .ok f) → Strays child → Strays d
  /-- A file in it is the first part that is not in order. -/
  | file {d x : Datum} {children before after : List Datum} : HasHead d →
      listAtOr "directories" d = .ok children → (∀ c ∈ children, ∃ f, Folder.ofDatum c = .ok f) →
      listAtOr "files" d = .ok (before ++ x :: after) →
      (∀ y ∈ before, ∃ f, File.ofDatum y = .ok f) → File.IsStray x → Strays d

/-- A folder asks for a table when one of its children does, or, these read, one of its files
does. -/
theorem ofParts_eq_noTable_iff {below : Datum → Reading Folder} :
    ofParts below d = .error .noTable ↔ HasHead d ∧ ∃ children,
      listAtOr "directories" d = .ok children ∧ (children.mapM below = .error .noTable ∨
        (∃ folders, children.mapM below = .ok folders) ∧ ∃ files, listAtOr "files" d = .ok files ∧
          files.mapM File.ofDatum = .error .noTable) := by
  simp only [ofParts, bind_eq_error_iff, part_ne_noTable, part_eq_ok_iff, false_or]
  constructor
  · rintro ⟨name, hname, path, hpath, purpose, hpurpose, h⟩
    have hd := isTable_of_get? hname
    refine ⟨by simp [HasHead, hname, hpath, hpurpose], ?_⟩
    simpa [listAtOr_eq_noTable_iff, partOr_of_isTable, hd] using h
  · rintro ⟨hhead, h⟩
    obtain ⟨⟨name, hname⟩, ⟨path, hpath⟩, purpose, hpurpose⟩ : (∃ v, d.get? "name" = some v) ∧
        (∃ v, d.get? "path" = some v) ∧ ∃ v, d.get? "purpose" = some v := by
      simpa [HasHead, Option.isSome_iff_exists] using hhead
    have hd := isTable_of_get? hname
    refine ⟨name, hname, path, hpath, purpose, hpurpose, ?_⟩
    simpa [listAtOr_eq_noTable_iff, partOr_of_isTable, hd] using h

/-- A folder that asks for a table strays. -/
theorem strays_of_ofDatum {d : Datum} (h : Folder.ofDatum d = .error .noTable) : Strays d := by
  rw [ofDatum_eq, ofParts_eq_noTable_iff] at h
  obtain ⟨hhead, children, hchildren, h | ⟨hfolders, files, hfiles, h⟩⟩ := h
  · obtain ⟨before, child, after, rfl, hbefore, hchild⟩ := mapM_eq_error_iff.mp h
    exact .inside hhead hchildren hbefore (strays_of_ofDatum hchild)
  · obtain ⟨before, x, after, rfl, hbefore, hx⟩ := mapM_eq_error_iff.mp h
    exact .file hhead hchildren (exists_mapM_eq_ok_iff.mp hfolders) hfiles hbefore
      (File.ofDatum_eq_noTable_iff.mp hx)
termination_by d.depth
decreasing_by exact depth_lt_of_listAtOr hchildren (by simp)

/-- A folder asks for a table exactly when it strays. -/
theorem ofDatum_eq_noTable_iff : Folder.ofDatum d = .error .noTable ↔ Strays d := by
  refine ⟨strays_of_ofDatum, fun h => ?_⟩
  induction h with
  | inside hhead hchildren hbefore _ ih =>
    rw [ofDatum_eq, ofParts_eq_noTable_iff]
    exact ⟨hhead, _, hchildren, .inl (mapM_eq_error_iff.mpr ⟨_, _, _, rfl, hbefore, ih⟩)⟩
  | file hhead hchildren hfolders hfiles hbefore hx =>
    rw [ofDatum_eq, ofParts_eq_noTable_iff]
    refine ⟨hhead, _, hchildren, .inr ⟨exists_mapM_eq_ok_iff.mpr hfolders, _, hfiles, ?_⟩⟩
    exact mapM_eq_error_iff.mpr ⟨_, _, _, rfl, hbefore, File.ofDatum_eq_noTable_iff.mpr hx⟩

/-- Whether a file is in a directory or in one below it. -/
inductive HasFile : Datum → Datum → Prop where
  /-- It is in the directory. -/
  | here {d x : Datum} {files : List Datum} : listAtOr "files" d = .ok files → x ∈ files →
      HasFile d x
  /-- It is in one of the directories in it. -/
  | inside {d c x : Datum} {children : List Datum} : listAtOr "directories" d = .ok children →
      c ∈ children → HasFile c x → HasFile d x

/-- What strays has a file in it that does. -/
theorem Strays.exists_file (h : Strays d) : ∃ x, HasFile d x ∧ File.IsStray x := by
  induction h with
  | inside _ hchildren _ _ ih =>
    obtain ⟨x, hx, hstray⟩ := ih
    exact ⟨x, .inside hchildren (by simp) hx, hstray⟩
  | file _ _ _ hfiles _ hstray => exact ⟨_, .here hfiles (by simp), hstray⟩

end Folder

/-! ### The whole -/

/-- Whether some facts are in order: they are those of a part, what is listed in them can be gone
through, and they are the ones that are known. -/
def HasFacts (key : String) (lists needed further : List String) (d : Datum) : Prop :=
  ∃ v f, d.get? key = some v ∧ Facts.ofDatum v = .ok f ∧
    (∀ name ∈ lists, ∃ items, f.listOr name = .ok items) ∧ f.check needed further = .ok ()

/-- Whether what a snapshot begins with is in order, and what the parts are that come after it. -/
structure HasFront (d tree outline packages graph quality advice : Datum) : Prop where
  /-- There is a header, -/
  header : HasFacts "metadata" ["skipped"] ["name", "root", "analyzed_at", "version"] ["skipped"] d
  /-- a profile, -/
  profile : HasFacts "project" ["frameworks", "manifests"] []
    ["type", "language", "frameworks", "build_tool", "package_manager", "manifests"] d
  /-- a structure, -/
  outline : d.get? "structure" = some outline
  /-- packages, -/
  packages : d.get? "dependencies" = some packages
  /-- a graph, -/
  graph : d.get? "graph" = some graph
  /-- a verdict, -/
  quality : d.get? "quality" = some quality
  /-- advice -/
  advice : d.get? "recommendations" = some advice
  /-- and a tree. -/
  tree : d.get? "tree" = some tree

/-- Whether the items of a part are in order. -/
def HasItems {α : Type} (key : String) (read : Datum → Reading α) (d : Datum) : Prop :=
  ∃ items, listAt key d = .ok items ∧ ∀ x ∈ items, ∃ a, read x = .ok a

/-- Whether what lies between the packages and the advice is in order. -/
structure HasMiddle (d graph quality : Datum) : Prop where
  /-- The nodes are a table of nodes, -/
  nodes : ∃ nodes members, graph.get? "nodes" = some nodes ∧ membersOf nodes = .ok members ∧
    ∀ p ∈ members, ∃ n, Node.ofDatum p.2 = .ok n
  /-- the references are references, -/
  edges : HasItems "edges" Edge.ofDatum graph
  /-- there are metrics, -/
  figures : ∃ v, d.get? "metrics" = some v ∧ ∃ f, Figures.ofDatum v = .ok f
  /-- a score, -/
  score : ∃ v, quality.get? "score" = some v
  /-- findings, -/
  findings : HasItems "findings" findingOf quality
  /-- suggestions -/
  suggestions : ∃ items, listAt "suggestions" quality = .ok items
  /-- and findings about security. -/
  security : HasItems "security" findingOf d

/-- Whether the first part of a value that is not in order is one in the place of a table. -/
inductive Strays (d : Datum) : Prop where
  /-- It is in the tree, -/
  | tree {tree outline packages graph quality advice : Datum} :
      HasFront d tree outline packages graph quality advice → Folder.Strays tree → Strays d
  /-- it stands for the top-level directories, -/
  | areas {tree outline packages graph quality advice areas : Datum} :
      HasFront d tree outline packages graph quality advice →
      (∃ f, Folder.ofDatum tree = .ok f) → outline.get? "directories" = some areas →
      ¬ IsTable areas → Strays d
  /-- for the nodes of the graph, -/
  | nodes {tree outline packages graph quality advice nodes : Datum} :
      HasFront d tree outline packages graph quality advice →
      (∃ f, Folder.ofDatum tree = .ok f) → (∃ o, Outline.ofDatum outline = .ok o) →
      (∃ p, Packages.ofDatum packages = .ok p) → graph.get? "nodes" = some nodes →
      ¬ IsTable nodes → Strays d
  /-- or for the advice. -/
  | advice {tree outline packages graph quality advice : Datum} :
      HasFront d tree outline packages graph quality advice →
      (∃ f, Folder.ofDatum tree = .ok f) → (∃ o, Outline.ofDatum outline = .ok o) →
      (∃ p, Packages.ofDatum packages = .ok p) → HasMiddle d graph quality →
      ¬ IsTable advice → Strays d

/-- What a snapshot asks for a table behind was read before. -/
theorem exists_front (h : ofDatum d = .error .noTable) :
    ∃ tree outline packages graph quality advice,
      HasFront d tree outline packages graph quality advice := by
  simp only [ofDatum, bind_eq_error_iff, part_ne_noTable, part_eq_ok_iff, false_or,
    Facts.ofDatum_ne_noTable, Facts.listOr_ne_noTable, Facts.check_ne_noTable] at h
  obtain ⟨metadata, hmetadata, header, hheader, skipped, hskipped, project, hproject, profile,
    hprofile, frameworks, hframeworks, manifests, hmanifests, outline, houtline, packages,
    hpackages, graph, hgraph, quality, hquality, advice, hadvice, ⟨⟩, hknown, ⟨⟩, hknown', tree,
    htree, -⟩ := h
  refine ⟨tree, outline, packages, graph, quality, advice, ⟨metadata, header, hmetadata, hheader,
    ?_, hknown⟩, ⟨project, profile, hproject, hprofile, ?_, hknown'⟩, houtline, hpackages, hgraph,
    hquality, hadvice, htree⟩
  · simpa using ⟨skipped, hskipped⟩
  · simpa using ⟨⟨frameworks, hframeworks⟩, manifests, hmanifests⟩

/-- What comes of a value whose front is in order. -/
theorem ofDatum_eq_noTable_iff_of_front {tree outline packages graph quality advice : Datum}
    (h : HasFront d tree outline packages graph quality advice) :
    ofDatum d = .error .noTable ↔ Folder.Strays tree ∨ (∃ f, Folder.ofDatum tree = .ok f) ∧
      ((∃ areas, outline.get? "directories" = some areas ∧ ¬ IsTable areas) ∨
        (∃ o, Outline.ofDatum outline = .ok o) ∧ (∃ p, Packages.ofDatum packages = .ok p) ∧
          ((∃ nodes, graph.get? "nodes" = some nodes ∧ ¬ IsTable nodes) ∨
            HasMiddle d graph quality ∧ ¬ IsTable advice)) := by
  obtain ⟨metadata, header, hmetadata, hheader, hskipped, hknown⟩ := h.header
  obtain ⟨project, profile, hproject, hprofile, hlists, hknown'⟩ := h.profile
  obtain ⟨skipped, hskipped⟩ := hskipped "skipped" (by simp)
  obtain ⟨frameworks, hframeworks⟩ := hlists "frameworks" (by simp)
  obtain ⟨manifests, hmanifests⟩ := hlists "manifests" (by simp)
  -- what is in order does not fail, and of the rest only three readers ask for a table
  simp only [ofDatum, bind_eq_error_iff, part_ne_noTable, part_eq_ok_iff, false_or, h.outline,
    h.packages, h.graph, h.quality, h.advice, h.tree, hmetadata, hheader, hskipped, hknown,
    hproject, hprofile, hframeworks, hmanifests, hknown', Folder.ofDatum_eq_noTable_iff,
    Outline.ofDatum_eq_noTable_iff, Packages.ofDatum_ne_noTable, membersOf_eq_noTable_iff,
    mapM_snd_ne_error Node.ofDatum_ne_noTable, exists_bind_pure_eq_ok_iff, listAt_ne_noTable,
    mapM_ne_error Edge.ofDatum_ne_noTable, mapM_ne_error findingOf_ne_noTable,
    Figures.ofDatum_ne_noTable, Counsel.ofDatum_eq_noTable_iff, Option.some.injEq, Except.ok.injEq,
    exists_eq', exists_eq_left', reduceCtorEq, and_false, exists_const, true_and, exists_and_right,
    exists_mapM_eq_ok_iff, exists_false, or_false]
  apply or_congr_right
  apply and_congr_right'
  apply or_congr_right
  apply and_congr_right'
  apply and_congr_right'
  constructor
  · rintro ⟨nodes, hnodes, htable | ⟨members, hmembers, hread, edges, hedges, hedge, metrics,
      hmetrics, hfigures, hscore, findings, hfindings, hfinding, hsuggestions, security, hsecurity,
      hfound, hadvice⟩⟩
    · exact .inl ⟨nodes, hnodes, htable⟩
    · exact .inr ⟨⟨⟨nodes, members, hnodes, hmembers, hread⟩, ⟨edges, hedges, hedge⟩,
        ⟨metrics, hmetrics, hfigures⟩, hscore, ⟨findings, hfindings, hfinding⟩, hsuggestions,
        security, hsecurity, hfound⟩, hadvice⟩
  · rintro (⟨nodes, hnodes, htable⟩ | ⟨hmiddle, hadvice⟩)
    · exact ⟨nodes, hnodes, .inl htable⟩
    · obtain ⟨nodes, members, hnodes, hmembers, hread⟩ := hmiddle.nodes
      obtain ⟨edges, hedges, hedge⟩ := hmiddle.edges
      obtain ⟨metrics, hmetrics, hfigures⟩ := hmiddle.figures
      obtain ⟨findings, hfindings, hfinding⟩ := hmiddle.findings
      obtain ⟨security, hsecurity, hfound⟩ := hmiddle.security
      exact ⟨nodes, hnodes, .inr ⟨members, hmembers, hread, edges, hedges, hedge, metrics, hmetrics,
        hfigures, hmiddle.score, findings, hfindings, hfinding, hmiddle.suggestions, security,
        hsecurity, hfound, hadvice⟩⟩

/-- **The members of a value that is no table are asked for exactly if such a value is the first
part that is not in order.** -/
theorem ofDatum_eq_noTable_iff : ofDatum d = .error .noTable ↔ Strays d := by
  constructor
  · intro h
    obtain ⟨tree, outline, packages, graph, quality, advice, hfront⟩ := exists_front h
    rcases (ofDatum_eq_noTable_iff_of_front hfront).mp h with
      h | ⟨htree, ⟨areas, hareas, h⟩ | ⟨houtline, hpackages, ⟨nodes, hnodes, h⟩ | ⟨hmiddle, h⟩⟩⟩
    · exact .tree hfront h
    · exact .areas hfront htree hareas h
    · exact .nodes hfront htree houtline hpackages hnodes h
    · exact .advice hfront htree houtline hpackages hmiddle h
  · rintro (⟨hfront, h⟩ | ⟨hfront, htree, hareas, h⟩ |
      ⟨hfront, htree, houtline, hpackages, hnodes, h⟩ |
      ⟨hfront, htree, houtline, hpackages, hmiddle, h⟩)
    all_goals apply (ofDatum_eq_noTable_iff_of_front hfront).mpr
    · exact .inl h
    · exact .inr ⟨htree, .inl ⟨_, hareas, h⟩⟩
    · exact .inr ⟨htree, .inr ⟨houtline, hpackages, .inl ⟨_, hnodes, h⟩⟩⟩
    · exact .inr ⟨htree, .inr ⟨houtline, hpackages, .inr ⟨hmiddle, h⟩⟩⟩

/-! ### Values with tables where they are asked for -/

/-- Whether tables stand wherever the members of a table are asked for. -/
structure IsTabled (d : Datum) : Prop where
  /-- The top-level directories are a table. -/
  areas : ∀ outline areas, d.get? "structure" = some outline →
    outline.get? "directories" = some areas → IsTable areas
  /-- The nodes of the graph are a table. -/
  nodes : ∀ graph nodes, d.get? "graph" = some graph → graph.get? "nodes" = some nodes →
    IsTable nodes
  /-- The advice is a table. -/
  advice : ∀ advice, d.get? "recommendations" = some advice → IsTable advice
  /-- Every file of the tree is a table, and its kind is one or counts as false. -/
  files : ∀ tree x, d.get? "tree" = some tree → Folder.HasFile tree x →
    IsTable x ∧ ∀ kind, x.get? "kind" = some kind → kind.truthy = true → IsTable kind

/-- Where everything is a table nothing strays. -/
theorem IsTabled.not_strays (h : IsTabled d) : ¬ Strays d := by
  rintro (⟨hfront, hstray⟩ | ⟨hfront, -, hareas, hstray⟩ | ⟨hfront, -, -, -, hnodes, hstray⟩ |
    ⟨hfront, -, -, -, -, hstray⟩)
  · obtain ⟨x, hx, hstray⟩ := hstray.exists_file
    obtain ⟨htable, hkinds⟩ := h.files _ x hfront.tree hx
    rcases hstray with hstray | ⟨-, kind, hkind, htruthy, hstray⟩
    · exact hstray htable
    · exact hstray (hkinds kind hkind htruthy)
  · exact hstray (h.areas _ _ hfront.outline hareas)
  · exact hstray (h.nodes _ _ hfront.graph hnodes)
  · exact hstray (h.advice _ hfront.advice)

/-- **A value with tables where they are asked for is a snapshot or lacks something.** -/
theorem IsTabled.ofDatum_ne_noTable (h : IsTabled d) : ofDatum d ≠ .error .noTable :=
  mt ofDatum_eq_noTable_iff.mp h.not_strays

end Snapshot

end ProjectSurvey
