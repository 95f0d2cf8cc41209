import ProjectSurvey.Proofs.Evidence.Kept
import ProjectSurvey.Snapshot.Load

/-!
# Reading snapshots that were laid out

A snapshot is laid out as one value, and files hold that value with the members of its tables
sorted.
**Reading the sorted value gives the snapshot back, its mappings in the order of their keys**
(`ofDatum_sortKeys`). Every table but the mappings is a record: its keys are known, none comes
twice, and sorting changes nothing that is asked of it (`IsRecord`). A snapshot tells surveys apart,
so that nothing is lost on the way (`eq_of_ofSurvey`).
-/

namespace ProjectSurvey

namespace Snapshot

open Json

/-! ### Records -/

/-- Whether a value is a table with the given keys, none of which comes twice. -/
def IsRecord (keys : List String) (d : Datum) : Prop :=
  ∃ kvs, d = .table kvs ∧ kvs.map Prod.fst = keys ∧ keys.Nodup

namespace IsRecord

variable {keys : List String} {d v : Datum} {ds : List Datum}

/-- The keys of a record are distinct. -/
theorem nodup (h : IsRecord keys d) : keys.Nodup := by
  obtain ⟨kvs, -, -, hnodup⟩ := h
  exact hnodup

/-- A record with sorted keys has the same members, each sorted. -/
theorem exists_members (h : IsRecord keys d) : ∃ ms, sortKeys d = .table ms ∧
    (ms.map Prod.fst).Perm keys ∧
    ∀ key, Assoc.get? key ms = (d.get? key).map sortKeys := by
  obtain ⟨kvs, rfl, rfl, hnodup⟩ := h
  rw [sortKeys]
  exact ⟨_, rfl, keys_sorted_perm kvs, get?_sorted hnodup⟩

/-- A member of a record is read with its keys sorted. -/
theorem part (h : IsRecord keys d) (key : String) (hv : d.get? key = some v) :
    part key (sortKeys d) = .ok (sortKeys v) := by
  obtain ⟨ms, hms, -, hget⟩ := h.exists_members
  rw [hms, Snapshot.part]
  simp only [hget, hv, Option.map_some]

/-- So is a member with a default. -/
theorem partOr (h : IsRecord keys d) (key : String) (hv : d.get? key = some v) (usual : Datum) :
    partOr key usual (sortKeys d) = .ok (sortKeys v) := by
  obtain ⟨ms, hms, -, hget⟩ := h.exists_members
  rw [hms, Snapshot.partOr, hget, hv, Option.map_some, Option.getD_some]

/-- The items of a list are read with their keys sorted. -/
theorem itemsOf_sortKeys (ds : List Datum) :
    itemsOf (sortKeys (.list ds)) = .ok (ds.map sortKeys) := by
  rw [sortKeys, sortItems_eq_map]
  rfl

/-- A list in a record is read with the keys of its items sorted. -/
theorem listAt (h : IsRecord keys d) (key : String) (hv : d.get? key = some (.list ds)) :
    listAt key (sortKeys d) = .ok (ds.map sortKeys) := by
  unfold Snapshot.listAt
  rw [h.part key hv]
  exact itemsOf_sortKeys ds

/-- So is a list with a default. -/
theorem listAtOr (h : IsRecord keys d) (key : String) (hv : d.get? key = some (.list ds)) :
    listAtOr key (sortKeys d) = .ok (ds.map sortKeys) := by
  unfold Snapshot.listAtOr
  rw [h.partOr key hv]
  exact itemsOf_sortKeys ds

/-- The facts of a record are those that were laid out, and it passes for what has its keys. -/
theorem exists_facts (h : IsRecord keys d) : ∃ ms, sortKeys d = .table ms ∧
    (∀ key v usual, d.get? key = some v → Facts.getOr ⟨ms, false⟩ key usual = sortKeys v) ∧
    ∀ needed further : List String,
      keys.all (fun k => needed.contains k || further.contains k) = true →
      needed.all (fun k => keys.contains k) = true →
      Facts.check ⟨ms, false⟩ needed further = .ok () := by
  obtain ⟨ms, hms, hperm, hget⟩ := h.exists_members
  refine ⟨ms, hms, ?_, ?_⟩
  · intro key v usual hv
    rw [Facts.getOr, hget, hv, Option.map_some, Option.getD_some]
  · intro needed further hknown hneeded
    unfold Facts.check
    refine if_neg ?_
    rw [Bool.or_eq_true, Bool.or_eq_true, not_or, not_or]
    refine ⟨⟨Bool.false_ne_true, ?_⟩, ?_⟩
    · rw [Bool.not_eq_true, List.any_eq_false]
      intro p hp
      have hkey := List.all_eq_true.mp hknown p.1 (hperm.mem_iff.mp (List.mem_map_of_mem hp))
      rw [Bool.or_eq_true, List.contains_iff_mem, List.contains_iff_mem] at hkey
      simpa [← or_iff_not_imp_left] using hkey
    · rw [Bool.not_eq_true, List.any_eq_false]
      intro k hk
      have hkey := List.contains_iff_mem.mp (List.all_eq_true.mp hneeded k hk)
      have hhas : Assoc.has k ms = true :=
        (Assoc.has_iff_mem_keys k ms).mpr (hperm.mem_iff.mpr hkey)
      simp [hhas]

end IsRecord

/-- Texts have no keys to sort. -/
theorem map_sortKeys_texts (ss : List String) : (texts ss).map sortKeys = texts ss := by
  unfold texts
  rw [List.map_map]
  rfl

/-- Sorting after a map is a map that sorts. -/
theorem map_sortKeys_map {α : Type} (f : α → Datum) (items : List α) :
    (items.map f).map sortKeys = items.map fun a => sortKeys (f a) := List.map_map

/-- A text that may be missing has no keys to sort. -/
theorem sortKeys_ofText? (s : Option String) : sortKeys (Datum.ofText? s) = Datum.ofText? s := by
  cases s <;> rfl

/-! ### Files and directories -/

namespace File

/-- A file is a record. -/
theorem isRecord_toDatum (f : File) :
    IsRecord ["path", "size", "extension", "kind", "modified", "mtime_ns"] f.toDatum :=
  ⟨_, rfl, rfl, by decide⟩

/-- The kind of a file as a value. -/
def kindDatum (f : File) : Datum :=
  .table [("language", f.language), ("framework_hint", f.frameworkHint),
    ("purpose_tags", .list f.purposeTags)]

/-- So is its kind. -/
theorem isRecord_kindDatum (f : File) :
    IsRecord ["language", "framework_hint", "purpose_tags"] f.kindDatum :=
  ⟨_, rfl, rfl, by decide⟩

/-- A file is read back from its record. -/
theorem ofDatum_sortKeys (r : FileRecord) :
    File.ofDatum (sortKeys (File.ofRecord r).toDatum) = .ok (File.ofRecord r) := by
  have h := (File.ofRecord r).isRecord_toDatum
  have hkind := (File.ofRecord r).isRecord_kindDatum
  have htruthy : (sortKeys (File.ofRecord r).kindDatum).truthy = true := by
    obtain ⟨ms, hms, hperm, -⟩ := hkind.exists_members
    rw [hms, Datum.truthy]
    cases ms with
    | nil => exact absurd hperm.length_eq (by decide)
    | cons p ms => rfl
  have hpart : partOr "kind" .null (sortKeys (File.ofRecord r).toDatum) =
      .ok (sortKeys (File.ofRecord r).kindDatum) := h.partOr "kind" rfl .null
  unfold File.ofDatum
  rw [hpart, h.part "path" rfl, h.part "size" rfl, h.part "extension" rfl, h.part "modified" rfl,
    h.partOr "mtime_ns" rfl]
  dsimp only [bind, Except.bind]
  rw [htruthy, if_pos rfl, hkind.partOr "language" rfl, hkind.partOr "framework_hint" rfl,
    hkind.listAtOr "purpose_tags" rfl]
  show Except.ok (File.mk _ _ _ _ (sortKeys (Datum.ofText? r.kind.frameworkHint))
    ((texts r.kind.purposeTags).map sortKeys) _ _) = _
  rw [sortKeys_ofText?, map_sortKeys_texts]
  rfl

end File

namespace Folder

/-- Directories become folders one by one. -/
theorem ofDirectories_eq_map (ds : List Directory) : ofDirectories ds = ds.map ofDirectory := by
  induction ds with
  | nil => rfl
  | cons d ds ih => rw [ofDirectories, ih, List.map_cons]

/-- Folders become data one by one. -/
theorem toData_eq_map (ds : List Folder) : toData ds = ds.map toDatum := by
  induction ds with
  | nil => rfl
  | cons d ds ih => rw [toData, ih, List.map_cons]

/-- A folder is a record. -/
theorem isRecord_toDatum (f : Folder) :
    IsRecord ["name", "path", "purpose", "directories", "files", "file_count", "size", "readable"]
      f.toDatum := by
  cases f
  rw [toDatum]
  exact ⟨_, rfl, rfl, by decide⟩

/-- The record of a folder holds those below it. -/
theorem get?_directories (name path purpose : String) (ds : List Directory) (fs : List FileRecord)
    (count size : Nat) (readable : Bool) :
    (ofDirectory (.node name path purpose ds fs count size readable)).toDatum.get? "directories" =
      some (.list (ds.map fun d => (ofDirectory d).toDatum)) := by
  rw [ofDirectory, toDatum, toData_eq_map, ofDirectories_eq_map, List.map_map]
  rfl

/-- One level of a directory is read if the levels below are. -/
theorem ofParts_sortKeys {below : Datum → Reading Folder} (name path purpose : String)
    (ds : List Directory) (fs : List FileRecord) (count size : Nat) (readable : Bool)
    (hbelow : ∀ d ∈ ds, below (sortKeys (ofDirectory d).toDatum) = .ok (ofDirectory d)) :
    ofParts below
        (sortKeys (ofDirectory (.node name path purpose ds fs count size readable)).toDatum) =
      .ok (ofDirectory (.node name path purpose ds fs count size readable)) := by
  have h := (ofDirectory (.node name path purpose ds fs count size readable)).isRecord_toDatum
  have hget := get?_directories name path purpose ds fs count size readable
  have hfiles : (ofDirectory (.node name path purpose ds fs count size readable)).toDatum.get?
      "files" = some (.list (fs.map fun r => (File.ofRecord r).toDatum)) := by
    rw [ofDirectory, toDatum, List.map_map]
    rfl
  have hdirectories : ((ds.map fun d => (ofDirectory d).toDatum).map sortKeys).mapM below =
      .ok (ds.map ofDirectory) := by
    rw [map_sortKeys_map]
    exact mapM_map_eq_ok hbelow
  have hrecords : ((fs.map fun r => (File.ofRecord r).toDatum).map sortKeys).mapM File.ofDatum =
      .ok (fs.map File.ofRecord) := by
    rw [map_sortKeys_map]
    exact mapM_map_eq_ok fun r _ => File.ofDatum_sortKeys r
  unfold ofParts
  rw [h.part "name" rfl, h.part "path" rfl, h.part "purpose" rfl, h.listAtOr "directories" hget,
    h.listAtOr "files" hfiles, h.part "file_count" rfl, h.part "size" rfl, h.partOr "readable" rfl]
  dsimp only [bind, Except.bind]
  rw [hdirectories, hrecords, ofDirectory, ofDirectories_eq_map]
  rfl

/-- **A directory is read back**, given as many levels as containers nest. -/
theorem ofDatumWithin_sortKeys {levels : Nat} {d : Directory}
    (h : (sortKeys (ofDirectory d).toDatum).depth ≤ levels) :
    ofDatumWithin levels (sortKeys (ofDirectory d).toDatum) = .ok (ofDirectory d) := by
  induction levels generalizing d with
  | zero =>
    obtain ⟨ms, hms, -⟩ := (ofDirectory d).isRecord_toDatum.exists_members
    rw [hms] at h
    cases h
  | succ levels ih =>
    cases d with
    | node name path purpose ds fs count size readable =>
      refine ofParts_sortKeys name path purpose ds fs count size readable fun d hd => ih ?_
      have hrecord := (ofDirectory
        (.node name path purpose ds fs count size readable)).isRecord_toDatum
      obtain ⟨ms, hms, hperm, hget⟩ := hrecord.exists_members
      have hlist := hget "directories"
      rw [get?_directories, Option.map_some, sortKeys, sortItems_eq_map, map_sortKeys_map,
        Assoc.get?_eq_some_iff (hperm.nodup_iff.mpr hrecord.nodup)] at hlist
      rw [hms, depth_table_le_iff] at h
      have hbelow : sortKeys (ofDirectory d).toDatum ∈
          ds.map fun d => sortKeys (ofDirectory d).toDatum := List.mem_map_of_mem hd
      exact Nat.le_of_lt (Nat.lt_of_lt_of_le (depth_lt_of_mem hbelow) (h _ hlist))

/-- A directory is read back from its record, with all below it. -/
theorem ofDatum_sortKeys (d : Directory) :
    Folder.ofDatum (sortKeys (ofDirectory d).toDatum) = .ok (ofDirectory d) :=
  ofDatumWithin_sortKeys (Nat.le_refl _)

end Folder

/-! ### Tables of facts -/

/-- An area is a record, -/
theorem Area.isRecord_toDatum (a : Area) :
    IsRecord ["purpose", "file_count", "size", "languages"] a.toDatum :=
  ⟨_, rfl, rfl, by decide⟩

/-- and is read back. -/
theorem Area.ofDatum_sortKeys (s : DirectorySummary) :
    Area.ofDatum (sortKeys (Area.ofSummary s).toDatum) = .ok (Area.ofSummary s) := by
  have h := (Area.ofSummary s).isRecord_toDatum
  unfold Area.ofDatum
  rw [h.part "purpose" rfl, h.part "file_count" rfl, h.part "size" rfl, h.listAtOr "languages" rfl]
  show Except.ok (Area.mk _ _ _ ((texts s.languages).map sortKeys)) = _
  rw [map_sortKeys_texts]
  rfl

/-- A node of the graph is a record, -/
theorem Node.isRecord_toDatum (n : Node) :
    IsRecord ["kind", "language", "exports", "imports", "version"] n.toDatum :=
  ⟨_, rfl, rfl, by decide⟩

/-- and is read back. -/
theorem Node.ofDatum_sortKeys (n : GraphNode) :
    Node.ofDatum (sortKeys (Node.ofGraphNode n).toDatum) = .ok (Node.ofGraphNode n) := by
  have h := (Node.ofGraphNode n).isRecord_toDatum
  unfold Node.ofDatum
  rw [h.part "kind" rfl, h.partOr "language" rfl, h.listAtOr "exports" rfl,
    h.listAtOr "imports" rfl, h.partOr "version" rfl]
  show Except.ok (Node.mk _ (sortKeys (Datum.ofText? n.language)) ((texts n.exports).map sortKeys)
    ((texts n.imports).map sortKeys) (sortKeys (Datum.ofText? n.version))) = _
  rw [sortKeys_ofText?, sortKeys_ofText?, map_sortKeys_texts, map_sortKeys_texts]
  rfl

/-- An edge of the graph is a record, -/
theorem Edge.isRecord_toDatum (e : Edge) :
    IsRecord ["source", "target", "kind", "reference", "unresolved"] e.toDatum :=
  ⟨_, rfl, rfl, by decide⟩

/-- and is read back. -/
theorem Edge.ofDatum_sortKeys (e : GraphEdge) :
    Edge.ofDatum (sortKeys (Edge.ofGraphEdge e).toDatum) = .ok (Edge.ofGraphEdge e) := by
  obtain ⟨ms, hms, hget, hcheck⟩ := (Edge.ofGraphEdge e).isRecord_toDatum.exists_facts
  unfold Edge.ofDatum factsOf
  rw [hms]
  dsimp only [bind, Except.bind]
  rw [hcheck _ _ (by decide) (by decide)]
  dsimp only
  rw [hget "source" _ _ rfl, hget "target" _ _ rfl, hget "kind" _ _ rfl, hget "reference" _ _ rfl,
    hget "unresolved" _ _ rfl]
  rfl

/-- The recommendations are a record, -/
theorem Counsel.isRecord_toDatum (c : Counsel) :
    IsRecord ["focus_areas", "development_phase", "technical_debt", "priority", "quality_level",
      "insights"] c.toDatum :=
  ⟨_, rfl, rfl, by decide⟩

/-- and are read back. -/
theorem Counsel.ofDatum_sortKeys (a : Advice) :
    Counsel.ofDatum (sortKeys (Counsel.ofAdvice a).toDatum) = .ok (Counsel.ofAdvice a) := by
  obtain ⟨ms, hms, hget, hcheck⟩ := (Counsel.ofAdvice a).isRecord_toDatum.exists_facts
  have htexts : ∀ ss : List String, sortKeys (Datum.texts ss) = Datum.texts ss :=
    EvidenceCache.sortKeys_texts
  unfold Counsel.ofDatum membersOf
  rw [hms]
  dsimp only [bind, Except.bind]
  rw [hcheck _ _ (by decide) (by decide)]
  dsimp only
  rw [hget "focus_areas" _ _ rfl, hget "development_phase" _ _ rfl, hget "technical_debt" _ _ rfl,
    hget "priority" _ _ rfl, hget "quality_level" _ _ rfl, hget "insights" _ _ rfl]
  show Except.ok (Counsel.mk (sortKeys (Datum.texts a.focusAreas)) _ _
    (sortKeys (Datum.texts a.priority)) _ (sortKeys (Datum.texts a.insights))) = _
  rw [htexts, htexts, htexts]
  rfl

/-- The packages are a record, -/
theorem Packages.isRecord_toDatum (p : Packages) :
    IsRecord ["production", "development", "security"] p.toDatum :=
  ⟨_, rfl, rfl, by decide⟩

/-- and are read back. -/
theorem Packages.ofDatum_sortKeys (d : Dependencies) :
    Packages.ofDatum (sortKeys (Packages.ofDependencies d).toDatum) =
      .ok (Packages.ofDependencies d) := by
  have h := (Packages.ofDependencies d).isRecord_toDatum
  unfold Packages.ofDatum
  rw [h.listAt "production" rfl, h.listAt "development" rfl, h.listAt "security" rfl]
  show Except.ok
    (Packages.mk ((texts d.production).map sortKeys) ((texts d.development).map sortKeys)
    ((texts d.security).map sortKeys)) = _
  rw [map_sortKeys_texts, map_sortKeys_texts, map_sortKeys_texts]
  rfl

/-! ### Mappings -/

/-- The members of a mapping, laid out and sorted. -/
theorem sortKeys_mapping {α : Type} (f : α → Datum) (mapping : Assoc String α) :
    sortKeys (.table (mapping.map fun p => (p.1, f p.2))) =
      .table ((sortMembers mapping).map fun p => (p.1, sortKeys (f p.2))) := by
  have hvalues : sortValues (mapping.map fun p => (p.1, f p.2)) =
      mapping.map fun p => (p.1, sortKeys (f p.2)) := by
    rw [sortValues_eq_map, List.map_map]
    rfl
  rw [sortKeys, hvalues]
  unfold sortMembers
  rw [List.map_mergeSort]
  intro a _ b _
  rfl

/-- The outline of the layout is a record, -/
theorem Outline.isRecord_toDatum (o : Outline) :
    IsRecord ["directories", "patterns", "conventions"] o.toDatum :=
  ⟨_, rfl, rfl, by decide⟩

/-- and is read back with its directories sorted. -/
theorem Outline.ofDatum_sortKeys (l : Layout) :
    Outline.ofDatum (sortKeys (Outline.ofLayout l).toDatum) =
      .ok (Outline.ofLayout { l with directories := sortMembers l.directories }) := by
  have h := (Outline.ofLayout l).isRecord_toDatum
  have hdirectories : (Outline.ofLayout l).toDatum.get? "directories" =
      some (.table (l.directories.map fun p => (p.1, (Area.ofSummary p.2).toDatum))) := by
    show some (Datum.table ((l.directories.map _).map _)) = _
    rw [List.map_map]
    rfl
  have hsorted :
      sortKeys (.table (l.directories.map fun p => (p.1, (Area.ofSummary p.2).toDatum))) =
      .table ((sortMembers l.directories).map fun p =>
        (p.1, sortKeys (Area.ofSummary p.2).toDatum)) :=
    sortKeys_mapping (fun s => (Area.ofSummary s).toDatum) _
  unfold Outline.ofDatum
  rw [h.part "directories" hdirectories, hsorted, h.listAt "patterns" rfl,
    h.listAt "conventions" rfl]
  dsimp only [bind, Except.bind, membersOf]
  rw [mapM_map_eq_ok (k := fun p => (p.1, Area.ofSummary p.2))]
  · show Except.ok (Outline.mk _ ((texts l.patterns).map sortKeys)
      ((texts l.conventions).map sortKeys)) = _
    rw [map_sortKeys_texts, map_sortKeys_texts]
    rfl
  · intro p _
    dsimp only
    rw [Area.ofDatum_sortKeys]
    rfl

/-- The figures are a record, -/
theorem Figures.isRecord_toDatum (f : Figures) :
    IsRecord ["total_files", "total_lines", "file_type_histogram", "complexity"] f.toDatum :=
  ⟨_, rfl, rfl, by decide⟩

/-- and are read back with their histogram sorted. -/
theorem Figures.ofDatum_sortKeys (m : Metrics) :
    Figures.ofDatum (sortKeys (Figures.ofMetrics m).toDatum) =
      .ok (Figures.ofMetrics { m with histogram := sortMembers m.histogram }) := by
  obtain ⟨ms, hms, hget, hcheck⟩ := (Figures.ofMetrics m).isRecord_toDatum.exists_facts
  unfold Figures.ofDatum factsOf
  rw [hms]
  dsimp only [bind, Except.bind]
  rw [hcheck _ _ (by decide) (by decide)]
  dsimp only
  rw [hget "total_files" _ _ rfl, hget "total_lines" _ _ rfl, hget "file_type_histogram" _ _ rfl,
    hget "complexity" _ _ rfl]
  show Except.ok
    (Figures.mk _ _ (sortKeys (.table (m.histogram.map fun p => (p.1, .int p.2)))) _) = _
  rw [sortKeys_mapping Datum.int]
  rfl

/-! ### The whole -/

/-- The header is a record. -/
theorem Header.isRecord_toDatum (h : Header) :
    IsRecord ["name", "root", "analyzed_at", "version", "skipped"] h.toDatum :=
  ⟨_, rfl, rfl, by decide⟩

/-- The profile is one. -/
theorem Profile.isRecord_toDatum (p : Profile) :
    IsRecord ["type", "language", "frameworks", "build_tool", "package_manager", "manifests"]
      p.toDatum :=
  ⟨_, rfl, rfl, by decide⟩

/-- A snapshot is a record. -/
theorem isRecord_toDatum (s : Snapshot) :
    IsRecord ["metadata", "project", "tree", "structure", "dependencies", "graph", "metrics",
      "quality", "security", "recommendations"] s.toDatum :=
  ⟨_, rfl, rfl, by decide⟩

/-- The graph of a snapshot as a value. -/
def graphDatum (s : Snapshot) : Datum :=
  .table [("nodes", .table (s.nodes.map fun p => (p.1, p.2.toDatum))),
    ("edges", .list (s.edges.map Edge.toDatum))]

/-- The verdict of a snapshot as a value. -/
def verdictDatum (s : Snapshot) : Datum :=
  .table [("score", s.score), ("findings", .list (s.findings.map Finding.toDatum)),
    ("suggestions", .list s.suggestions)]

/-- Its graph is one, -/
theorem isRecord_graphDatum (s : Snapshot) : IsRecord ["nodes", "edges"] s.graphDatum :=
  ⟨_, rfl, rfl, by decide⟩

/-- and so is its verdict. -/
theorem isRecord_verdictDatum (s : Snapshot) :
    IsRecord ["score", "findings", "suggestions"] s.verdictDatum :=
  ⟨_, rfl, rfl, by decide⟩

end Snapshot

/-- A survey with its mappings replaced. -/
def Survey.withMappings (r : Survey) (areas : Assoc String DirectorySummary)
    (nodes : Assoc String GraphNode) (histogram : Assoc String Int) : Survey :=
  { r with
    layout := { r.layout with directories := areas }
    graph := { r.graph with nodes := nodes }
    metrics := { r.metrics with histogram := histogram } }

/-- A survey with its mappings in the order of their keys. -/
def Survey.inOrder (r : Survey) : Survey :=
  r.withMappings (Json.sortMembers r.layout.directories) (Json.sortMembers r.graph.nodes)
    (Json.sortMembers r.metrics.histogram)

namespace Snapshot

open Json

/-- The nodes of the graph stand in the order of their keys. -/
theorem part_nodes_sortKeys (r : Survey) :
    part "nodes" (sortKeys (ofSurvey r).graphDatum) =
      .ok (.table ((sortMembers r.graph.nodes).map fun p =>
        (p.1, sortKeys (Node.ofGraphNode p.2).toDatum))) := by
  have hget : (ofSurvey r).graphDatum.get? "nodes" =
      some (.table (r.graph.nodes.map fun p => (p.1, (Node.ofGraphNode p.2).toDatum))) := by
    show some (Datum.table ((r.graph.nodes.map _).map _)) = _
    rw [List.map_map]
    rfl
  rw [(ofSurvey r).isRecord_graphDatum.part "nodes" hget]
  exact congrArg Except.ok (sortKeys_mapping (fun n => (Node.ofGraphNode n).toDatum) _)

/-- The edges of a survey are read back one by one. -/
theorem mapM_edges_sortKeys (r : Survey) :
    (((ofSurvey r).edges.map Edge.toDatum).map sortKeys).mapM Edge.ofDatum =
      .ok (ofSurvey r).edges := by
  show (((r.graph.edges.map _).map _).map sortKeys).mapM _ = _
  rw [List.map_map, List.map_map]
  exact mapM_map_eq_ok fun e _ => Edge.ofDatum_sortKeys e

/-- Findings are read back one by one. -/
theorem mapM_findings_sortKeys {fs : List Finding} (hfs : ∀ f ∈ fs, f.IsPlain) :
    ((fs.map Finding.toDatum).map sortKeys).mapM findingOf = .ok fs := by
  rw [List.map_map]
  exact EvidenceCache.mapM_findingOf fun f hf => Finding.findingOf_sortKeys (hfs f hf)

/-- **A snapshot that was laid out and sorted is read back**, its mappings in the order of their
keys. -/
theorem ofDatum_sortKeys {r : Survey} (hfindings : ∀ f ∈ r.verdict.findings, f.IsPlain)
    (hsecurity : ∀ f ∈ r.security, f.IsPlain) :
    ofDatum (sortKeys (ofSurvey r).toDatum) = .ok (ofSurvey r.inOrder) := by
  have h := (ofSurvey r).isRecord_toDatum
  have hgraph := (ofSurvey r).isRecord_graphDatum
  have hverdict := (ofSurvey r).isRecord_verdictDatum
  have hgraphPart : part "graph" (sortKeys (ofSurvey r).toDatum) =
      .ok (sortKeys (ofSurvey r).graphDatum) := h.part "graph" rfl
  have hverdictPart : part "quality" (sortKeys (ofSurvey r).toDatum) =
      .ok (sortKeys (ofSurvey r).verdictDatum) := h.part "quality" rfl
  obtain ⟨header, hheader, hheaderGet, hheaderCheck⟩ :=
    (ofSurvey r).header.isRecord_toDatum.exists_facts
  obtain ⟨profile, hprofile, hprofileGet, hprofileCheck⟩ :=
    (ofSurvey r).profile.isRecord_toDatum.exists_facts
  have hmetadata : part "metadata" (sortKeys (ofSurvey r).toDatum) = .ok (.table header) := by
    rw [h.part "metadata" rfl, hheader]
  have hproject : part "project" (sortKeys (ofSurvey r).toDatum) = .ok (.table profile) := by
    rw [h.part "project" rfl, hprofile]
  -- every part is there
  unfold ofDatum
  rw [hmetadata, hproject, h.part "structure" rfl, h.part "dependencies" rfl, hgraphPart,
    hverdictPart, h.part "recommendations" rfl, h.part "tree" rfl, h.part "metrics" rfl,
    h.listAt "security" rfl]
  dsimp only [bind, Except.bind, Facts.ofDatum, Facts.listOr]
  rw [hheaderGet "skipped" _ _ rfl, IsRecord.itemsOf_sortKeys, hprofileGet "frameworks" _ _ rfl,
    IsRecord.itemsOf_sortKeys, hprofileGet "manifests" _ _ rfl, IsRecord.itemsOf_sortKeys,
    hheaderCheck _ _ (by decide) (by decide), hprofileCheck _ _ (by decide) (by decide)]
  dsimp only
  -- every part is read back
  have htree : Folder.ofDatum (sortKeys (ofSurvey r).tree.toDatum) = .ok (ofSurvey r).tree :=
    Folder.ofDatum_sortKeys r.tree
  have houtline : Outline.ofDatum (sortKeys (ofSurvey r).outline.toDatum) =
      .ok (ofSurvey r.inOrder).outline := Outline.ofDatum_sortKeys r.layout
  have hpackages : Packages.ofDatum (sortKeys (ofSurvey r).packages.toDatum) =
      .ok (ofSurvey r).packages := Packages.ofDatum_sortKeys r.dependencies
  have hfigures : Figures.ofDatum (sortKeys (ofSurvey r).figures.toDatum) =
      .ok (ofSurvey r.inOrder).figures := Figures.ofDatum_sortKeys r.metrics
  have hcounsel : Counsel.ofDatum (sortKeys (ofSurvey r).counsel.toDatum) =
      .ok (ofSurvey r).counsel := Counsel.ofDatum_sortKeys r.advice
  rw [htree, houtline, hpackages, part_nodes_sortKeys, hgraph.listAt "edges" rfl, hfigures,
    hverdict.part "score" rfl, hverdict.listAt "findings" rfl, hverdict.listAt "suggestions" rfl,
    hcounsel]
  dsimp only [membersOf]
  rw [mapM_map_eq_ok (k := fun p => (p.1, Node.ofGraphNode p.2)), mapM_edges_sortKeys,
    mapM_findings_sortKeys (show ∀ f ∈ (ofSurvey r).findings, f.IsPlain from hfindings),
    mapM_findings_sortKeys (show ∀ f ∈ (ofSurvey r).security, f.IsPlain from hsecurity)]
  · dsimp only
    rw [hheaderGet "name" _ _ rfl, hheaderGet "root" _ _ rfl, hheaderGet "analyzed_at" _ _ rfl,
      hheaderGet "version" _ _ rfl, hprofileGet "type" _ _ rfl, hprofileGet "language" _ _ rfl,
      hprofileGet "build_tool" _ _ rfl, hprofileGet "package_manager" _ _ rfl]
    show Except.ok (Snapshot.mk ⟨_, _, _, _, (texts r.header.skipped).map sortKeys⟩
      ⟨_, _, (texts r.profile.frameworks).map sortKeys, _, _,
        (texts r.profile.manifests).map sortKeys⟩ _ _ _ _ _ _ _ _
      ((texts r.verdict.suggestions).map sortKeys) _ _) = _
    rw [map_sortKeys_texts, map_sortKeys_texts, map_sortKeys_texts, map_sortKeys_texts]
    rfl
  · intro p _
    dsimp only
    rw [Node.ofDatum_sortKeys]
    rfl

/-! ### Nothing is lost -/

/-- Texts are told apart by their data. -/
theorem texts_inj {ss ss' : List String} : texts ss = texts ss' ↔ ss = ss' :=
  List.map_inj_right fun _ _ h => Datum.text.inj h

/-- So are lists of texts, -/
theorem textsDatum_inj {ss ss' : List String} : Datum.texts ss = Datum.texts ss' ↔ ss = ss' := by
  rw [Datum.texts, Datum.texts, Datum.list.injEq]
  exact texts_inj

/-- texts that may be missing -/
theorem ofText?_inj {s s' : Option String} : Datum.ofText? s = Datum.ofText? s' ↔ s = s' := by
  cases s <;> cases s' <;> simp [Datum.ofText?]

/-- and numbers. -/
theorem nat_inj {n m : Nat} : Datum.nat n = Datum.nat m ↔ n = m := by
  rw [Datum.nat, Datum.nat, Datum.int.injEq, Int.ofNat_inj]

/-- Files are told apart by their records. -/
theorem File.ofRecord_inj {r r' : FileRecord} : File.ofRecord r = File.ofRecord r' ↔ r = r' := by
  obtain ⟨path, size, extension, ⟨language, hint, tags⟩, modified, ns⟩ := r
  obtain ⟨path', size', extension', ⟨language', hint', tags'⟩, modified', ns'⟩ := r'
  simp [File.ofRecord, texts_inj, ofText?_inj, nat_inj, and_assoc]

/-- So are lists of files. -/
theorem map_ofRecord_inj {fs fs' : List FileRecord} :
    fs.map File.ofRecord = fs'.map File.ofRecord ↔ fs = fs' :=
  List.map_inj_right fun _ _ => File.ofRecord_inj.mp

mutual

/-- Directories are told apart by their folders, -/
theorem Folder.eq_of_ofDirectory (d d' : Directory)
    (h : Folder.ofDirectory d = Folder.ofDirectory d') : d = d' :=
  match d, d' with
  | .node .., .node .. => by
      simp only [Folder.ofDirectory, Folder.node.injEq, Datum.text.injEq, Datum.bool.injEq,
        map_ofRecord_inj, nat_inj] at h
      obtain ⟨rfl, rfl, rfl, hdirectories, rfl, rfl, rfl, rfl⟩ := h
      rw [Folder.eq_of_ofDirectories _ _ hdirectories]

/-- and lists of them are. -/
theorem Folder.eq_of_ofDirectories (ds ds' : List Directory)
    (h : Folder.ofDirectories ds = Folder.ofDirectories ds') : ds = ds' :=
  match ds, ds' with
  | [], [] => rfl
  | [], _ :: _ => by cases h
  | _ :: _, [] => by cases h
  | d :: ds, d' :: ds' => by
      simp only [Folder.ofDirectories, List.cons.injEq] at h
      rw [Folder.eq_of_ofDirectory d d' h.1, Folder.eq_of_ofDirectories ds ds' h.2]

end

/-- Mappings are told apart when their values are. -/
theorem map_mapping_inj {α β : Type} {f : α → β} (hf : ∀ a b, f a = f b → a = b)
    {mapping mapping' : Assoc String α} :
    mapping.map (fun p => (p.1, f p.2)) = mapping'.map (fun p => (p.1, f p.2)) ↔
      mapping = mapping' := by
  refine List.map_inj_right ?_
  rintro ⟨k, a⟩ ⟨l, b⟩ h
  obtain ⟨rfl, hab⟩ := Prod.mk.inj h
  rw [hf a b hab]

/-- Areas are told apart by their records. -/
theorem Area.eq_of_ofSummary (s s' : DirectorySummary) (h : Area.ofSummary s = Area.ofSummary s') :
    s = s' := by
  cases s
  cases s'
  simpa [Area.ofSummary, texts_inj, nat_inj] using h

/-- Nodes of the graph are, -/
theorem Node.eq_of_ofGraphNode (n n' : GraphNode) (h : Node.ofGraphNode n = Node.ofGraphNode n') :
    n = n' := by
  cases n
  cases n'
  simpa [Node.ofGraphNode, texts_inj, ofText?_inj] using h

/-- and edges are. -/
theorem Edge.eq_of_ofGraphEdge (e e' : GraphEdge) (h : Edge.ofGraphEdge e = Edge.ofGraphEdge e') :
    e = e' := by
  cases e
  cases e'
  simpa [Edge.ofGraphEdge] using h

/-- Complexities are told apart by their texts. -/
theorem complexity_inj {c c' : Complexity} : c.text = c'.text ↔ c = c' := by
  cases c <;> cases c' <;> decide

/-- Profiles are told apart by their records, -/
theorem Profile.eq_of_ofProfile (p p' : ProjectProfile)
    (h : Profile.ofProfile p = Profile.ofProfile p') : p = p' := by
  cases p
  cases p'
  simpa [Profile.ofProfile, texts_inj] using h

/-- layouts, -/
theorem Outline.eq_of_ofLayout (l l' : Layout) (h : Outline.ofLayout l = Outline.ofLayout l') :
    l = l' := by
  obtain ⟨ds, ps, cs⟩ := l
  obtain ⟨ds', ps', cs'⟩ := l'
  obtain ⟨hareas, hpatterns, hconventions⟩ := Outline.mk.inj h
  obtain rfl : ds = ds' := (map_mapping_inj Area.eq_of_ofSummary).mp hareas
  obtain rfl : ps = ps' := texts_inj.mp hpatterns
  obtain rfl : cs = cs' := texts_inj.mp hconventions
  rfl

/-- packages, -/
theorem Packages.eq_of_ofDependencies (d d' : Dependencies)
    (h : Packages.ofDependencies d = Packages.ofDependencies d') : d = d' := by
  cases d
  cases d'
  simpa [Packages.ofDependencies, texts_inj] using h

/-- metrics -/
theorem Figures.eq_of_ofMetrics (m m' : Metrics) (h : Figures.ofMetrics m = Figures.ofMetrics m') :
    m = m' := by
  obtain ⟨files, lines, histogram, complexity⟩ := m
  obtain ⟨files', lines', histogram', complexity'⟩ := m'
  obtain ⟨hfiles, hlines, hhistogram, hcomplexity⟩ := Figures.mk.inj h
  obtain rfl : files = files' := Datum.int.inj hfiles
  obtain rfl : lines = lines' := Datum.int.inj hlines
  obtain rfl : histogram = histogram' :=
    (map_mapping_inj fun _ _ => Datum.int.inj).mp (Datum.table.inj hhistogram)
  obtain rfl : complexity = complexity' := complexity_inj.mp (Datum.text.inj hcomplexity)
  rfl

/-- and recommendations. -/
theorem Counsel.eq_of_ofAdvice (a a' : Advice) (h : Counsel.ofAdvice a = Counsel.ofAdvice a') :
    a = a' := by
  cases a
  cases a'
  simpa [Counsel.ofAdvice, textsDatum_inj] using h

/-- The same header was made from the same header. -/
theorem header_eq_of_ofSurvey {r r' : Survey}
    (h : (ofSurvey r).header = (ofSurvey r').header) : r.header = r'.header := by
  obtain ⟨⟨name, root, time, version, skipped⟩, _⟩ := r
  obtain ⟨⟨name', root', time', version', skipped'⟩, _⟩ := r'
  simpa [ofSurvey, texts_inj] using h

/-- **A snapshot keeps everything** of a survey. -/
theorem eq_of_ofSurvey {r r' : Survey} (h : ofSurvey r = ofSurvey r') : r = r' := by
  have hheader := header_eq_of_ofSurvey (congrArg Snapshot.header h)
  have hprofile := Profile.eq_of_ofProfile _ _ (congrArg Snapshot.profile h)
  have htree := Folder.eq_of_ofDirectory _ _ (congrArg Snapshot.tree h)
  have hlayout := Outline.eq_of_ofLayout _ _ (congrArg Snapshot.outline h)
  have hdependencies := Packages.eq_of_ofDependencies _ _ (congrArg Snapshot.packages h)
  have hnodes := (map_mapping_inj Node.eq_of_ofGraphNode).mp (congrArg Snapshot.nodes h)
  have hedges := (List.map_inj_right Edge.eq_of_ofGraphEdge).mp (congrArg Snapshot.edges h)
  have hmetrics := Figures.eq_of_ofMetrics _ _ (congrArg Snapshot.figures h)
  have hscore := Datum.int.inj (congrArg Snapshot.score h)
  have hfindings : r.verdict.findings = r'.verdict.findings := congrArg Snapshot.findings h
  have hsuggestions := texts_inj.mp (congrArg Snapshot.suggestions h)
  have hsecurity : r.security = r'.security := congrArg Snapshot.security h
  have hadvice := Counsel.eq_of_ofAdvice _ _ (congrArg Snapshot.counsel h)
  obtain ⟨header, profile, tree, layout, dependencies, ⟨nodes, edges⟩, metrics,
    ⟨score, findings, suggestions⟩, security, advice⟩ := r
  obtain ⟨header', profile', tree', layout', dependencies', ⟨nodes', edges'⟩, metrics',
    ⟨score', findings', suggestions'⟩, security', advice'⟩ := r'
  dsimp only at *
  subst hheader hprofile htree hlayout hdependencies hnodes hedges hmetrics hscore hfindings
    hsuggestions hsecurity hadvice
  rfl

end Snapshot

end ProjectSurvey
