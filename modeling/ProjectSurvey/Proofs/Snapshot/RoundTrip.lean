import ProjectSurvey.Proofs.Snapshot.Reading
import ProjectSurvey.Snapshot.Extent

/-!
# Surveys as texts

A survey is saved as the text of its snapshot. **The text is made unless the survey goes too far
down or holds an integer that is too long** (`text?_eq`), **and it is read as the same survey**
(`ofText_of_text?`). Only the order of its mappings changes, which no text shows
(`sortKeys_inOrder`). That the time of a file in seconds is read as itself is assumed.
-/

namespace ProjectSurvey

/-! ### Well-typed surveys -/

/-- Whether a survey has findings of the right kinds, and no key of a mapping comes twice. -/
structure Survey.IsTyped (r : Survey) : Prop where
  /-- No top-level directory comes twice. -/
  areas : (Assoc.keys r.layout.directories).Nodup
  /-- No node comes twice. -/
  nodes : (Assoc.keys r.graph.nodes).Nodup
  /-- No extension comes twice. -/
  histogram : (Assoc.keys r.metrics.histogram).Nodup
  /-- The findings are of the right kinds, -/
  findings : ∀ f ∈ r.verdict.findings, f.IsTyped
  /-- and so are those about security. -/
  security : ∀ f ∈ r.security, f.IsTyped

open Json

namespace Snapshot

/-! ### Writing -/

/-- A record can be stored when its members can. -/
theorem IsRecord.isStorable {keys : List String} {kvs : List (String × Datum)}
    (h : IsRecord keys (.table kvs)) (hall : ∀ p ∈ kvs, IsStorable p.2) :
    IsStorable (.table kvs) := by
  obtain ⟨_, ⟨⟩, rfl, hnodup⟩ := h
  exact isStorable_table hnodup hall

/-- A list of texts can be stored. -/
theorem isStorable_list_texts (ss : List String) : IsStorable (.list (texts ss)) :=
  isStorable_texts ss

/-- A file can be stored when its time is restored by reading. -/
theorem File.isStorable_toDatum {r : FileRecord} (h : IsRestored r.modified) :
    IsStorable (File.ofRecord r).toDatum := by
  refine (File.isRecord_toDatum _).isStorable ?_
  have hkind : IsStorable (File.ofRecord r).kindDatum := by
    refine (File.isRecord_kindDatum _).isStorable ?_
    simp only [List.forall_mem_cons]
    exact ⟨isStorable_text _, isStorable_ofText? _, isStorable_list_texts _, by simp⟩
  simp only [List.forall_mem_cons]
  exact ⟨isStorable_text _, isStorable_nat _, isStorable_text _, hkind, isStorable_real h,
    isStorable_int _, by simp⟩

mutual

/-- A directory can be stored when the times of all its files are. -/
theorem Folder.isStorable_toDatum (d : Directory) (h : ∀ r ∈ d.allFiles, IsRestored r.modified) :
    IsStorable (Folder.ofDirectory d).toDatum :=
  match d with
  | .node name path purpose ds fs count size readable => by
      rw [Directory.allFiles, List.forall_mem_append] at h
      have hdirectories : IsStorable (.list (Folder.toData (Folder.ofDirectories ds))) :=
        isStorable_list (Folder.areStorable_toData ds h.2)
      have hfiles : IsStorable (.list ((fs.map File.ofRecord).map File.toDatum)) := by
        rw [List.map_map]
        exact isStorable_list_map fun r hr => File.isStorable_toDatum (h.1 r hr)
      have hrecord := (Folder.ofDirectory
        (.node name path purpose ds fs count size readable)).isRecord_toDatum
      rw [Folder.ofDirectory, Folder.toDatum] at hrecord ⊢
      refine hrecord.isStorable ?_
      simp only [List.forall_mem_cons]
      exact ⟨isStorable_text _, isStorable_text _, isStorable_text _, hdirectories, hfiles,
        isStorable_nat _, isStorable_nat _, isStorable_bool _, by simp⟩

/-- So can a list of directories. -/
theorem Folder.areStorable_toData (ds : List Directory)
    (h : ∀ r ∈ Directory.allFilesOf ds, IsRestored r.modified) :
    ∀ d ∈ Folder.toData (Folder.ofDirectories ds), IsStorable d :=
  match ds with
  | [] => by
      rw [Folder.ofDirectories, Folder.toData]
      exact List.forall_mem_nil _
  | d :: ds => by
      rw [Directory.allFilesOf, List.forall_mem_append] at h
      rw [Folder.ofDirectories, Folder.toData, List.forall_mem_cons]
      exact ⟨Folder.isStorable_toDatum d h.1, Folder.areStorable_toData ds h.2⟩

end

/-- An outline can be stored when its directories are distinct. -/
theorem Outline.isStorable_toDatum {l : Layout} (h : (Assoc.keys l.directories).Nodup) :
    IsStorable (Outline.ofLayout l).toDatum := by
  have hareas :
      IsStorable (.table ((Outline.ofLayout l).areas.map fun p => (p.1, p.2.toDatum))) := by
    show IsStorable (.table ((l.directories.map _).map _))
    rw [List.map_map]
    refine isStorable_mapping (f := fun s => (Area.ofSummary s).toDatum) h fun p _ => ?_
    refine (Area.isRecord_toDatum _).isStorable ?_
    simp only [List.forall_mem_cons]
    exact ⟨isStorable_text _, isStorable_nat _, isStorable_nat _, isStorable_list_texts _, by simp⟩
  refine (Outline.isRecord_toDatum _).isStorable ?_
  simp only [List.forall_mem_cons]
  exact ⟨hareas, isStorable_list_texts _, isStorable_list_texts _, by simp⟩

/-- Figures can be stored when the entries of the histogram are distinct. -/
theorem Figures.isStorable_toDatum {m : Metrics} (h : (Assoc.keys m.histogram).Nodup) :
    IsStorable (Figures.ofMetrics m).toDatum := by
  have hhistogram : IsStorable (.table (m.histogram.map fun p => (p.1, Datum.int p.2))) :=
    isStorable_mapping h fun p _ => isStorable_int p.2
  refine (Figures.isRecord_toDatum _).isStorable ?_
  simp only [List.forall_mem_cons]
  exact ⟨isStorable_int _, isStorable_int _, hhistogram, isStorable_text _, by simp⟩

/-- A graph can be stored when its nodes are distinct. -/
theorem isStorable_graphDatum {r : Survey} (h : (Assoc.keys r.graph.nodes).Nodup) :
    IsStorable (ofSurvey r).graphDatum := by
  have hnodes : IsStorable (.table ((ofSurvey r).nodes.map fun p => (p.1, p.2.toDatum))) := by
    show IsStorable (.table ((r.graph.nodes.map _).map _))
    rw [List.map_map]
    refine isStorable_mapping (f := fun n => (Node.ofGraphNode n).toDatum) h fun p _ => ?_
    refine (Node.isRecord_toDatum _).isStorable ?_
    simp only [List.forall_mem_cons]
    exact ⟨isStorable_text _, isStorable_ofText? _, isStorable_list_texts _,
      isStorable_list_texts _, isStorable_ofText? _, by simp⟩
  have hedges : IsStorable (.list ((ofSurvey r).edges.map Edge.toDatum)) := by
    show IsStorable (.list ((r.graph.edges.map _).map _))
    rw [List.map_map]
    refine isStorable_list_map fun e _ => (Edge.isRecord_toDatum _).isStorable ?_
    simp only [List.forall_mem_cons]
    exact ⟨isStorable_text _, isStorable_text _, isStorable_text _, isStorable_text _,
      isStorable_bool _, by simp⟩
  refine (isRecord_graphDatum _).isStorable ?_
  simp only [List.forall_mem_cons]
  exact ⟨hnodes, hedges, by simp⟩

/-- Findings with typed fields can be stored. -/
theorem isStorable_findings {fs : List Finding} (h : ∀ f ∈ fs, f.IsTyped) :
    IsStorable (.list (fs.map Finding.toDatum)) :=
  isStorable_list_map fun f hf hshow => Finding.isWritable_toDatum ((h f hf).isPlain hshow)

/-- **A well-typed survey can be written** if its integers can be shown. -/
theorem isStorable_toDatum {r : Survey} (h : r.IsTyped)
    (hmodified : ∀ f ∈ r.tree.allFiles, IsRestored f.modified) :
    IsStorable (ofSurvey r).toDatum := by
  have hheader : IsStorable (ofSurvey r).header.toDatum := by
    refine (Header.isRecord_toDatum _).isStorable ?_
    simp only [List.forall_mem_cons]
    exact ⟨isStorable_text _, isStorable_text _, isStorable_text _, isStorable_text _,
      isStorable_list_texts _, by simp⟩
  have hprofile : IsStorable (ofSurvey r).profile.toDatum := by
    refine (Profile.isRecord_toDatum _).isStorable ?_
    simp only [List.forall_mem_cons]
    exact ⟨isStorable_text _, isStorable_text _, isStorable_list_texts _, isStorable_text _,
      isStorable_text _, isStorable_list_texts _, by simp⟩
  have hpackages : IsStorable (ofSurvey r).packages.toDatum := by
    refine (Packages.isRecord_toDatum _).isStorable ?_
    simp only [List.forall_mem_cons]
    exact ⟨isStorable_list_texts _, isStorable_list_texts _, isStorable_list_texts _, by simp⟩
  have hverdict : IsStorable (ofSurvey r).verdictDatum := by
    refine (isRecord_verdictDatum _).isStorable ?_
    simp only [List.forall_mem_cons]
    exact ⟨isStorable_int _, isStorable_findings h.findings, isStorable_list_texts _, by simp⟩
  have hcounsel : IsStorable (ofSurvey r).counsel.toDatum := by
    refine (Counsel.isRecord_toDatum _).isStorable ?_
    simp only [List.forall_mem_cons]
    exact ⟨isStorable_texts _, isStorable_text _, isStorable_text _, isStorable_texts _,
      isStorable_text _, isStorable_texts _, by simp⟩
  refine (isRecord_toDatum _).isStorable ?_
  unfold parts
  simp only [List.forall_mem_cons]
  exact ⟨hheader, hprofile, Folder.isStorable_toDatum r.tree hmodified,
    Outline.isStorable_toDatum h.areas, hpackages, isStorable_graphDatum h.nodes,
    Figures.isStorable_toDatum h.histogram, hverdict, isStorable_findings h.security, hcounsel,
    by simp⟩

/-- The findings of a survey whose integers can be shown are plain. -/
theorem isPlain_of_isShowable {r : Survey} (h : r.IsTyped)
    (hshow : (ofSurvey r).toDatum.isShowable = true) :
    (∀ f ∈ r.verdict.findings, f.IsPlain) ∧ ∀ f ∈ r.security, f.IsPlain := by
  rw [toDatum, Datum.isShowable, membersAreShowable_iff] at hshow
  have hlist : ∀ fs : List Finding, (Datum.list (fs.map Finding.toDatum)).isShowable = true →
      ∀ f ∈ fs, f.toDatum.isShowable = true := by
    intro fs hfs
    rw [Datum.isShowable, areShowable_iff, List.forall_mem_map] at hfs
    exact hfs
  constructor
  · have hverdict : (ofSurvey r).verdictDatum.isShowable = true :=
      hshow ("quality", (ofSurvey r).verdictDatum) (by simp [parts, verdictDatum])
    rw [verdictDatum, Datum.isShowable, membersAreShowable_iff] at hverdict
    have hfindings := hlist r.verdict.findings
      (hverdict ("findings", _) (List.mem_cons_of_mem _ List.mem_cons_self))
    exact fun f hf => (h.findings f hf).isPlain (hfindings f hf)
  · have hsecurity := hlist r.security
      (hshow ("security", .list (r.security.map Finding.toDatum)) (by simp [parts, ofSurvey]))
    exact fun f hf => (h.security f hf).isPlain (hsecurity f hf)

/-! ### Depth and room -/

/-- The steps into a member are fewer than those into its table. -/
theorem steps_le_of_mem {p : String × Datum} {kvs : List (String × Datum)} (h : p ∈ kvs) :
    steps p.2 + 1 ≤ steps (.table kvs) := by
  rw [steps, Nat.add_comm 1, Nat.add_le_add_iff_right]
  induction kvs with
  | nil => cases h
  | cons q kvs ih =>
    obtain ⟨k, v⟩ := q
    rw [stepsOfMembers]
    rcases List.mem_cons.mp h with rfl | h
    · exact Nat.le_max_left _ _
    · exact Nat.le_trans (ih h) (Nat.le_max_right _ _)

/-- The steps into an item are no more than those into the items together. -/
theorem steps_le_stepsOf {d : Datum} {ds : List Datum} (h : d ∈ ds) : steps d ≤ stepsOf ds := by
  induction ds with
  | nil => cases h
  | cons e ds ih =>
    rw [stepsOf]
    rcases List.mem_cons.mp h with rfl | h
    · exact Nat.le_max_left _ _
    · exact Nat.le_trans (ih h) (Nat.le_max_right _ _)

/-- A list of texts is one deep at most. -/
theorem depth_texts_le_one (ss : List String) : (Datum.list (texts ss)).depth ≤ 1 :=
  depth_texts_le ss

/-- A text that may be missing has no depth. -/
theorem depth_ofText? (s : Option String) : (Datum.ofText? s).depth = 0 := by
  cases s <;> rfl

/-- A file is three deep at most. -/
theorem File.depth_toDatum_le (r : FileRecord) : (File.ofRecord r).toDatum.depth ≤ 3 := by
  have hkind : (File.ofRecord r).kindDatum.depth ≤ 2 := by
    unfold File.kindDatum
    rw [depth_table_le_iff]
    simp only [List.forall_mem_cons]
    exact ⟨Nat.zero_le _, by simp [File.ofRecord, depth_ofText?], depth_texts_le_one _, by simp⟩
  unfold File.toDatum
  rw [depth_table_le_iff]
  simp only [List.forall_mem_cons]
  exact ⟨Nat.zero_le _, Nat.zero_le _, Nat.zero_le _, hkind, Nat.zero_le _, Nat.zero_le _, by simp⟩

/-- A file takes five steps at least. -/
theorem File.steps_toDatum_ge (r : FileRecord) : 5 ≤ steps (File.ofRecord r).toDatum := by
  have hlanguage : steps (.text r.kind.language) + 1 ≤ steps (File.ofRecord r).kindDatum :=
    steps_le_of_mem (p := ("language", .text r.kind.language)) List.mem_cons_self
  have hkind : steps (File.ofRecord r).kindDatum + 1 ≤ steps (File.ofRecord r).toDatum :=
    steps_le_of_mem (p := ("kind", (File.ofRecord r).kindDatum)) (by simp [File.kindDatum])
  exact Nat.le_trans (Nat.succ_le_succ hlanguage) hkind

/-- What is in a list does not go as far down as the list. -/
theorem depth_list_add_le {ds : List Datum} {n : Nat} (hn : 4 ≤ n) (hsteps : steps (.list ds) < n)
    (h : ∀ d ∈ ds, d.depth + 1 ≤ steps d) : (Datum.list ds).depth + 3 ≤ n := by
  obtain ⟨k, rfl⟩ : ∃ k, n = k + 4 := ⟨n - 4, by omega⟩
  have hlist : (Datum.list ds).depth ≤ k + 1 := by
    rw [depth_list_le_iff]
    intro d hd
    have hle := steps_le_stepsOf hd
    have hd := h d hd
    rw [steps] at hsteps
    omega
  omega

mutual

/-- Laying out a directory takes more steps down than its containers nest. -/
theorem Folder.depth_add_two_le (d : Directory) :
    (Folder.ofDirectory d).toDatum.depth + 2 ≤ steps (Folder.ofDirectory d).toDatum :=
  match d with
  | .node name path purpose ds fs count size readable => by
      rw [Folder.ofDirectory, Folder.toDatum]
      generalize hdirs : Datum.list (Folder.toData (Folder.ofDirectories ds)) = dirs
      generalize hfiles : Datum.list ((fs.map File.ofRecord).map File.toDatum) = files
      generalize hms : [("name", Datum.text name), ("path", Datum.text path),
        ("purpose", Datum.text purpose), ("directories", dirs), ("files", files),
        ("file_count", Datum.nat count), ("size", Datum.nat size),
        ("readable", Datum.bool readable)] = ms
      have hname : 4 ≤ steps (.table ms) :=
        steps_le_of_mem (p := ("name", .text name)) (by rw [← hms]; exact List.mem_cons_self)
      have hdirsSteps : steps dirs < steps (.table ms) :=
        steps_le_of_mem (p := ("directories", dirs)) (by rw [← hms]; simp)
      have hfilesSteps : steps files < steps (.table ms) :=
        steps_le_of_mem (p := ("files", files)) (by rw [← hms]; simp)
      have hdirsDepth : dirs.depth + 3 ≤ steps (.table ms) := by
        rw [← hdirs] at hdirsSteps ⊢
        refine depth_list_add_le hname hdirsSteps fun d hd => ?_
        exact Nat.le_of_succ_le (Folder.depth_add_two_le_of_mem ds d hd)
      have hfilesDepth : files.depth + 3 ≤ steps (.table ms) := by
        rw [← hfiles, List.map_map] at hfilesSteps ⊢
        refine depth_list_add_le hname hfilesSteps (List.forall_mem_map.mpr fun r _ => ?_)
        exact Nat.le_trans (Nat.succ_le_succ (File.depth_toDatum_le r))
          (Nat.le_of_succ_le (File.steps_toDatum_ge r))
      obtain ⟨k, hk⟩ : ∃ k, steps (.table ms) = k + 3 := ⟨steps (.table ms) - 3, by omega⟩
      have htable : (Datum.table ms).depth ≤ k + 1 := by
        rw [depth_table_le_iff, ← hms]
        simp only [List.forall_mem_cons]
        exact ⟨Nat.zero_le _, Nat.zero_le _, Nat.zero_le _, by omega, by omega, Nat.zero_le _,
          Nat.zero_le _, Nat.zero_le _, by simp⟩
      omega

/-- The depth of a folder lies well below its steps. -/
theorem Folder.depth_add_two_le_of_mem (ds : List Directory) :
    ∀ d ∈ Folder.toData (Folder.ofDirectories ds), d.depth + 2 ≤ steps d :=
  match ds with
  | [] => by
      rw [Folder.ofDirectories, Folder.toData]
      exact List.forall_mem_nil _
  | d :: ds => by
      rw [Folder.ofDirectories, Folder.toData, List.forall_mem_cons]
      exact ⟨Folder.depth_add_two_le d, Folder.depth_add_two_le_of_mem ds⟩

end

/-- A list is one deeper than what it is made from at most. -/
theorem depth_list_map_le {α : Type} {f : α → Datum} {items : List α} {n : Nat}
    (h : ∀ a ∈ items, (f a).depth ≤ n) : (Datum.list (items.map f)).depth ≤ n + 1 := by
  rw [depth_list_le_iff, List.forall_mem_map]
  exact h

/-- So is a mapping. -/
theorem depth_mapping_le {α : Type} {f : α → Datum} {mapping : Assoc String α} {n : Nat}
    (h : ∀ p ∈ mapping, (f p.2).depth ≤ n) :
    (Datum.table (mapping.map fun p => (p.1, f p.2))).depth ≤ n + 1 := by
  rw [depth_table_le_iff, List.forall_mem_map]
  exact h

/-- A list of plain findings is two deep at most. -/
theorem depth_findings_le {fs : List Finding} (h : ∀ f ∈ fs, f.IsPlain) :
    (Datum.list (fs.map Finding.toDatum)).depth ≤ 2 :=
  depth_list_map_le fun f hf => Finding.depth_toDatum_le (h f hf)

/-- An outline is four deep at most. -/
theorem Outline.depth_toDatum_le (l : Layout) : (Outline.ofLayout l).toDatum.depth ≤ 4 := by
  have hareas : (Datum.table ((Outline.ofLayout l).areas.map fun p => (p.1, p.2.toDatum))).depth ≤
      3 := by
    refine depth_mapping_le fun p hp => ?_
    obtain ⟨q, -, rfl⟩ := List.mem_map.mp hp
    show (Area.ofSummary q.2).toDatum.depth ≤ 2
    unfold Area.toDatum
    rw [depth_table_le_iff]
    simp only [List.forall_mem_cons]
    exact ⟨Nat.zero_le _, Nat.zero_le _, Nat.zero_le _, depth_texts_le_one _, by simp⟩
  have htexts : ∀ ss, (Datum.list (texts ss)).depth ≤ 3 :=
    fun ss => Nat.le_trans (depth_texts_le_one ss) (by decide)
  unfold Outline.toDatum
  rw [depth_table_le_iff]
  simp only [List.forall_mem_cons]
  exact ⟨hareas, htexts _, htexts _, by simp⟩

/-- A graph is four deep at most. -/
theorem depth_graphDatum_le (r : Survey) : (ofSurvey r).graphDatum.depth ≤ 4 := by
  have htexts : ∀ ss, (Datum.list (texts ss)).depth ≤ 1 := depth_texts_le_one
  have hnodes : (Datum.table ((ofSurvey r).nodes.map fun p => (p.1, p.2.toDatum))).depth ≤ 3 := by
    refine depth_mapping_le fun p hp => ?_
    obtain ⟨q, -, rfl⟩ := List.mem_map.mp hp
    show (Node.ofGraphNode q.2).toDatum.depth ≤ 2
    unfold Node.toDatum
    rw [depth_table_le_iff]
    simp only [List.forall_mem_cons]
    exact ⟨Nat.zero_le _, by simp [Node.ofGraphNode, depth_ofText?], htexts _, htexts _,
      by simp [Node.ofGraphNode, depth_ofText?], by simp⟩
  have hedges : (Datum.list ((ofSurvey r).edges.map Edge.toDatum)).depth ≤ 3 := by
    refine depth_list_map_le fun e he => ?_
    obtain ⟨g, -, rfl⟩ := List.mem_map.mp he
    unfold Edge.toDatum
    rw [depth_table_le_iff]
    simp only [List.forall_mem_cons]
    exact ⟨Nat.zero_le _, Nat.zero_le _, Nat.zero_le _, Nat.zero_le _, Nat.zero_le _, by simp⟩
  unfold graphDatum
  rw [depth_table_le_iff]
  simp only [List.forall_mem_cons]
  exact ⟨hnodes, hedges, by simp⟩

/-- The steps into the tree are fewer than those into the snapshot. -/
theorem steps_tree_lt (r : Survey) :
    steps (Folder.ofDirectory r.tree).toDatum < steps (ofSurvey r).toDatum :=
  steps_le_of_mem (p := ("tree", (Folder.ofDirectory r.tree).toDatum))
    (List.mem_cons_of_mem _ (List.mem_cons_of_mem _ List.mem_cons_self))

/-- **What there is room to lay out does not nest too deeply to be read.** -/
theorem depth_toDatum_le {r : Survey} (hfindings : ∀ f ∈ r.verdict.findings, f.IsPlain)
    (hplain : ∀ f ∈ r.security, f.IsPlain)
    (hroom : steps (ofSurvey r).toDatum ≤ room) : (ofSurvey r).toDatum.depth ≤ nestingLimit := by
  have htexts : ∀ ss, (Datum.list (texts ss)).depth ≤ 983 :=
    fun ss => Nat.le_trans (depth_texts_le_one ss) (by decide)
  have hheader : (ofSurvey r).header.toDatum.depth ≤ 984 := by
    unfold Header.toDatum
    rw [depth_table_le_iff]
    simp only [List.forall_mem_cons]
    exact ⟨Nat.zero_le _, Nat.zero_le _, Nat.zero_le _, Nat.zero_le _, htexts _, by simp⟩
  have hprofile : (ofSurvey r).profile.toDatum.depth ≤ 984 := by
    unfold Profile.toDatum
    rw [depth_table_le_iff]
    simp only [List.forall_mem_cons]
    exact ⟨Nat.zero_le _, Nat.zero_le _, htexts _, Nat.zero_le _, Nat.zero_le _, htexts _, by simp⟩
  have htree : (ofSurvey r).tree.toDatum.depth ≤ 984 := by
    have hsteps : steps (ofSurvey r).tree.toDatum < steps (ofSurvey r).toDatum := steps_tree_lt r
    have hdepth : (ofSurvey r).tree.toDatum.depth + 2 ≤ steps (ofSurvey r).tree.toDatum :=
      Folder.depth_add_two_le r.tree
    unfold room at hroom
    omega
  have houtline : (ofSurvey r).outline.toDatum.depth ≤ 984 :=
    Nat.le_trans (Outline.depth_toDatum_le r.layout) (by decide)
  have hpackages : (ofSurvey r).packages.toDatum.depth ≤ 984 := by
    unfold Packages.toDatum
    rw [depth_table_le_iff]
    simp only [List.forall_mem_cons]
    exact ⟨htexts _, htexts _, htexts _, by simp⟩
  have hgraph : (ofSurvey r).graphDatum.depth ≤ 984 :=
    Nat.le_trans (depth_graphDatum_le r) (by decide)
  have hfigures : (ofSurvey r).figures.toDatum.depth ≤ 984 := by
    have hhistogram : (Datum.table (r.metrics.histogram.map fun p => (p.1, Datum.int p.2))).depth ≤
        983 := depth_mapping_le fun p _ => Nat.zero_le _
    unfold Figures.toDatum
    rw [depth_table_le_iff]
    simp only [List.forall_mem_cons]
    exact ⟨Nat.zero_le _, Nat.zero_le _, hhistogram, Nat.zero_le _, by simp⟩
  have hverdict : (ofSurvey r).verdictDatum.depth ≤ 984 := by
    unfold verdictDatum
    rw [depth_table_le_iff]
    simp only [List.forall_mem_cons]
    exact ⟨Nat.zero_le _, Nat.le_trans (depth_findings_le hfindings) (by decide), htexts _, by simp⟩
  have hsecurity : (Datum.list ((ofSurvey r).security.map Finding.toDatum)).depth ≤ 984 :=
    Nat.le_trans (depth_findings_le hplain) (by decide)
  have hcounsel : (ofSurvey r).counsel.toDatum.depth ≤ 984 := by
    unfold Counsel.toDatum
    rw [depth_table_le_iff]
    simp only [List.forall_mem_cons]
    exact ⟨htexts _, Nat.zero_le _, Nat.zero_le _, htexts _, Nat.zero_le _, htexts _, by simp⟩
  unfold toDatum parts nestingLimit
  rw [depth_table_le_iff]
  simp only [List.forall_mem_cons]
  exact ⟨hheader, hprofile, htree, houtline, hpackages, hgraph, hfigures, hverdict, hsecurity,
    hcounsel, by simp⟩

/-! ### Writing again -/

/-- The steps into members do not depend on their order. -/
theorem stepsOfMembers_eq_of_perm {kvs kvs' : List (String × Datum)} (h : kvs.Perm kvs') :
    stepsOfMembers kvs = stepsOfMembers kvs' := by
  induction h with
  | nil => rfl
  | cons p _ ih =>
    obtain ⟨k, d⟩ := p
    rw [stepsOfMembers, stepsOfMembers, ih]
  | swap p q kvs =>
    obtain ⟨k, d⟩ := p
    obtain ⟨l, e⟩ := q
    rw [stepsOfMembers, stepsOfMembers, stepsOfMembers, stepsOfMembers, Nat.max_left_comm]
  | trans _ _ ih ih' => rw [ih, ih']

mutual

/-- Sorting the keys takes no more steps and no fewer, -/
theorem steps_sortKeys (d : Datum) : steps (sortKeys d) = steps d :=
  match d with
  | .list ds => by rw [sortKeys, steps, steps, stepsOf_sortItems ds]
  | .table kvs => by
      rw [sortKeys, steps, steps, stepsOfMembers_eq_of_perm (sortMembers_perm _),
        stepsOfMembers_sortValues kvs]
  | .null => rfl
  | .bool _ => rfl
  | .int _ => rfl
  | .real _ => rfl
  | .text _ => rfl
  | .moment _ _ => rfl

/-- into the items of a list -/
theorem stepsOf_sortItems (ds : List Datum) : stepsOf (sortItems ds) = stepsOf ds :=
  match ds with
  | [] => rfl
  | d :: ds => by rw [sortItems, stepsOf, stepsOf, steps_sortKeys d, stepsOf_sortItems ds]

/-- and into the members of a table. -/
theorem stepsOfMembers_sortValues (kvs : List (String × Datum)) :
    stepsOfMembers (sortValues kvs) = stepsOfMembers kvs :=
  match kvs with
  | [] => rfl
  | (k, d) :: kvs => by
      rw [sortValues, stepsOfMembers, stepsOfMembers, steps_sortKeys d,
        stepsOfMembers_sortValues kvs]

end

/-- A mapping in the order of its keys is laid out and sorted as before. -/
theorem sortKeys_mapping_inOrder {α : Type} (f : α → Datum) (mapping : Assoc String α) :
    sortKeys (.table ((sortMembers mapping).map fun p => (p.1, f p.2))) =
      sortKeys (.table (mapping.map fun p => (p.1, f p.2))) := by
  rw [sortKeys_mapping, sortKeys_mapping, sortMembers_sortMembers]

/-- **The order of mappings is not written.** -/
theorem sortKeys_inOrder (r : Survey) :
    sortKeys (ofSurvey r.inOrder).toDatum = sortKeys (ofSurvey r).toDatum := by
  have hareas : sortKeys (.table ((ofSurvey r.inOrder).outline.areas.map fun p =>
      (p.1, p.2.toDatum))) = sortKeys (.table ((ofSurvey r).outline.areas.map fun p =>
        (p.1, p.2.toDatum))) := by
    show sortKeys (.table (((sortMembers r.layout.directories).map _).map _)) =
      sortKeys (.table ((r.layout.directories.map _).map _))
    rw [List.map_map, List.map_map]
    exact sortKeys_mapping_inOrder (fun s => (Area.ofSummary s).toDatum) r.layout.directories
  have hnodes : sortKeys (.table ((ofSurvey r.inOrder).nodes.map fun p => (p.1, p.2.toDatum))) =
      sortKeys (.table ((ofSurvey r).nodes.map fun p => (p.1, p.2.toDatum))) := by
    show sortKeys (.table (((sortMembers r.graph.nodes).map _).map _)) =
      sortKeys (.table ((r.graph.nodes.map _).map _))
    rw [List.map_map, List.map_map]
    exact sortKeys_mapping_inOrder (fun n => (Node.ofGraphNode n).toDatum) r.graph.nodes
  have hhistogram : sortKeys (ofSurvey r.inOrder).figures.histogram =
      sortKeys (ofSurvey r).figures.histogram :=
    sortKeys_mapping_inOrder Datum.int r.metrics.histogram
  have houtline : sortKeys (ofSurvey r.inOrder).outline.toDatum =
      sortKeys (ofSurvey r).outline.toDatum := by
    unfold Outline.toDatum
    rw [sortKeys, sortKeys, sortValues, sortValues, hareas]
    rfl
  have hgraph : sortKeys (ofSurvey r.inOrder).graphDatum = sortKeys (ofSurvey r).graphDatum := by
    unfold graphDatum
    rw [sortKeys, sortKeys, sortValues, sortValues, hnodes]
    rfl
  have hfigures : sortKeys (ofSurvey r.inOrder).figures.toDatum =
      sortKeys (ofSurvey r).figures.toDatum := by
    unfold Figures.toDatum
    rw [sortKeys, sortKeys]
    simp only [sortValues, hhistogram]
    rfl
  have hparts : sortValues (ofSurvey r.inOrder).parts = sortValues (ofSurvey r).parts := by
    show sortValues [_, _, _, _, _, ("graph", (ofSurvey r.inOrder).graphDatum), _, _, _, _] =
      sortValues [_, _, _, _, _, ("graph", (ofSurvey r).graphDatum), _, _, _, _]
    simp only [sortValues, houtline, hgraph, hfigures]
    rfl
  unfold toDatum
  rw [sortKeys, sortKeys, hparts]

/-- **The text of a survey is made** if there is room and its integers can be shown. -/
theorem text?_eq (r : Survey) :
    (ofSurvey r).text? =
      if room < steps (ofSurvey r).toDatum then .error .tooDeep
      else if (ofSurvey r).toDatum.isShowable then .ok (pretty (ofSurvey r).toDatum)
      else .error (.invalid Failure.unshowableText) := by
  unfold text? layOut withinRoom
  by_cases hroom : steps (ofSurvey r).toDatum ≤ room
  · rw [if_pos hroom, if_neg (Nat.not_lt.mpr hroom)]
    rfl
  · rw [if_neg hroom, if_pos (Nat.not_le.mp hroom)]
    rfl

/-- A snapshot has a text when its steps fit into the room and its numbers can be shown. -/
theorem text?_eq_ok_iff {r : Survey} {text : List Char} :
    (ofSurvey r).text? = .ok text ↔ steps (ofSurvey r).toDatum ≤ room ∧
      (ofSurvey r).toDatum.isShowable = true ∧ pretty (ofSurvey r).toDatum = text := by
  rw [text?_eq]
  split
  · next hroom => simp [Nat.not_le.mpr hroom]
  · next hroom =>
    split
    · next hshow => simp [Nat.not_lt.mp hroom, hshow]
    · next hshow => simp [hshow]

/-- The order of mappings is not in the text. -/
theorem text?_inOrder {r : Survey} {text : List Char} (h : (ofSurvey r).text? = .ok text) :
    (ofSurvey r.inOrder).text? = .ok text := by
  obtain ⟨hroom, hshow, rfl⟩ := text?_eq_ok_iff.mp h
  have hsteps : steps (ofSurvey r.inOrder).toDatum = steps (ofSurvey r).toDatum := by
    rw [← steps_sortKeys, sortKeys_inOrder, steps_sortKeys]
  have hsame : (ofSurvey r.inOrder).toDatum.isShowable = (ofSurvey r).toDatum.isShowable := by
    rw [← isShowable_sortKeys, sortKeys_inOrder, isShowable_sortKeys]
  refine text?_eq_ok_iff.mpr ⟨hsteps.trans_le hroom, hsame.trans hshow, ?_⟩
  unfold pretty
  rw [sortKeys_inOrder]

/-! ### Reading the text -/

/-- **The text of a survey is read as the survey**, its mappings in the order of their keys. -/
theorem ofText_of_text? {r : Survey} (h : r.IsTyped)
    (hmodified : ∀ f ∈ r.tree.allFiles, IsRestored f.modified) {text : List Char}
    (htext : (ofSurvey r).text? = .ok text) :
    (∀ c ∈ text, Text.IsKept c) ∧ ofText text = .ok (some (ofSurvey r.inOrder)) := by
  obtain ⟨hroom, hshow, rfl⟩ := text?_eq_ok_iff.mp htext
  have hwritable := isStorable_toDatum h hmodified hshow
  obtain ⟨hfindings, hsecurity⟩ := isPlain_of_isShowable h hshow
  refine ⟨isKept_pretty hwritable, ?_⟩
  have hread := ofDatum_sortKeys hfindings hsecurity
  obtain ⟨ms, hms, -⟩ := (isRecord_toDatum (ofSurvey r)).exists_members
  rw [hms] at hread
  unfold ofText
  rw [parse_pretty hwritable (depth_toDatum_le hfindings hsecurity hroom), hms]
  dsimp only
  rw [hread]

end Snapshot

end ProjectSurvey
