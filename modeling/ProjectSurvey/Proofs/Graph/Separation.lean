import ProjectSurvey.Proofs.Graph.Impact
import ProjectSurvey.Proofs.Graph.Nodes

/-!
# Packages and files under one roof

Files and packages share the keys of a graph, and what comes first keeps its key: files come before
packages. **A declared package has a node of its own exactly if no file that is a node has its name,
and a reference to it counts as one between files exactly if some file has its name**
(`build_tellsApart`). So packages and files are told apart where no package is called like a file,
and only there (`build_namesake`).
-/

namespace ProjectSurvey.Graph

variable {t : Tables} {records : List FileRecord} {evidence : Assoc String Evidence}
  {manifests : Manifests}

/-! ### Where the nodes come from -/

/-- The node of a source is not of the kind that packages have. -/
theorem kind_sourceNode_ne (r : FileRecord) (facts : Option Evidence) :
    (sourceNode r facts).kind ≠ "external" := by
  have hsource := isSource_sourceNode r facts
  simp only [GraphNode.isSource, Bool.and_eq_true, bne_iff_ne] at hsource
  exact hsource.1

/-- A node that is there once the assets are added was there before, or it is an asset: a file to
which a resolved edge leads. -/
theorem of_mem_addAssets {edges : List GraphEdge} {nodes : Assoc String GraphNode}
    {p : String × GraphNode} (h : p ∈ edges.foldl (addAsset records) nodes) :
    p ∈ nodes ∨ p.2.kind = "asset" ∧ p.1 ∈ records.map FileRecord.path ∧
      ∃ e ∈ edges, e.unresolved = false ∧ e.target = p.1 := by
  induction edges generalizing nodes with
  | nil => exact .inl h
  | cons e rest ih =>
    rw [List.foldl_cons] at h
    rcases ih h with h | ⟨hkind, hpath, e', he', haim⟩
    · unfold addAsset at h
      split at h
      · exact .inl h
      · next hnew =>
        rw [Bool.or_eq_true, not_or, Bool.not_eq_true] at hnew
        split at h
        · next r hfind =>
          rcases Assoc.of_mem_insert h with rfl | h
          · have hr : r ∈ records := List.mem_reverse.mp (List.mem_of_find?_eq_some hfind)
            have hpath : r.path = e.target := by simpa using List.find?_some hfind
            exact .inr ⟨rfl, hpath ▸ List.mem_map_of_mem hr, e, List.mem_cons_self, hnew.1, rfl⟩
          · exact .inl h
        · exact .inl h
    · exact .inr ⟨hkind, hpath, e', List.mem_cons_of_mem e he', haim⟩

/-- A node is that of a source file, an asset to which a resolved edge leads, or that of a declared
package. -/
theorem of_mem_nodes_build (hpaths : (records.map FileRecord.path).Nodup) {p : String × GraphNode}
    (h : p ∈ (build t records evidence manifests).nodes) :
    (∃ r ∈ sourcesOf t records, r.path = p.1 ∧ p.2.kind ≠ "external") ∨
      (p.2.kind = "asset" ∧ p.1 ∈ records.map FileRecord.path ∧
        ∃ e ∈ (build t records evidence manifests).edges,
          e.unresolved = false ∧ e.target = p.1) ∨
      ∃ version, (p.1, version) ∈ declaredVersions manifests ∧ p.2.kind = "external" ∧
        p.2.version = some version := by
  rw [nodes_build] at h
  rcases of_mem_addNew h with h | ⟨⟨name, version⟩, hversion, rfl⟩
  · rcases of_mem_addAssets h with h | h
    · rw [sourceNodes_eq_map hpaths] at h
      obtain ⟨r, hr, rfl⟩ := List.mem_map.mp h
      exact .inl ⟨r, hr, rfl, kind_sourceNode_ne r _⟩
    · exact .inr (.inl h)
  · exact .inr (.inr ⟨version, hversion, rfl, rfl⟩)

/-- What is there before the packages come is a file, and stays. -/
theorem isInternal_of_mem_keys (hpaths : (records.map FileRecord.path).Nodup) {path : String}
    (h : path ∈ Assoc.keys ((build t records evidence manifests).edges.foldl (addAsset records)
      (sourceNodes t records evidence))) :
    (build t records evidence manifests).IsInternal path := by
  obtain ⟨⟨path, node⟩, hnode, rfl⟩ := List.mem_map.mp h
  obtain ⟨packages, hnodes, -⟩ := exists_addNew_eq_append
    ((build t records evidence manifests).edges.foldl (addAsset records)
      (sourceNodes t records evidence)) (declaredVersions manifests)
    fun version => (⟨"external", none, [], [], some version⟩ : GraphNode)
  refine ⟨node, ?_, ?_⟩
  · rw [nodes_build, hnodes]
    exact List.mem_append_left _ hnode
  · rcases of_mem_addAssets hnode with hnode | ⟨hkind, -⟩
    · rw [sourceNodes_eq_map hpaths] at hnode
      obtain ⟨r, -, heq⟩ := List.mem_map.mp hnode
      rw [← (Prod.mk.inj heq).2]
      exact kind_sourceNode_ne r _
    · rw [hkind]
      decide

/-- **The files of a graph are the source files and the known files to which a resolved edge
leads.** -/
theorem isInternal_build_iff (hpaths : (records.map FileRecord.path).Nodup) (path : String) :
    (build t records evidence manifests).IsInternal path ↔
      (∃ r ∈ sourcesOf t records, r.path = path) ∨
      path ∈ records.map FileRecord.path ∧
        ∃ e ∈ (build t records evidence manifests).edges,
          e.unresolved = false ∧ e.target = path := by
  constructor
  · rintro ⟨node, hnode, hkind⟩
    rcases of_mem_nodes_build hpaths hnode with ⟨r, hr, hpath, -⟩ | ⟨-, hasset⟩ |
      ⟨-, -, hpackage, -⟩
    · exact .inl ⟨r, hr, hpath⟩
    · exact .inr hasset
    · exact absurd hpackage hkind
  · rintro (⟨r, hr, rfl⟩ | ⟨hpath, e, he, hresolved, rfl⟩)
    · apply isInternal_of_mem_keys hpaths
      apply mem_keys_addAssets
      rw [sourceNodes_eq_map hpaths]
      exact List.mem_map_of_mem (List.mem_map_of_mem hr)
    · exact isInternal_of_mem_keys hpaths (target_mem_keys_addAssets he hresolved hpath)

/-! ### Packages with a node of their own -/

/-- Whether a package has a node of its own, with a version that a manifest asks for. -/
def IsPackage (g : Graph) (manifests : Manifests) (name : String) : Prop :=
  ∃ node, (name, node) ∈ g.nodes ∧ node.kind = "external" ∧
    ∃ version, node.version = some version ∧ manifests.AskFor name version

/-- No internal node is a package. -/
theorem not_isPackage_of_isInternal {name : String}
    (h : (build t records evidence manifests).IsInternal name) :
    ¬ (build t records evidence manifests).IsPackage manifests name := by
  rintro ⟨package, hpackage, hexternal, -⟩
  obtain ⟨file, hfile, hinternal⟩ := h
  -- no key comes twice
  have hnodup : (Assoc.keys (build t records evidence manifests).nodes).Nodup := nodup_keys_build
  have hsame := ((Assoc.get?_eq_some_iff hnodup).mpr hpackage).symm.trans
    ((Assoc.get?_eq_some_iff hnodup).mpr hfile)
  rw [← Option.some.inj hsame] at hinternal
  exact hinternal hexternal

/-- A declared package is a key, and it has its own node unless a file of its name is one. -/
theorem isPackage_iff (hpaths : (records.map FileRecord.path).Nodup) {name : String}
    (h : manifests.Declare name) :
    (build t records evidence manifests).IsPackage manifests name ↔
      ¬ (build t records evidence manifests).IsInternal name := by
  refine ⟨fun hpackage hinternal => not_isPackage_of_isInternal hinternal hpackage, ?_⟩
  intro hfree
  have hkey : name ∈ Assoc.keys (build t records evidence manifests).nodes := by
    rw [nodes_build, mem_keys_addNew]
    exact .inr ((mem_keys_declaredVersions manifests name).mpr h)
  obtain ⟨⟨name, node⟩, hnode, rfl⟩ := List.mem_map.mp hkey
  rcases of_mem_nodes_build hpaths hnode with ⟨-, -, -, hkind⟩ | ⟨hkind, -⟩ |
    ⟨version, hversion, hkind, hnodeVersion⟩
  · exact absurd ⟨node, hnode, hkind⟩ hfree
  · have hasset : node.kind = "asset" := hkind
    exact absurd ⟨node, hnode, by rw [hasset]; decide⟩ hfree
  · exact ⟨node, hnode, hkind, version, hnodeVersion, askFor_of_mem_declaredVersions hversion⟩

/-! ### References to packages -/

/-- A reference that is no path means a declared package, if modules have no say. -/
theorem declare_of_means {s : Scope} {r : FileRecord} {reference target : String}
    {unresolved : Bool} (hversions : s.versions = declaredVersions manifests)
    (hlanguage : r.language ≠ "python") (hpath : ¬ StartsLikePath reference)
    (h : Means s r reference target unresolved) :
    unresolved = false ∧ manifests.Declare target := by
  cases h with
  | path h => exact absurd h hpath
  | unknown h => exact absurd h hpath
  | outside h => exact absurd h hpath
  | module _ h => exact absurd h hlanguage
  | package _ _ hname =>
    rw [hversions, declaredAs?_eq_some_iff] at hname
    exact ⟨rfl, hname.1⟩

/-- An edge of a graph that is resolved leads to a file exactly if a file has the name it aims at.
-/
theorem refers_iff_of_mem_edges (hpaths : (records.map FileRecord.path).Nodup) {e : GraphEdge}
    (he : e ∈ (build t records evidence manifests).edges) (hresolved : e.unresolved = false) :
    (build t records evidence manifests).network.Refers e.source e.target ↔
      e.target ∈ records.map FileRecord.path := by
  rw [refers_network]
  constructor
  · rintro ⟨-, htarget, -⟩
    rcases (isInternal_build_iff hpaths e.target).mp htarget with ⟨r, hr, hpath⟩ | ⟨hpath, -⟩
    · exact hpath ▸ List.mem_map_of_mem ((mem_sourcesOf t records r).mp hr).1
    · exact hpath
  · intro htarget
    obtain ⟨r, hr, hedge⟩ := (mem_edges_build t records evidence manifests e).mp he
    refine ⟨(isInternal_build_iff hpaths e.source).mpr (.inl ⟨r, hr, ?_⟩),
      (isInternal_build_iff hpaths e.target).mpr (.inr ⟨htarget, e, he, hresolved, rfl⟩),
      e, he, rfl, rfl, hresolved⟩
    exact (source_of_mem_edgesFrom hedge).symm

/-! ### Files and packages -/

/-- How far a graph tells the declared packages from the files. -/
structure TellsApart (t : Tables) (records : List FileRecord) (manifests : Manifests) (g : Graph) :
    Prop where
  /-- A declared package has a node of its own, with a version that was asked for, exactly if no
  file that is a node has its name. -/
  package : ∀ name, manifests.Declare name → (g.IsPackage manifests name ↔ ¬ g.IsInternal name)
  /-- The files that are nodes are the source files and the files to which a resolved edge leads. -/
  file : ∀ path, g.IsInternal path ↔
    (∃ r ∈ records, t.isCountable r.language = true ∧ r.path = path) ∨
    path ∈ records.map FileRecord.path ∧ ∃ e ∈ g.edges, e.unresolved = false ∧ e.target = path
  /-- A reference that is no path, of a file in which it can be no module either, means a declared
  package, and it counts as a reference between files exactly if some file has the name of that. -/
  reference : ∀ e ∈ g.edges, ∀ r ∈ records, r.path = e.source → r.language ≠ "python" →
    ¬ StartsLikePath e.reference →
      e.unresolved = false ∧ manifests.Declare e.target ∧
        (g.network.Refers e.source e.target ↔ e.target ∈ records.map FileRecord.path)

/-- **Packages and files are told apart exactly where no file has the name of a package.** -/
theorem build_tellsApart (t : Tables) (records : List FileRecord)
    (hpaths : (records.map FileRecord.path).Nodup) (evidence : Assoc String Evidence)
    (manifests : Manifests) :
    TellsApart t records manifests (build t records evidence manifests) where
  package name h := isPackage_iff hpaths h
  file path := by
    simp only [isInternal_build_iff hpaths, mem_sourcesOf, and_assoc]
  reference e he r hr hsource hlanguage hpath := by
    obtain ⟨r', hr', hedge⟩ := (mem_edges_build t records evidence manifests e).mp he
    have hrecord := ((mem_sourcesOf t records r').mp hr').1
    obtain rfl : r = r' :=
      List.inj_on_of_nodup_map hpaths hr hrecord (hsource.trans (source_of_mem_edgesFrom hedge))
    obtain ⟨-, hfor, -⟩ := mem_edgesFrom hedge
    obtain ⟨hresolved, hdeclared⟩ :=
      declare_of_means rfl hlanguage hpath ((edgeFor?_eq_some_iff _ r _ e).mp hfor).1
    exact ⟨hresolved, hdeclared, refers_iff_of_mem_edges hpaths he hresolved⟩

/-- A script that refers to a package, and one that has the name of that. -/
def namesakeRecords : List FileRecord := [
  ⟨"app.js", 18, ".js", ⟨"javascript", none, []⟩, .ofInt 0, 0⟩,
  ⟨"chart.js", 6, ".js", ⟨"javascript", none, []⟩, .ofInt 0, 0⟩]

/-- What is found in the scripts: a reference that is no path. -/
def namesakeEvidence : Assoc String Evidence :=
  [("app.js", ⟨"app.js", some 1, ["chart.js"], [], []⟩)]

/-- The manifest that declares the package. -/
def namesakeManifests : Manifests :=
  [("package.json", ⟨"package.json", [("chart.js", "^4.4.0")], [], [], []⟩)]

/-- The graph of the scripts, in which the name of the package is taken. -/
theorem build_tellsApart_namesake :
    (namesakeRecords.map FileRecord.path).Nodup ∧
      TellsApart .default namesakeRecords namesakeManifests
        (build .default namesakeRecords namesakeEvidence namesakeManifests) :=
  have hpaths : (namesakeRecords.map FileRecord.path).Nodup := by simp [namesakeRecords]
  ⟨hpaths, build_tellsApart .default namesakeRecords hpaths namesakeEvidence namesakeManifests⟩

/-- A package called like a script has no node of its own, and a reference to it that is no path
counts as a reference from one script to the other. -/
theorem build_namesake :
    (namesakeRecords.map FileRecord.path).Nodup ∧ namesakeManifests.Declare "chart.js" ∧
      ¬ (build .default namesakeRecords namesakeEvidence namesakeManifests).IsPackage
        namesakeManifests "chart.js" ∧
      ∃ e ∈ (build .default namesakeRecords namesakeEvidence namesakeManifests).edges,
        e.reference = "chart.js" ∧ ¬ StartsLikePath e.reference ∧ e.target = "chart.js" ∧
        (build .default namesakeRecords namesakeEvidence namesakeManifests).network.Refers
          e.source e.target := by
  have hpaths : (namesakeRecords.map FileRecord.path).Nodup := by simp [namesakeRecords]
  have hsources : sourcesOf .default namesakeRecords = namesakeRecords := by decide
  have hbare : ¬ StartsLikePath "chart.js" := by simp [StartsLikePath]
  have hdeclared : ∀ name, namesakeManifests.Declare name ↔ name = "chart.js" := by
    simp [Manifests.Declare, namesakeManifests, Assoc.keys]
  refine ⟨hpaths, (hdeclared _).mpr rfl, ?_, ?_⟩
  · apply not_isPackage_of_isInternal
    rw [isInternal_build_iff hpaths, hsources]
    simp [namesakeRecords]
  · obtain ⟨r, hr, hreferences, hlanguage⟩ : ∃ r ∈ sourcesOf .default namesakeRecords,
        referencesOf namesakeEvidence r = ["chart.js"] ∧ r.language = "javascript" := by
      rw [hsources]
      exact ⟨_, List.mem_cons_self, rfl, rfl⟩
    have hmeans : Means (scopeOf .default namesakeRecords namesakeManifests) r "chart.js" "chart.js"
        false := by
      apply Means.package hbare
      · simp [hlanguage]
      · have hpackage : packageOf "chart.js" r.language = "chart.js" := by
          rw [hlanguage]
          decide
        rw [hpackage]
        apply (declaredAs?_eq_some_iff _ _ _).mpr
        simp [hdeclared]
    have hmem : "chart.js" ∈ referencesOf namesakeEvidence r := by simp [hreferences]
    obtain ⟨e, hedge, htarget, hresolved⟩ :=
      (exists_mem_edgesFrom [] hmem hmeans).resolve_left List.not_mem_nil
    have he := (mem_edges_build .default _ _ namesakeManifests e).mpr ⟨r, hr, hedge⟩
    -- the edge comes from one of the references of the script, and there is just one
    have hreference : e.reference = "chart.js" := by
      obtain ⟨-, -, before, after, heq, -⟩ := mem_edgesFrom hedge
      have hamong : e.reference ∈ before ++ e.reference :: after := by simp
      simpa [← heq, hreferences] using hamong
    refine ⟨e, he, hreference, hreference ▸ hbare, htarget, ?_⟩
    rw [refers_iff_of_mem_edges hpaths he hresolved, htarget]
    simp [namesakeRecords]

end ProjectSurvey.Graph
