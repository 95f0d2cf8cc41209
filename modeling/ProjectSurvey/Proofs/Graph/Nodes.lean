import ProjectSurvey.Proofs.Graph.Edges

/-!
# The nodes of a graph

A graph is built in three rounds, for the source files, for the other files that references mean and
for the packages, and **no round touches the nodes of the rounds before**
(`exists_nodes_build_eq_append`). So the kind of a node tells the round in which it came: what is no
package is a file (`path_mem_of_internal`), and what is neither a package nor an asset is a source
file, one node for each (`countP_isSource`). A package that is called like a file gets no node.
-/

namespace ProjectSurvey

/-- Whether the node is a source file. -/
def GraphNode.isSource (n : GraphNode) : Bool := n.kind != "external" && n.kind != "asset"

namespace Graph

variable {t : Tables} {records : List FileRecord} {evidence : Assoc String Evidence}
  {manifests : Manifests}

/-- The node of a source is a source, whatever is known of the file. -/
theorem isSource_sourceNode (r : FileRecord) (facts : Option Evidence) :
    (sourceNode r facts).isSource = true := by
  have hfragments : ∀ p ∈ kindFragments, p.2 ≠ "external" ∧ p.2 ≠ "asset" := by decide
  have hkind : kindOf r ≠ "external" ∧ kindOf r ≠ "asset" := by
    unfold kindOf
    dsimp only
    split
    · decide
    · split
      · next hfind => exact hfragments _ (List.mem_of_find?_eq_some hfind)
      · decide
  simpa [GraphNode.isSource, sourceNode] using hkind

/-! ### Round by round -/

/-- The nodes of sources are made one by one when the paths are distinct. -/
theorem sourceNodes_eq_map (hpaths : (records.map FileRecord.path).Nodup) :
    sourceNodes t records evidence =
      (sourcesOf t records).map fun r => (r.path, sourceNode r (Assoc.get? r.path evidence)) := by
  have hnodup : ((sourcesOf t records).map FileRecord.path).Nodup :=
    hpaths.sublist (List.filter_sublist.map _)
  have hkeys : (Assoc.keys ([] : Assoc String GraphNode) ++
      (sourcesOf t records).map FileRecord.path).Nodup := hnodup
  rw [sourceNodes, Assoc.foldl_insert_of_nodup FileRecord.path _ _ hkeys, List.nil_append]

/-- A resolved edge adds at most one node, an asset for a file. -/
theorem addAsset_eq_or (nodes : Assoc String GraphNode) (e : GraphEdge) :
    addAsset records nodes e = nodes ∨ ∃ r ∈ records,
      addAsset records nodes e = nodes ++ [(r.path, ⟨"asset", some r.language, [], [], none⟩)] := by
  unfold addAsset
  split
  · exact .inl rfl
  · next hnew =>
    rw [Bool.or_eq_true, not_or, Assoc.has_iff_mem_keys] at hnew
    split
    · next r hfind =>
      have hpath : r.path = e.target := by simpa using List.find?_some hfind
      refine .inr ⟨r, List.mem_reverse.mp (List.mem_of_find?_eq_some hfind), ?_⟩
      rw [Assoc.insert_of_notMem hnew.2, hpath]
    · exact .inl rfl

/-- The second round adds assets for files. -/
theorem exists_addAssets_eq_append (records : List FileRecord) (edges : List GraphEdge)
    (nodes : Assoc String GraphNode) :
    ∃ assets, edges.foldl (addAsset records) nodes = nodes ++ assets ∧
      ∀ p ∈ assets, p.1 ∈ records.map FileRecord.path ∧ p.2.kind = "asset" := by
  induction edges generalizing nodes with
  | nil => exact ⟨[], (List.append_nil nodes).symm, nofun⟩
  | cons e rest ih =>
    rw [List.foldl_cons]
    obtain ⟨assets, hrest, hassets⟩ := ih (addAsset records nodes e)
    rw [hrest]
    rcases addAsset_eq_or nodes e with heq | ⟨r, hr, heq⟩
    · exact ⟨assets, by rw [heq], hassets⟩
    · refine ⟨_, by rw [heq, List.append_assoc], ?_⟩
      exact List.forall_mem_cons.mpr ⟨⟨List.mem_map_of_mem hr, rfl⟩, hassets⟩

/-- The third round adds packages. -/
theorem exists_addNew_eq_append {α β : Type} (t : Assoc String α) (pairs : List (String × β))
    (value : β → α) :
    ∃ new, addNew t pairs value = t ++ new ∧ ∀ p ∈ new, ∃ b, p.2 = value b := by
  induction pairs generalizing t with
  | nil => exact ⟨[], (List.append_nil t).symm, nofun⟩
  | cons p rest ih =>
    obtain ⟨new, hrest, hnew⟩ := ih (Assoc.insertNew p.1 (value p.2) t)
    show ∃ new, addNew (Assoc.insertNew p.1 (value p.2) t) rest value = t ++ new ∧ _
    rw [hrest, Assoc.insertNew]
    split
    · exact ⟨new, rfl, hnew⟩
    · refine ⟨_, List.append_assoc _ _ _, ?_⟩
      exact List.forall_mem_cons.mpr ⟨⟨p.2, rfl⟩, hnew⟩

/-- **The nodes of a graph are those of the source files, then assets, then packages.** -/
theorem exists_nodes_build_eq_append (t : Tables) (evidence : Assoc String Evidence)
    (manifests : Manifests) (hpaths : (records.map FileRecord.path).Nodup) :
    ∃ assets packages, (build t records evidence manifests).nodes =
        (sourcesOf t records).map (fun r =>
          (r.path, sourceNode r (Assoc.get? r.path evidence))) ++ assets ++ packages ∧
      (∀ p ∈ assets, p.1 ∈ records.map FileRecord.path ∧ p.2.kind = "asset") ∧
      ∀ p ∈ packages, p.2.isExternal = true := by
  obtain ⟨assets, hsecond, hassets⟩ := exists_addAssets_eq_append records
    (build t records evidence manifests).edges (sourceNodes t records evidence)
  obtain ⟨packages, hthird, hpackages⟩ := exists_addNew_eq_append
    ((build t records evidence manifests).edges.foldl (addAsset records)
      (sourceNodes t records evidence)) (declaredVersions manifests)
    fun version => (⟨"external", none, [], [], some version⟩ : GraphNode)
  refine ⟨assets, packages, ?_, hassets, ?_⟩
  · rw [nodes_build, hthird, hsecond, sourceNodes_eq_map hpaths]
  · intro p hp
    obtain ⟨version, hversion⟩ := hpackages p hp
    rw [hversion]
    rfl

/-! ### What the kinds tell -/

/-- No path or package has two nodes. -/
theorem nodup_keys_build : (Assoc.keys (build t records evidence manifests).nodes).Nodup := by
  have hadd : ∀ (nodes : Assoc String GraphNode) (e : GraphEdge), (Assoc.keys nodes).Nodup →
      (Assoc.keys (addAsset records nodes e)).Nodup := by
    intro nodes e h
    unfold addAsset
    split
    · exact h
    · split
      · exact Assoc.nodup_keys_insert _ _ h
      · exact h
  rw [nodes_build]
  apply nodup_keys_addNew
  apply List.foldlRecOn (motive := fun nodes => (Assoc.keys nodes).Nodup)
  · apply List.foldlRecOn (motive := fun nodes => (Assoc.keys nodes).Nodup)
    · exact List.nodup_nil
    · exact fun nodes h r _ => Assoc.nodup_keys_insert _ _ h
  · exact fun nodes h e _ => hadd nodes e h

/-- What is no package is a file. -/
theorem path_mem_of_internal (hpaths : (records.map FileRecord.path).Nodup) {p : String × GraphNode}
    (hp : p ∈ (build t records evidence manifests).nodes) (hinternal : p.2.isExternal = false) :
    p.1 ∈ records.map FileRecord.path := by
  obtain ⟨assets, packages, heq, hassets, hpackages⟩ :=
    exists_nodes_build_eq_append t evidence manifests hpaths
  rw [heq, List.mem_append, List.mem_append] at hp
  rcases hp with (hp | hp) | hp
  · obtain ⟨r, hr, rfl⟩ := List.mem_map.mp hp
    exact List.mem_map_of_mem ((mem_sourcesOf t records r).mp hr).1
  · exact (hassets p hp).1
  · rw [hpackages p hp] at hinternal
    cases hinternal

/-- **There are as many nodes of source files as there are source files.** -/
theorem countP_isSource (hpaths : (records.map FileRecord.path).Nodup) :
    (build t records evidence manifests).nodes.countP (fun p => p.2.isSource) =
      (sourcesOf t records).length := by
  obtain ⟨assets, packages, heq, hassets, hpackages⟩ :=
    exists_nodes_build_eq_append t evidence manifests hpaths
  have hassets₀ : assets.countP (fun p => p.2.isSource) = 0 := by
    rw [List.countP_eq_zero]
    intro p hp
    simp [GraphNode.isSource, (hassets p hp).2]
  have hpackages₀ : packages.countP (fun p => p.2.isSource) = 0 := by
    rw [List.countP_eq_zero]
    intro p hp
    have hkind : p.2.kind = "external" := by simpa [GraphNode.isExternal] using hpackages p hp
    simp [GraphNode.isSource, hkind]
  rw [heq, List.countP_append, List.countP_append, hassets₀, hpackages₀, Nat.add_zero,
    List.countP_map, List.countP_eq_length]
  intro r _
  exact isSource_sourceNode r _

end Graph

end ProjectSurvey
