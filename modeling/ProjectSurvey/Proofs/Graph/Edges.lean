import ProjectSurvey.Proofs.Graph.Packages

/-!
# The edges of a dependency graph

What the references of files come to (`Means`), and that the graph has exactly the edges for it.
**No reference edge is lost, doubled or left dangling** (`build_isFaithful`): every meaning of a
reference of a source file has its edge, every edge is the first reference of its file with that
meaning, and what an edge has found is a node.

The nodes come in three passes, source files, assets and packages, and the edges between the first
and the second; what ties them together is that each pass keeps the keys of those before it.
-/

namespace ProjectSurvey.Graph

/-! ### What a reference means -/

/-- Whether a reference starts like a path. -/
def StartsLikePath (reference : String) : Prop :=
  reference.toList.head? = some '.' ∨ reference.toList.head? = some '/'

/-- The first spelling of a path that is known. -/
def FirstKnown (s : Scope) (r : FileRecord) (base target : String) : Prop :=
  ∃ before after,
    Reference.candidates base (Assoc.get? r.language s.tables.resolutionProfiles) =
      before ++ target :: after ∧ target ∈ s.known ∧ ∀ c ∈ before, c ∉ s.known

/-- Whether no spelling of a path is known. -/
def NoneKnown (s : Scope) (r : FileRecord) (base : String) : Prop :=
  ∀ c ∈ Reference.candidates base (Assoc.get? r.language s.tables.resolutionProfiles), c ∉ s.known

/-- The path of a module whose name is divided by dots. -/
def modulePath (reference : String) : String :=
  String.ofList (Text.replaceChar '.' ['/'] reference.toList)

/-- What a reference of a file comes to: a target, and whether it is one that was not found. -/
inductive Means (s : Scope) (r : FileRecord) (reference : String) : String → Bool → Prop where
  /-- A path of which a spelling is known means the file of the first such spelling. -/
  | path {base target : String} : StartsLikePath reference →
      Reference.basePath? r.path reference = some base → FirstKnown s r base target →
      Means s r reference target false
  /-- A path of which no spelling is known means that path, not found. -/
  | unknown {base : String} : StartsLikePath reference →
      Reference.basePath? r.path reference = some base → NoneKnown s r base →
      Means s r reference base true
  /-- A path that leaves the root means itself, not found. -/
  | outside : StartsLikePath reference → Reference.basePath? r.path reference = none →
      Means s r reference reference true
  /-- A module of which a spelling is known means the file of the first such spelling. -/
  | module {target : String} : ¬ StartsLikePath reference → r.language = "python" →
      FirstKnown s r (modulePath reference) target → Means s r reference target false
  /-- Any other reference means the package that it belongs to, if that is declared. -/
  | package {name : String} : ¬ StartsLikePath reference →
      (r.language = "python" → NoneKnown s r (modulePath reference)) →
      declaredAs? s.versions (packageOf reference r.language) = some name →
      Means s r reference name false

/-- A reference is a path by what it starts with. -/
theorem isPath_iff (reference : String) :
    Reference.isPath reference = true ↔ StartsLikePath reference := by
  unfold Reference.isPath StartsLikePath
  split
  · next h => simp [h]
  · next h => simp [h]
  · next hdot hslash =>
    rcases h : reference.toList with _ | ⟨c, cs⟩
    · simp
    · have hc : c ≠ '.' := fun e => hdot cs (e ▸ h)
      have hc' : c ≠ '/' := fun e => hslash cs (e ▸ h)
      simp [hc, hc']

/-- The lookup gives the first candidate that is a known path. -/
theorem lookUp_eq_some_iff (s : Scope) (r : FileRecord) (base target : String) :
    Reference.lookUp base s.known (Assoc.get? r.language s.tables.resolutionProfiles) =
      some target ↔ FirstKnown s r base target := by
  unfold Reference.lookUp FirstKnown
  rw [List.find?_eq_some_iff_append]
  simp only [Bool.not_eq_true', ← Bool.not_eq_true, List.contains_iff_mem]
  constructor
  · rintro ⟨hknown, before, after, heq, hbefore⟩
    exact ⟨before, after, heq, hknown, hbefore⟩
  · rintro ⟨before, after, heq, hknown, hbefore⟩
    exact ⟨hknown, before, after, heq, hbefore⟩

/-- The lookup fails when no candidate is a known path. -/
theorem lookUp_eq_none_iff (s : Scope) (r : FileRecord) (base : String) :
    Reference.lookUp base s.known (Assoc.get? r.language s.tables.resolutionProfiles) = none ↔
      NoneKnown s r base := by
  unfold Reference.lookUp NoneKnown
  rw [List.find?_eq_none]
  simp only [List.contains_iff_mem]

/-- A reference is no path when it starts like none. -/
theorem isPath_eq_false_iff (reference : String) :
    Reference.isPath reference = false ↔ ¬ StartsLikePath reference := by
  rw [← isPath_iff, Bool.not_eq_true]

/-- An edge says what its reference means. -/
theorem means_of_edgeFor? {s : Scope} {r : FileRecord} {reference : String} {e : GraphEdge}
    (h : edgeFor? s r reference = some e) :
    Means s r reference e.target e.unresolved ∧
      e = ⟨r.path, e.target, "import", reference, e.unresolved⟩ := by
  unfold edgeFor? at h
  simp only at h
  split at h
  · next hpath =>
    rw [isPath_iff] at hpath
    split at h
    · next hbase =>
      obtain rfl := Option.some.inj h
      exact ⟨.outside hpath hbase, rfl⟩
    · next base hbase =>
      split at h
      · next hnone =>
        obtain rfl := Option.some.inj h
        exact ⟨.unknown hpath hbase ((lookUp_eq_none_iff s r base).mp hnone), rfl⟩
      · next target hsome =>
        obtain rfl := Option.some.inj h
        exact ⟨.path hpath hbase ((lookUp_eq_some_iff s r base target).mp hsome), rfl⟩
  · next hpath =>
    rw [isPath_iff] at hpath
    by_cases hlang : r.language = "python"
    · rw [if_pos hlang] at h
      split at h
      · next target hsome =>
        obtain rfl := Option.some.inj h
        exact ⟨.module hpath hlang ((lookUp_eq_some_iff s r _ target).mp hsome), rfl⟩
      · next hnone =>
        obtain ⟨name, hname, rfl⟩ := Option.map_eq_some_iff.mp h
        exact ⟨.package hpath (fun _ => (lookUp_eq_none_iff s r _).mp hnone) hname, rfl⟩
    · rw [if_neg hlang] at h
      obtain ⟨name, hname, rfl⟩ := Option.map_eq_some_iff.mp h
      exact ⟨.package hpath (fun hpython => absurd hpython hlang) hname, rfl⟩

/-- What a reference means has its edge. -/
theorem edgeFor?_of_means {s : Scope} {r : FileRecord} {reference target : String}
    {unresolved : Bool} (h : Means s r reference target unresolved) :
    edgeFor? s r reference = some ⟨r.path, target, "import", reference, unresolved⟩ := by
  unfold edgeFor?
  cases h with
  | path hpath hbase hfirst =>
    simp [(isPath_iff reference).mpr hpath, hbase, (lookUp_eq_some_iff s r _ _).mpr hfirst]
  | unknown hpath hbase hnone =>
    simp [(isPath_iff reference).mpr hpath, hbase, (lookUp_eq_none_iff s r _).mpr hnone]
  | outside hpath hbase =>
    simp [(isPath_iff reference).mpr hpath, hbase]
  | module hpath hlang hfirst =>
    have hlook := (lookUp_eq_some_iff s r _ _).mpr hfirst
    unfold modulePath at hlook
    simp only [(isPath_eq_false_iff reference).mpr hpath, Bool.false_eq_true, if_false]
    rw [if_pos hlang, hlook]
  | package hpath hnone hname =>
    have hno := (isPath_eq_false_iff reference).mpr hpath
    by_cases hlang : r.language = "python"
    · have hlook := (lookUp_eq_none_iff s r _).mpr (hnone hlang)
      unfold modulePath at hlook
      simp only [hno, Bool.false_eq_true, if_false]
      rw [if_pos hlang, hlook]
      simp only [hname, Option.map_some]
    · simp [hno, hlang, hname]

/-- The edge of a reference is what the reference means. -/
theorem edgeFor?_eq_some_iff (s : Scope) (r : FileRecord) (reference : String) (e : GraphEdge) :
    edgeFor? s r reference = some e ↔
      Means s r reference e.target e.unresolved ∧
        e = ⟨r.path, e.target, "import", reference, e.unresolved⟩ := by
  constructor
  · exact means_of_edgeFor?
  · rintro ⟨hmeans, heq⟩
    rw [heq]
    exact edgeFor?_of_means hmeans

/-! ### The edges of one file -/

/-- An edge of a file is that of its first reference with this meaning. -/
theorem mem_edgesFrom {s : Scope} {r : FileRecord} {seen : List (String × Bool)}
    {references : List String} {e : GraphEdge} (h : e ∈ edgesFrom s r seen references) :
    (e.target, e.unresolved) ∉ seen ∧ edgeFor? s r e.reference = some e ∧
      ∃ before after, references = before ++ e.reference :: after ∧
        ∀ x ∈ before, ¬ Means s r x e.target e.unresolved := by
  induction references generalizing seen with
  | nil => exact absurd h List.not_mem_nil
  | cons reference rest ih =>
    rw [edgesFrom] at h
    split at h
    · next hnone =>
      obtain ⟨hseen, hedge, before, after, rfl, hbefore⟩ := ih h
      refine ⟨hseen, hedge, reference :: before, after, rfl, ?_⟩
      intro x hx hmeans
      rcases List.mem_cons.mp hx with rfl | hx
      · rw [edgeFor?_of_means hmeans] at hnone
        contradiction
      · exact hbefore x hx hmeans
    · next e₀ hsome =>
      -- another edge with the meaning of this reference would be the one made here
      have hsame : ∀ x, x = reference → Means s r x e.target e.unresolved →
          (e₀.target, e₀.unresolved) = (e.target, e.unresolved) := by
        rintro x rfl hmeans
        rw [edgeFor?_of_means hmeans] at hsome
        obtain rfl := Option.some.inj hsome
        rfl
      split at h
      · next hcontains =>
        obtain ⟨hseen, hedge, before, after, rfl, hbefore⟩ := ih h
        refine ⟨hseen, hedge, reference :: before, after, rfl, ?_⟩
        intro x hx hmeans
        rcases List.mem_cons.mp hx with hx | hx
        · rw [hsame x hx hmeans, List.contains_iff_mem] at hcontains
          exact hseen hcontains
        · exact hbefore x hx hmeans
      · next hcontains =>
        rcases List.mem_cons.mp h with rfl | h
        · obtain ⟨hmeans, heq⟩ := (edgeFor?_eq_some_iff s r reference e).mp hsome
          have href : e.reference = reference := by rw [heq]
          rw [List.contains_iff_mem] at hcontains
          rw [href]
          exact ⟨hcontains, hsome, [], rest, rfl, fun x hx => absurd hx List.not_mem_nil⟩
        · obtain ⟨hseen, hedge, before, after, rfl, hbefore⟩ := ih h
          rw [List.mem_cons, not_or] at hseen
          refine ⟨hseen.2, hedge, reference :: before, after, rfl, ?_⟩
          intro x hx hmeans
          rcases List.mem_cons.mp hx with hx | hx
          · exact hseen.1 (hsame x hx hmeans).symm
          · exact hbefore x hx hmeans

/-- Whatever a reference of a file means has been reached before or has an edge. -/
theorem exists_mem_edgesFrom {s : Scope} {r : FileRecord} (seen : List (String × Bool))
    {references : List String} {reference target : String} {unresolved : Bool}
    (hmem : reference ∈ references) (hmeans : Means s r reference target unresolved) :
    (target, unresolved) ∈ seen ∨
      ∃ e ∈ edgesFrom s r seen references, e.target = target ∧ e.unresolved = unresolved := by
  induction references generalizing seen with
  | nil => exact absurd hmem List.not_mem_nil
  | cons first rest ih =>
    rw [edgesFrom]
    rcases List.mem_cons.mp hmem with rfl | hrest
    · rw [edgeFor?_of_means hmeans]
      simp only [List.contains_iff_mem]
      split
      · next hseen => exact Or.inl hseen
      · exact Or.inr ⟨_, List.mem_cons_self, rfl, rfl⟩
    · split
      · exact ih seen hrest
      · next e₀ _ =>
        split
        · exact ih seen hrest
        · rcases ih ((e₀.target, e₀.unresolved) :: seen) hrest with h | ⟨e, he, haim⟩
          · rcases List.mem_cons.mp h with h | h
            · obtain ⟨ht, hu⟩ := Prod.mk.inj h
              exact Or.inr ⟨e₀, List.mem_cons_self, ht.symm, hu.symm⟩
            · exact Or.inl h
          · exact Or.inr ⟨e, List.mem_cons_of_mem _ he, haim⟩

/-- No two edges of a file aim at the same. -/
theorem pairwise_edgesFrom (s : Scope) (r : FileRecord) (seen : List (String × Bool))
    (references : List String) :
    (edgesFrom s r seen references).Pairwise fun a b =>
      (a.target, a.unresolved) ≠ (b.target, b.unresolved) := by
  induction references generalizing seen with
  | nil => exact List.Pairwise.nil
  | cons reference rest ih =>
    rw [edgesFrom]
    split
    · exact ih seen
    · next e₀ _ =>
      split
      · exact ih seen
      · refine List.pairwise_cons.mpr ⟨?_, ih _⟩
        intro e he heq
        exact (mem_edgesFrom he).1 (heq ▸ List.mem_cons_self)

/-- The edges of a file follow the order of its references. -/
theorem sublist_edgesFrom (s : Scope) (r : FileRecord) (seen : List (String × Bool))
    (references : List String) :
    ((edgesFrom s r seen references).map GraphEdge.reference).Sublist references := by
  induction references generalizing seen with
  | nil => exact List.Sublist.slnil
  | cons reference rest ih =>
    rw [edgesFrom]
    split
    · exact (ih seen).cons reference
    · next e₀ hsome =>
      split
      · exact (ih seen).cons reference
      · have href : e₀.reference = reference := by
          rw [((edgeFor?_eq_some_iff s r reference e₀).mp hsome).2]
        rw [List.map_cons, href]
        exact (ih _).cons_cons reference

/-- The edges of a file start there. -/
theorem source_of_mem_edgesFrom {s : Scope} {r : FileRecord} {seen : List (String × Bool)}
    {references : List String} {e : GraphEdge} (h : e ∈ edgesFrom s r seen references) :
    e.source = r.path := by
  obtain ⟨-, hedge, -⟩ := mem_edgesFrom h
  rw [((edgeFor?_eq_some_iff s r e.reference e).mp hedge).2]

/-! ### The parts of a graph -/

variable (t : Tables) (records : List FileRecord) (evidence : Assoc String Evidence)
  (manifests : Manifests)

/-- What is known while a graph is built. -/
def scopeOf : Scope := ⟨t, records.map FileRecord.path, declaredVersions manifests⟩

/-- The source files among some files. -/
def sourcesOf : List FileRecord := records.filter fun r => t.isCountable r.language

/-- The references found in a file. -/
def referencesOf (r : FileRecord) : List String :=
  ((Assoc.get? r.path evidence).map Evidence.references).getD []

/-- The nodes of the source files. -/
def sourceNodes : Assoc String GraphNode :=
  (sourcesOf t records).foldl (fun nodes r =>
    Assoc.insert r.path (sourceNode r (Assoc.get? r.path evidence)) nodes) []

/-- The edges are those of the sources, one source after the other. -/
theorem edges_build : (build t records evidence manifests).edges =
    (sourcesOf t records).flatMap fun r =>
      edgesFrom (scopeOf t records manifests) r [] (referencesOf evidence r) := rfl

/-- The nodes are the sources, then the targets of the edges, then the packages that are
declared. -/
theorem nodes_build : (build t records evidence manifests).nodes =
    addNew ((build t records evidence manifests).edges.foldl (addAsset records)
      (sourceNodes t records evidence)) (declaredVersions manifests)
      fun version => ⟨"external", none, [], [], some version⟩ := rfl

/-- The sources are the records in countable languages. -/
theorem mem_sourcesOf (r : FileRecord) :
    r ∈ sourcesOf t records ↔ r ∈ records ∧ t.isCountable r.language = true := by
  rw [sourcesOf, List.mem_filter]

/-- An edge of a graph comes from a source file. -/
theorem mem_edges_build (e : GraphEdge) : e ∈ (build t records evidence manifests).edges ↔
    ∃ r ∈ sourcesOf t records,
      e ∈ edgesFrom (scopeOf t records manifests) r [] (referencesOf evidence r) := by
  rw [edges_build, List.mem_flatMap]

variable {t records evidence manifests}

/-- The edges that start at a source file are those of its references. -/
theorem filter_source_edges (hpaths : (records.map FileRecord.path).Nodup) {r : FileRecord}
    (hr : r ∈ sourcesOf t records) :
    (build t records evidence manifests).edges.filter (fun e => e.source == r.path) =
      edgesFrom (scopeOf t records manifests) r [] (referencesOf evidence r) := by
  have hnodup : ((sourcesOf t records).map FileRecord.path).Nodup :=
    hpaths.sublist (List.filter_sublist.map _)
  rw [edges_build]
  refine Sorting.filter_flatMap_of_nodup FileRecord.path _ _ hnodup hr ?_ ?_
  · intro e he
    rw [source_of_mem_edgesFrom he, beq_self_eq_true]
  · intro r' _ hne e he
    rw [source_of_mem_edgesFrom he]
    exact beq_false_of_ne hne

/-- No two edges of a graph agree on where they start and what they aim at. -/
theorem pairwise_edges_build (hpaths : (records.map FileRecord.path).Nodup) :
    (build t records evidence manifests).edges.Pairwise fun a b =>
      (a.source, a.target, a.unresolved) ≠ (b.source, b.target, b.unresolved) := by
  have hnodup : ((sourcesOf t records).map FileRecord.path).Nodup :=
    hpaths.sublist (List.filter_sublist.map _)
  rw [List.Nodup, List.pairwise_map] at hnodup
  rw [edges_build, List.pairwise_flatMap]
  refine ⟨?_, hnodup.imp ?_⟩
  · intro r _
    refine (pairwise_edgesFrom _ r [] _).imp ?_
    intro a b hne heq
    exact hne (Prod.mk.inj heq).2
  · intro r r' hne a ha b hb heq
    have hsource := (Prod.mk.inj heq).1
    rw [source_of_mem_edgesFrom ha, source_of_mem_edgesFrom hb] at hsource
    exact hne hsource

/-! ### The nodes -/

/-- Adding an asset keeps the keys. -/
theorem mem_keys_addAsset {nodes : Assoc String GraphNode} {k : String} (e : GraphEdge)
    (h : k ∈ Assoc.keys nodes) : k ∈ Assoc.keys (addAsset records nodes e) := by
  unfold addAsset
  split
  · exact h
  · split
    · exact (Assoc.mem_keys_insert _ _ _ _).mpr (Or.inr h)
    · exact h

/-- Adding assets keeps the keys. -/
theorem mem_keys_addAssets {nodes : Assoc String GraphNode} {k : String} (edges : List GraphEdge)
    (h : k ∈ Assoc.keys nodes) : k ∈ Assoc.keys (edges.foldl (addAsset records) nodes) := by
  induction edges generalizing nodes with
  | nil => exact h
  | cons e rest ih => exact ih (mem_keys_addAsset e h)

/-- A known file to which an edge leads is a node once the assets are added. -/
theorem target_mem_keys_addAssets {nodes : Assoc String GraphNode} {edges : List GraphEdge}
    {e : GraphEdge} (he : e ∈ edges) (hresolved : e.unresolved = false)
    (hknown : e.target ∈ records.map FileRecord.path) :
    e.target ∈ Assoc.keys (edges.foldl (addAsset records) nodes) := by
  induction edges generalizing nodes with
  | nil => contradiction
  | cons e₀ rest ih =>
    rw [List.foldl_cons]
    rcases List.mem_cons.mp he with rfl | hmem
    · refine mem_keys_addAssets rest ?_
      unfold addAsset
      by_cases hhas : Assoc.has e.target nodes = true
      · simpa [hresolved, hhas] using (Assoc.has_iff_mem_keys _ _).mp hhas
      · have hfound : (records.reverse.find? fun r => r.path == e.target).isSome = true := by
          obtain ⟨r, hr, hpath⟩ := List.mem_map.mp hknown
          rw [List.find?_isSome]
          exact ⟨r, List.mem_reverse.mpr hr, by simp [hpath]⟩
        obtain ⟨r, hr⟩ := Option.isSome_iff_exists.mp hfound
        simp only [hresolved, hhas, hr, Bool.false_or, Bool.false_eq_true, if_false]
        exact (Assoc.mem_keys_insert _ _ _ _).mpr (Or.inl rfl)
    · exact ih hmem

/-- What a reference has found is a known file or a declared package. -/
theorem target_of_means {s : Scope} {r : FileRecord} {reference target : String}
    (h : Means s r reference target false) :
    target ∈ s.known ∨ target ∈ Assoc.keys s.versions := by
  cases h with
  | path _ _ hfirst =>
    obtain ⟨_, _, _, hknown, _⟩ := hfirst
    exact Or.inl hknown
  | module _ _ hfirst =>
    obtain ⟨_, _, _, hknown, _⟩ := hfirst
    exact Or.inl hknown
  | package _ _ hname =>
    obtain ⟨p, hfind, rfl⟩ := Option.map_eq_some_iff.mp hname
    exact Or.inr (List.mem_map_of_mem (List.mem_reverse.mp (List.mem_of_find?_eq_some hfind)))

/-- What an edge has found is a node. -/
theorem target_mem_nodes {e : GraphEdge} (he : e ∈ (build t records evidence manifests).edges)
    (hresolved : e.unresolved = false) :
    e.target ∈ Assoc.keys (build t records evidence manifests).nodes := by
  obtain ⟨r, -, hedge⟩ := (mem_edges_build t records evidence manifests e).mp he
  obtain ⟨-, hfor, -⟩ := mem_edgesFrom hedge
  have hmeans := ((edgeFor?_eq_some_iff _ r _ e).mp hfor).1
  rw [hresolved] at hmeans
  rw [nodes_build, mem_keys_addNew]
  rcases target_of_means hmeans with hknown | hdeclared
  · exact Or.inl (target_mem_keys_addAssets he hresolved hknown)
  · exact Or.inr hdeclared

/-! ### The whole graph -/

/-- Whatever a reference of a source file means has an edge. -/
theorem exists_edge_of_means {r : FileRecord} (hr : r ∈ sourcesOf t records)
    {reference target : String} {unresolved : Bool} (hmem : reference ∈ referencesOf evidence r)
    (hmeans : Means (scopeOf t records manifests) r reference target unresolved) :
    ∃ e ∈ (build t records evidence manifests).edges,
      e.source = r.path ∧ e.target = target ∧ e.unresolved = unresolved := by
  rcases exists_mem_edgesFrom [] hmem hmeans with h | ⟨e, he, haim⟩
  · exact absurd h List.not_mem_nil
  · refine ⟨e, ?_, source_of_mem_edgesFrom he, haim⟩
    exact (mem_edges_build t records evidence manifests e).mpr ⟨r, hr, he⟩

/-- A path either has a known spelling or has none. -/
theorem firstKnown_or_noneKnown (s : Scope) (r : FileRecord) (base : String) :
    (∃ target, FirstKnown s r base target) ∨ NoneKnown s r base := by
  rcases h : Reference.lookUp base s.known (Assoc.get? r.language s.tables.resolutionProfiles) with
    _ | target
  · exact Or.inr ((lookUp_eq_none_iff s r base).mp h)
  · exact Or.inl ⟨target, (lookUp_eq_some_iff s r base target).mp h⟩

/-- A reference that is no path means something exactly if it names a known module or a declared
package. -/
theorem exists_means_iff {r : FileRecord} {reference : String}
    (hpath : ¬ StartsLikePath reference) :
    (∃ target, Means (scopeOf t records manifests) r reference target false) ↔
      (r.language = "python" ∧
        ∃ target, FirstKnown (scopeOf t records manifests) r (modulePath reference) target) ∨
      ∃ name, manifests.Declare name ∧
        packageKey name = packageKey (packageOf reference r.language) := by
  rw [← isSome_declaredAs?_iff]
  constructor
  · rintro ⟨target, hmeans⟩
    cases hmeans with
    | path h => exact absurd h hpath
    | module _ hlang hfirst => exact Or.inl ⟨hlang, target, hfirst⟩
    | package _ _ hname => exact Or.inr (Option.isSome_iff_exists.mpr ⟨target, hname⟩)
  · rintro (⟨hlang, target, hfirst⟩ | hdeclared)
    · exact ⟨target, .module hpath hlang hfirst⟩
    · obtain ⟨name, hname⟩ := Option.isSome_iff_exists.mp hdeclared
      rcases firstKnown_or_noneKnown (scopeOf t records manifests) r (modulePath reference) with
        ⟨target, hfirst⟩ | hnone
      · by_cases hlang : r.language = "python"
        · exact ⟨target, .module hpath hlang hfirst⟩
        · exact ⟨name, .package hpath (fun h => absurd h hlang) hname⟩
      · exact ⟨name, .package hpath (fun _ => hnone) hname⟩

/-- What is to be expected of the edges of a graph. -/
structure IsFaithful (t : Tables) (records : List FileRecord) (evidence : Assoc String Evidence)
    (manifests : Manifests) (g : Graph) : Prop where
  /-- Every edge starts at a source file and stands for the first reference of that file which
  means what the edge says. -/
  source : ∀ e ∈ g.edges, ∃ r ∈ records, t.isCountable r.language = true ∧ e.source = r.path ∧
    Means (scopeOf t records manifests) r e.reference e.target e.unresolved ∧
    ∃ before after, referencesOf evidence r = before ++ e.reference :: after ∧
      ∀ x ∈ before, ¬ Means (scopeOf t records manifests) r x e.target e.unresolved
  /-- What an edge has found is a node. -/
  target : ∀ e ∈ g.edges, e.unresolved = false → e.target ∈ Assoc.keys g.nodes
  /-- Every path has an edge: to the first known spelling if there is one, else to the path, or to
  the reference itself if it leaves the root. -/
  path : ∀ r ∈ records, t.isCountable r.language = true → ∀ reference ∈ referencesOf evidence r,
    StartsLikePath reference → ∃ e ∈ g.edges, e.source = r.path ∧
      match Reference.basePath? r.path reference with
      | none => e.target = reference ∧ e.unresolved = true
      | some base =>
        (FirstKnown (scopeOf t records manifests) r base e.target ∧ e.unresolved = false) ∨
        (NoneKnown (scopeOf t records manifests) r base ∧ e.target = base ∧ e.unresolved = true)
  /-- Only paths have edges to what was not found. -/
  unresolved : ∀ e ∈ g.edges, e.unresolved = true → StartsLikePath e.reference
  /-- Any other reference has an edge exactly if it names a known module or a declared package. -/
  other : ∀ r ∈ records, t.isCountable r.language = true → ∀ reference ∈ referencesOf evidence r,
    ¬ StartsLikePath reference →
      ((∃ e ∈ g.edges, e.source = r.path ∧ e.unresolved = false ∧
        Means (scopeOf t records manifests) r reference e.target false) ↔
      (r.language = "python" ∧
        ∃ target, FirstKnown (scopeOf t records manifests) r (modulePath reference) target) ∨
      ∃ name, manifests.Declare name ∧
        packageKey name = packageKey (packageOf reference r.language))
  /-- No two edges agree on where they start and what they aim at. -/
  distinct : g.edges.Pairwise fun a b =>
    (a.source, a.target, a.unresolved) ≠ (b.source, b.target, b.unresolved)
  /-- The edges of a file follow the order of its references. -/
  ordered : ∀ r ∈ records, t.isCountable r.language = true →
    ((g.edges.filter fun e => e.source == r.path).map GraphEdge.reference).Sublist
      (referencesOf evidence r)

/-- **No reference edge is lost, doubled or left dangling**, for files of different paths and
whatever was found in them, declared by manifests and laid down in tables. -/
theorem build_isFaithful (t : Tables) (records : List FileRecord)
    (hpaths : (records.map FileRecord.path).Nodup) (evidence : Assoc String Evidence)
    (manifests : Manifests) :
    IsFaithful t records evidence manifests (build t records evidence manifests) where
  source e he := by
    obtain ⟨r, hr, hedge⟩ := (mem_edges_build t records evidence manifests e).mp he
    obtain ⟨hrecord, hcountable⟩ := (mem_sourcesOf t records r).mp hr
    obtain ⟨-, hfor, hfirst⟩ := mem_edgesFrom hedge
    exact ⟨r, hrecord, hcountable, source_of_mem_edgesFrom hedge,
      ((edgeFor?_eq_some_iff _ r _ e).mp hfor).1, hfirst⟩
  target e he hresolved := target_mem_nodes he hresolved
  path r hrecord hcountable reference hmem hpath := by
    have hr := (mem_sourcesOf t records r).mpr ⟨hrecord, hcountable⟩
    rcases hbase : Reference.basePath? r.path reference with _ | base
    · exact exists_edge_of_means hr hmem (.outside hpath hbase)
    · rcases firstKnown_or_noneKnown (scopeOf t records manifests) r base with
        ⟨target, hfirst⟩ | hnone
      · obtain ⟨e, he, hsource, rfl, hu⟩ :=
          exists_edge_of_means hr hmem (.path hpath hbase hfirst)
        exact ⟨e, he, hsource, Or.inl ⟨hfirst, hu⟩⟩
      · obtain ⟨e, he, hsource, ht, hu⟩ :=
          exists_edge_of_means hr hmem (.unknown hpath hbase hnone)
        exact ⟨e, he, hsource, Or.inr ⟨hnone, ht, hu⟩⟩
  unresolved e he hu := by
    obtain ⟨r, -, hedge⟩ := (mem_edges_build t records evidence manifests e).mp he
    obtain ⟨-, hfor, -⟩ := mem_edgesFrom hedge
    have hmeans := ((edgeFor?_eq_some_iff _ r _ e).mp hfor).1
    rw [hu] at hmeans
    generalize e.target = target at hmeans
    cases hmeans with
    | unknown hpath => exact hpath
    | outside hpath => exact hpath
  other r hrecord hcountable reference hmem hpath := by
    have hr := (mem_sourcesOf t records r).mpr ⟨hrecord, hcountable⟩
    rw [← exists_means_iff hpath]
    constructor
    · rintro ⟨e, -, -, -, hmeans⟩
      exact ⟨e.target, hmeans⟩
    · rintro ⟨target, hmeans⟩
      obtain ⟨e, he, hsource, rfl, hu⟩ := exists_edge_of_means hr hmem hmeans
      exact ⟨e, he, hsource, hu, hmeans⟩
  distinct := pairwise_edges_build hpaths
  ordered r hrecord hcountable := by
    rw [filter_source_edges hpaths ((mem_sourcesOf t records r).mpr ⟨hrecord, hcountable⟩)]
    exact sublist_edgesFrom _ r [] _

/-- Two modules that refer to each other, to a file outside the root and to a package that is
declared under another spelling. -/
theorem build_isFaithful_of_cycle :
    let records : List FileRecord := [
      ⟨"a/x.py", 40, ".py", ⟨"python", none, []⟩, .ofInt 0, 0⟩,
      ⟨"a/y.py", 20, ".py", ⟨"python", none, []⟩, .ofInt 0, 0⟩]
    let evidence : Assoc String Evidence := [
      ("a/x.py", ⟨"a/x.py", some 4, ["./y", "../../z", "./y.py", "my_package.core"], [], []⟩),
      ("a/y.py", ⟨"a/y.py", some 2, ["a.x", "os"], [], []⟩)]
    let manifests : Manifests :=
      [("requirements.txt", ⟨"requirements.txt", [("My-Package", "1.0")], [], [], []⟩)]
    (records.map FileRecord.path).Nodup ∧
      IsFaithful .default records evidence manifests
        (build .default records evidence manifests) := by
  intro records evidence manifests
  have hpaths : (records.map FileRecord.path).Nodup := by decide
  exact ⟨hpaths, build_isFaithful .default records hpaths evidence manifests⟩

end ProjectSurvey.Graph
