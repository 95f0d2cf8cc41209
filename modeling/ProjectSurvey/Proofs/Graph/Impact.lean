import ProjectSurvey.Proofs.Graph.Reachability
import Mathlib.Data.List.Sort

/-!
# The queries about the impact of a change

Between the files of a graph `Graph.Refers` says which refers to which: by an edge that found what
it means, from a file to a file. **The queries about a file answer with exactly what the transitive
closure of this relation says** (`Graph.hasExactQueries`), and **the cycles are exactly its classes
of at least two files that reach one another** (`Graph.hasExactCycles`), for every graph: with
cycles, parallel edges, self loops, packages, edges that found nothing and edges to what is no node.

* Both directions of a query are one search, over the references and over the references read
  backwards; that the answers are dual is therefore a fact about the closure.
* The group of a file is its class of `Network.Mutual`, an equivalence. In strict order a group is
  determined by its members (`Network.groupOf_eq_iff`), so that different cycles share no file.
-/

namespace ProjectSurvey

/-! ### Lists without repetition -/

namespace Sorting

/-- A list without repetition has two members exactly if each has another one beside it. -/
theorem two_le_length_iff {xs : List String} (hnodup : xs.Nodup) {x : String} (hx : x ∈ xs) :
    2 ≤ xs.length ↔ ∃ y ∈ xs, y ≠ x := by
  constructor
  · intro hlen
    by_contra hnone
    push Not at hnone
    have hsub : xs ⊆ [x] := fun y hy => List.mem_singleton.mpr (hnone y hy)
    have hle := (List.subperm_of_subset hnodup hsub).length_le
    simp only [List.length_singleton] at hle
    omega
  · rintro ⟨y, hy, hne⟩
    have hsub : [y, x] ⊆ xs := by simp [hx, hy]
    have hpair : [y, x].Nodup := by simpa using hne
    simpa using (List.subperm_of_subset hpair hsub).length_le

end Sorting

namespace Network

variable (n : Network)

/-! ### Queries -/

/-- A file of the network passes the check of a query. -/
theorem require_of_mem {p : String} (h : p ∈ n.files) : n.require p = .ok () := by
  simp [require, h]

/-- Anything else is refused by name. -/
theorem require_of_not_mem {p : String} (h : p ∉ n.files) : n.require p = .error ⟨p⟩ := by
  simp [require, h]

/-- The dependents of a file are what reaches it. -/
theorem dependents_of_mem {p : String} (h : p ∈ n.files) :
    n.dependents p = .ok (n.reachedBy n.predecessors p) := by
  rw [dependents, n.require_of_mem h]
  rfl

/-- Its dependencies are what it reaches. -/
theorem dependencies_of_mem {p : String} (h : p ∈ n.files) :
    n.dependencies p = .ok (n.reachedBy n.successors p) := by
  rw [dependencies, n.require_of_mem h]
  rfl

/-- The impact of a file puts its neighbours, both directions and its circle together. -/
theorem impact_of_mem {p : String} (h : p ∈ n.files) :
    n.impact p = .ok {
      path := p
      directDependents := Text.sorted (n.predecessors p)
      transitiveDependents := n.reachedBy n.predecessors p
      dependencies := n.reachedBy n.successors p
      inCycle := n.cycles.any fun group => group.contains p } := by
  rw [impact, n.require_of_mem h, n.dependents_of_mem h, n.dependencies_of_mem h]
  rfl

/-- Every query about what is no file is refused. -/
theorem queries_of_not_mem {p : String} (h : p ∉ n.files) :
    n.dependents p = .error ⟨p⟩ ∧ n.dependencies p = .error ⟨p⟩ ∧ n.impact p = .error ⟨p⟩ := by
  rw [dependents, dependencies, impact, n.require_of_not_mem h]
  exact ⟨rfl, rfl, rfl⟩

/-- Dependents are given for files only, and then they are what reaches the file. -/
theorem dependents_eq_ok_iff {p : String} {found : List String} :
    n.dependents p = .ok found ↔ p ∈ n.files ∧ n.reachedBy n.predecessors p = found := by
  by_cases h : p ∈ n.files
  · simp [n.dependents_of_mem h, h]
  · simp [n.queries_of_not_mem h, h]

/-- Dependencies are given for files only, and then they are what the file reaches. -/
theorem dependencies_eq_ok_iff {p : String} {found : List String} :
    n.dependencies p = .ok found ↔ p ∈ n.files ∧ n.reachedBy n.successors p = found := by
  by_cases h : p ∈ n.files
  · simp [n.dependencies_of_mem h, h]
  · simp [n.queries_of_not_mem h, h]

/-- The predecessors of a file are those that refer to it. -/
theorem mem_predecessors {p q : String} : q ∈ n.predecessors p ↔ n.Refers q p := by
  simp [predecessors_eq, Refers]

/-- No predecessor is listed twice. -/
theorem nodup_predecessors (p : String) : (n.predecessors p).Nodup := by
  rw [predecessors_eq]
  apply (n.nodup_links.filter _).map_on
  rintro ⟨a, b⟩ ha ⟨c, d⟩ hc rfl
  simp only [List.mem_filter, beq_iff_eq] at ha hc
  rw [ha.2, hc.2]

/-! ### Files that reach one another -/

/-- Whether each of two files reaches the other one; a file reaches itself. -/
def Mutual (p q : String) : Prop :=
  Relation.ReflTransGen n.Refers p q ∧ Relation.ReflTransGen n.Refers q p

variable {n}

/-- Every file is mutually reachable with itself. -/
theorem Mutual.refl (p : String) : n.Mutual p p :=
  ⟨Relation.ReflTransGen.refl, Relation.ReflTransGen.refl⟩

/-- Mutual reachability goes both ways. -/
theorem Mutual.symm {p q : String} (h : n.Mutual p q) : n.Mutual q p := ⟨h.2, h.1⟩

/-- Mutual reachability goes on. -/
theorem Mutual.trans {p q r : String} (hpq : n.Mutual p q) (hqr : n.Mutual q r) : n.Mutual p r :=
  ⟨hpq.1.trans hqr.1, hqr.2.trans hpq.2⟩

/-- Different files reach one another by one or more steps. -/
theorem mutual_iff_of_ne {p q : String} (hne : p ≠ q) :
    n.Mutual p q ↔ Relation.TransGen n.Refers p q ∧ Relation.TransGen n.Refers q p := by
  simp [Mutual, Relation.reflTransGen_iff_eq_or_transGen, hne, hne.symm]

/-- What a step starts from is a file. -/
theorem mem_files_of_transGen {p q : String} (h : Relation.TransGen n.Refers p q) :
    p ∈ n.files := by
  obtain ⟨r, hpr, -⟩ := Relation.TransGen.head'_iff.mp h
  exact (n.mem_files_of_mem _ hpr).1

/-- What is mutually reachable with a file is a file. -/
theorem Mutual.mem_files {p q : String} (h : n.Mutual p q) (hp : p ∈ n.files) : q ∈ n.files := by
  by_cases hne : p = q
  · exact hne ▸ hp
  · exact mem_files_of_transGen ((mutual_iff_of_ne hne).mp h).2

variable (n)

/-! ### Groups -/

/-- The group of a file is its class. -/
theorem mem_groupOf (p q : String) : q ∈ n.groupOf p ↔ n.Mutual p q := by
  rw [groupOf, Text.mem_sorted, List.mem_filter, Std.HashSet.mem_toList,
    Std.HashSet.contains_iff_mem, n.mem_reachFrom n.mem_files_of_leads_successors,
    n.mem_reachFrom n.mem_files_of_leads_predecessors, leads_successors, leads_predecessors,
    Relation.reflTransGen_swap (r := n.Refers), Mutual]

/-- The group of a file is sorted, with nothing in it twice. -/
theorem pairwise_groupOf (p : String) : (n.groupOf p).Pairwise (· < ·) :=
  Text.pairwise_sorted_lt ((n.nodup_toList_reachFrom p).filter _)

/-- A list in strict order is the group of a file exactly if its members are those of the class. -/
theorem eq_groupOf_iff {c : List String} {p : String} :
    c = n.groupOf p ↔ c.Pairwise (· < ·) ∧ ∀ q, q ∈ c ↔ n.Mutual p q := by
  constructor
  · rintro rfl
    exact ⟨n.pairwise_groupOf p, n.mem_groupOf p⟩
  · rintro ⟨hsorted, hmem⟩
    apply hsorted.eq_of_mem_iff (n.pairwise_groupOf p)
    intro q
    rw [hmem, mem_groupOf]

/-- Files have the same group exactly if they reach one another. -/
theorem groupOf_eq_iff {p q : String} : n.groupOf p = n.groupOf q ↔ n.Mutual q p := by
  constructor
  · intro h
    rw [← mem_groupOf, ← h, mem_groupOf]
    exact Mutual.refl p
  · intro h
    rw [eq_groupOf_iff]
    refine ⟨n.pairwise_groupOf p, ?_⟩
    intro r
    rw [mem_groupOf]
    exact ⟨h.trans, h.symm.trans⟩

/-! ### Cycles -/

/-- The circles are the groups of two files or more. -/
theorem mem_cycles {c : List String} :
    c ∈ n.cycles ↔ 2 ≤ c.length ∧ ∃ p ∈ n.files, c = n.groupOf p := by
  rw [cycles, List.mem_mergeSort, Text.mem_distinct, List.mem_filter, List.mem_map,
    decide_eq_true_eq, and_comm]
  simp only [eq_comm]
  rfl

/-- The cycles are in strict order, of which the first difference decides. -/
theorem pairwise_cycles : n.cycles.Pairwise (· < ·) := by
  rw [cycles]
  generalize hgroups : Text.distinct ((n.files.map n.groupOf).filter fun g => 1 < g.length) = groups
  have htrans : ∀ a b c : List String, (!decide (b < a)) = true → (!decide (c < b)) = true →
      (!decide (c < a)) = true := by
    simp only [Bool.not_eq_true', decide_eq_false_iff_not]
    intro a b c hab hbc
    exact List.not_lt.mpr (List.le_trans (List.not_lt.mp hab) (List.not_lt.mp hbc))
  have htotal : ∀ a b : List String, (!decide (b < a) || !decide (a < b)) = true := by
    simp only [Bool.or_eq_true, Bool.not_eq_true', decide_eq_false_iff_not]
    intro a b
    exact (List.le_total a b).imp List.not_lt.mpr List.not_lt.mpr
  have hnodup : (groups.mergeSort fun a b => !decide (b < a)).Nodup := by
    rw [(List.mergeSort_perm _ _).nodup_iff, ← hgroups]
    exact Text.nodup_distinct _
  refine ((List.pairwise_mergeSort htrans htotal groups).and hnodup).imp ?_
  rintro a b ⟨hab, hne⟩
  rw [Bool.not_eq_true', decide_eq_false_iff_not, List.not_lt] at hab
  by_contra hlt
  exact hne (List.le_antisymm hab (List.not_lt.mp hlt))

variable {n}

/-- Two members of one circle reach each other. -/
theorem mutual_of_mem_cycle {c : List String} (hc : c ∈ n.cycles) {p q : String} (hp : p ∈ c)
    (hq : q ∈ c) : n.Mutual p q := by
  obtain ⟨-, r, -, rfl⟩ := n.mem_cycles.mp hc
  rw [mem_groupOf] at hp hq
  exact hp.symm.trans hq

/-- A cycle is the group of each of its members. -/
theorem eq_groupOf_of_mem_cycle {c : List String} (hc : c ∈ n.cycles) {p : String} (hp : p ∈ c) :
    c = n.groupOf p := by
  obtain ⟨-, r, -, rfl⟩ := n.mem_cycles.mp hc
  rw [groupOf_eq_iff]
  exact ((n.mem_groupOf r p).mp hp).symm

/-- The members of circles are files. -/
theorem mem_files_of_mem_cycle {c : List String} (hc : c ∈ n.cycles) {p : String} (hp : p ∈ c) :
    p ∈ n.files := by
  obtain ⟨-, r, hr, rfl⟩ := n.mem_cycles.mp hc
  exact ((n.mem_groupOf r p).mp hp).mem_files hr

/-- Different files are in a common cycle exactly if each reaches the other. -/
theorem exists_cycle_iff {p q : String} (hne : p ≠ q) :
    (∃ c ∈ n.cycles, p ∈ c ∧ q ∈ c) ↔
      Relation.TransGen n.Refers p q ∧ Relation.TransGen n.Refers q p := by
  rw [← mutual_iff_of_ne hne]
  constructor
  · rintro ⟨c, hc, hp, hq⟩
    exact mutual_of_mem_cycle hc hp hq
  · intro h
    have hp : p ∈ n.groupOf p := (n.mem_groupOf p p).mpr (Mutual.refl p)
    have hq : q ∈ n.groupOf p := (n.mem_groupOf p q).mpr h
    have hlen : 2 ≤ (n.groupOf p).length :=
      (Sorting.two_le_length_iff (n.pairwise_groupOf p).nodup hp).mpr
        ⟨q, hq, hne.symm⟩
    have hfile : p ∈ n.files := mem_files_of_transGen ((mutual_iff_of_ne hne).mp h).1
    exact ⟨n.groupOf p, n.mem_cycles.mpr ⟨hlen, p, hfile, rfl⟩, hp, hq⟩

/-- A file is in a cycle exactly if some other file is in one with it. -/
theorem mem_cycle_iff {p : String} :
    (∃ c ∈ n.cycles, p ∈ c) ↔ ∃ q, q ≠ p ∧ ∃ c ∈ n.cycles, p ∈ c ∧ q ∈ c := by
  constructor
  · rintro ⟨c, hc, hp⟩
    obtain ⟨hlen, r, -, hgroup⟩ := n.mem_cycles.mp hc
    have hnodup : c.Nodup := hgroup ▸ (n.pairwise_groupOf r).nodup
    obtain ⟨q, hq, hne⟩ := (Sorting.two_le_length_iff hnodup hp).mp hlen
    exact ⟨q, hne, c, hc, hp, hq⟩
  · rintro ⟨-, -, c, hc, hp, -⟩
    exact ⟨c, hc, hp⟩

/-- In the network of some links the files refer to one another by these. -/
theorem refers_ofLinks {files : List String} {links : List (String × String)} {p q : String} :
    (ofLinks files links).Refers p q ↔ (p, q) ∈ links ∧ p ∈ files ∧ q ∈ files := by
  simp [Refers, ofLinks, Text.mem_distinct]

end Network

namespace Graph

variable (g : Graph)

/-! ### The files of a graph -/

/-- Whether a path is a file of the graph: a node that is no package. -/
def IsInternal (p : String) : Prop := ∃ node, (p, node) ∈ g.nodes ∧ node.kind ≠ "external"

/-- Whether a file refers to another one: by an edge between two files that found its target. -/
def Refers (p q : String) : Prop :=
  g.IsInternal p ∧ g.IsInternal q ∧
    ∃ e ∈ g.edges, e.source = p ∧ e.target = q ∧ e.unresolved = false

/-- The files of a graph's network are its internal nodes. -/
theorem mem_files_network (p : String) : p ∈ g.network.files ↔ g.IsInternal p := by
  simp [network, Network.ofLinks, IsInternal, GraphNode.isExternal]

/-- One file refers to another in the network when a resolved edge of the graph leads there. -/
theorem refers_network : g.network.Refers = g.Refers := by
  funext p q
  have hedge :
      (p, q) ∈ (g.edges.filter fun e => !e.unresolved).map (fun e => (e.source, e.target)) ↔
      ∃ e ∈ g.edges, e.source = p ∧ e.target = q ∧ e.unresolved = false := by
    simp only [List.mem_map, List.mem_filter, Bool.not_eq_true', Prod.mk.injEq]
    grind
  apply propext
  rw [network, Network.refers_ofLinks, hedge, Refers, ← mem_files_network, ← mem_files_network,
    and_comm, and_assoc]
  rfl

/-! ### The answers -/

/-- What the queries about the files of a graph have to answer. -/
structure HasExactQueries : Prop where
  /-- The files that depend on a file are the other ones from which it is reached. -/
  dependents : ∀ p, g.IsInternal p → ∃ found, g.network.dependents p = .ok found ∧
    found.Pairwise (· < ·) ∧ ∀ q, q ∈ found ↔ q ≠ p ∧ Relation.TransGen g.Refers q p
  /-- The files on which a file depends are the other ones that are reached from it. -/
  dependencies : ∀ p, g.IsInternal p → ∃ found, g.network.dependencies p = .ok found ∧
    found.Pairwise (· < ·) ∧ ∀ q, q ∈ found ↔ q ≠ p ∧ Relation.TransGen g.Refers p q
  /-- A file depends on another one exactly if that one says so. -/
  dual : ∀ p q ups downs, g.network.dependents p = .ok ups → g.network.dependencies q = .ok downs →
    (q ∈ ups ↔ p ∈ downs)
  /-- The impact tells the same files, and those that refer to the file themselves. -/
  impact : ∀ p, g.IsInternal p → ∃ found, g.network.impact p = .ok found ∧ found.path = p ∧
    g.network.dependents p = .ok found.transitiveDependents ∧
    g.network.dependencies p = .ok found.dependencies ∧
    found.directDependents.Pairwise (· < ·) ∧ ∀ q, q ∈ found.directDependents ↔ g.Refers q p
  /-- Every query about anything else is refused. -/
  refused : ∀ p, ¬ g.IsInternal p → g.network.dependents p = .error ⟨p⟩ ∧
    g.network.dependencies p = .error ⟨p⟩ ∧ g.network.impact p = .error ⟨p⟩

/-- **The queries about a file answer exactly what the references of a graph say.** -/
theorem hasExactQueries : g.HasExactQueries where
  dependents p hp := by
    rw [← mem_files_network] at hp
    refine ⟨_, g.network.dependents_of_mem hp, g.network.pairwise_reachedBy p, ?_⟩
    intro q
    rw [g.network.mem_reachedBy_predecessors, refers_network]
  dependencies p hp := by
    rw [← mem_files_network] at hp
    refine ⟨_, g.network.dependencies_of_mem hp, g.network.pairwise_reachedBy p, ?_⟩
    intro q
    rw [g.network.mem_reachedBy_successors, refers_network]
  dual p q ups downs hups hdowns := by
    obtain ⟨-, rfl⟩ := g.network.dependents_eq_ok_iff.mp hups
    obtain ⟨-, rfl⟩ := g.network.dependencies_eq_ok_iff.mp hdowns
    rw [g.network.mem_reachedBy_predecessors, g.network.mem_reachedBy_successors, ne_comm]
  impact p hp := by
    rw [← mem_files_network] at hp
    refine ⟨_, g.network.impact_of_mem hp, rfl, g.network.dependents_of_mem hp,
      g.network.dependencies_of_mem hp, ?_, ?_⟩
    · exact Text.pairwise_sorted_lt (g.network.nodup_predecessors p)
    · intro q
      rw [Text.mem_sorted, g.network.mem_predecessors, refers_network]
  refused p hp := by
    rw [← mem_files_network] at hp
    exact g.network.queries_of_not_mem hp

/-! ### The cycles -/

/-- What the cycles of a graph have to be. -/
structure HasExactCycles : Prop where
  /-- The cycles are in strict order, of which the first difference decides. -/
  ordered : g.network.cycles.Pairwise (· < ·)
  /-- They are the classes of at least two files that reach one another, each in strict order. -/
  classes : ∀ c, c ∈ g.network.cycles ↔ c.Pairwise (· < ·) ∧ 2 ≤ c.length ∧
    ∃ p, g.IsInternal p ∧ ∀ q, q ∈ c ↔
      Relation.ReflTransGen g.Refers p q ∧ Relation.ReflTransGen g.Refers q p
  /-- Different files are in a common cycle exactly if each reaches the other. -/
  common : ∀ p q, p ≠ q → ((∃ c ∈ g.network.cycles, p ∈ c ∧ q ∈ c) ↔
    Relation.TransGen g.Refers p q ∧ Relation.TransGen g.Refers q p)
  /-- No file is in two cycles. -/
  apart : ∀ c ∈ g.network.cycles, ∀ d ∈ g.network.cycles, ∀ p, p ∈ c → p ∈ d → c = d
  /-- Only files are in cycles. -/
  internal : ∀ c ∈ g.network.cycles, ∀ p ∈ c, g.IsInternal p
  /-- The impact reports a cycle exactly if some file both depends on the file and is depended on
  by it. -/
  inCycle : ∀ p, g.IsInternal p → ∃ found, g.network.impact p = .ok found ∧
    (found.inCycle = true ↔ ∃ q, q ∈ found.transitiveDependents ∧ q ∈ found.dependencies)

/-- **The cycles are exactly the groups of files that depend on one another.** -/
theorem hasExactCycles : g.HasExactCycles where
  ordered := g.network.pairwise_cycles
  classes c := by
    rw [Network.mem_cycles]
    simp only [Network.eq_groupOf_iff, mem_files_network, Network.Mutual, refers_network]
    grind
  common p q hne := by
    rw [Network.exists_cycle_iff hne, refers_network]
  apart c hc d hd p hpc hpd := by
    rw [Network.eq_groupOf_of_mem_cycle hc hpc, Network.eq_groupOf_of_mem_cycle hd hpd]
  internal c hc p hp := (g.mem_files_network p).mp (Network.mem_files_of_mem_cycle hc hp)
  inCycle p hp := by
    rw [← mem_files_network] at hp
    refine ⟨_, g.network.impact_of_mem hp, ?_⟩
    have hany : (g.network.cycles.any fun group => group.contains p) = true ↔
        ∃ c ∈ g.network.cycles, p ∈ c := by
      simp only [List.any_eq_true, List.contains_iff_mem]
    simp only [hany, Network.mem_cycle_iff, g.network.mem_reachedBy_predecessors,
      g.network.mem_reachedBy_successors]
    constructor
    · rintro ⟨q, hne, hcycle⟩
      obtain ⟨hpq, hqp⟩ := (Network.exists_cycle_iff hne.symm).mp hcycle
      exact ⟨q, ⟨hne, hqp⟩, hne, hpq⟩
    · rintro ⟨q, ⟨hne, hqp⟩, -, hpq⟩
      exact ⟨q, hne, (Network.exists_cycle_iff hne.symm).mpr ⟨hpq, hqp⟩⟩

end Graph

end ProjectSurvey
