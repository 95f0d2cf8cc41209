import ProjectSurvey.Document
import ProjectSurvey.Proofs.Graph.Impact

/-!
# The circles in an architecture

The architecture has a line for every circle: a group of files that depend on one another, with an
arrow between neighbours. **The groups are exactly the circles of the references that were found,
and each of them stands in the order of its paths** (`mem_cycles_iff`). That need not be the order
in which they refer to one another: an arrow says that the second file is reached from the first one
within the group, and not that it is referred to (`IsCircle.refers_or_exists`). Between two files
that have a line of their own every arrow is a reference.
-/

namespace ProjectSurvey

namespace Network

variable {n : Network} {c : List String} {p q : String}

/-- A relation between the files of a group. -/
def Among (c : List String) (r : String → String → Prop) (p q : String) : Prop :=
  p ∈ c ∧ q ∈ c ∧ r p q

/-- The way from a file of a cycle to another one stays in the cycle. -/
theorem transGen_among (hc : c ∈ n.cycles) (hp : p ∈ c) (hq : q ∈ c) (hne : p ≠ q) :
    Relation.TransGen (Among c n.Refers) p q := by
  obtain ⟨hpq, hqp⟩ := (mutual_iff_of_ne hne).mp (mutual_of_mem_cycle hc hp hq)
  have hmem : ∀ r, Relation.ReflTransGen n.Refers q r → Relation.ReflTransGen n.Refers r q →
      r ∈ c := by
    intro r hqr hrq
    rw [eq_groupOf_of_mem_cycle hc hq, mem_groupOf]
    exact ⟨hqr, hrq⟩
  replace hqp := hqp.to_reflTransGen
  clear hne
  induction hpq using Relation.TransGen.head_induction_on with
  | single h => exact .single ⟨hp, hq, h⟩
  | head h hrest ih =>
    have hr := hmem _ (hqp.tail h) hrest.to_reflTransGen
    exact .head ⟨hp, hr, h⟩ (ih hr (hqp.tail h))

/-- A way between different files is one step, or a step to a third file and a way from there. -/
theorem single_or_exists {r : String → String → Prop} (h : Relation.TransGen (Among c r) p q)
    (hne : p ≠ q) :
    r p q ∨ ∃ m ∈ c, m ≠ p ∧ m ≠ q ∧ r p m ∧ Relation.TransGen (Among c r) m q := by
  induction h using Relation.TransGen.head_induction_on with
  | single h => exact .inl h.2.2
  | @head p m h hrest ih =>
    by_cases hback : m = p
    · subst hback
      exact ih hne
    by_cases hthere : m = q
    · subst hthere
      exact .inl h.2.2
    exact .inr ⟨m, h.2.1, hback, hthere, h.2.2, hrest⟩

end Network

namespace Snapshot

variable (s : Snapshot)

/-! ### Circles -/

/-- Whether a path is a file of the graph: a node that is no package. -/
def IsFile (p : String) : Prop :=
  ∃ node, (p, node) ∈ s.nodes ∧ node.kind.equalsText "external" = false

/-- Whether a file refers to another one: by an edge between two files that found its target. -/
def Refers (p q : String) : Prop :=
  s.IsFile p ∧ s.IsFile q ∧
    ∃ e ∈ s.edges, e.source = .text p ∧ e.target = .text q ∧ e.unresolved.truthy = false

/-- The files of a snapshot's network are those of the snapshot. -/
theorem mem_files_network (p : String) : p ∈ s.network.files ↔ s.IsFile p := by
  simp [network, Network.ofLinks, IsFile]

/-- One file refers to another in the network when a resolved reference of the snapshot says so. -/
theorem refers_network : s.network.Refers = s.Refers := by
  funext p q
  apply propext
  unfold network
  dsimp only
  rw [Network.refers_ofLinks, List.mem_filterMap, and_comm, and_assoc, Refers, ← mem_files_network,
    ← mem_files_network]
  refine and_congr_right fun _ => and_congr_right fun _ => exists_congr fun e =>
    and_congr_right fun _ => ?_
  constructor
  · intro h
    split at h
    · next hresolved hsource htarget =>
      cases h
      exact ⟨hsource, htarget, hresolved⟩
    · cases h
  · rintro ⟨hsource, htarget, hresolved⟩
    rw [hsource, htarget, hresolved]

/-- Whether a list is a circle: files in the order of their paths that depend on one another. -/
structure IsCircle (c : List String) : Prop where
  /-- There are two files at least, -/
  two_le : 2 ≤ c.length
  /-- in the order of their paths. -/
  ordered : c.Pairwise (· < ·)
  /-- Each is reached from each other one by references from file to file of the circle, -/
  connected : ∀ p ∈ c, ∀ q ∈ c, p ≠ q →
    Relation.TransGen (Network.Among c s.Refers) p q
  /-- and there is no further file that depends on them and they on it. -/
  whole : ∀ p ∈ c, ∀ q, Relation.TransGen s.Refers p q → Relation.TransGen s.Refers q p → q ∈ c

/-- **The cycles of the graph are exactly the circles.** -/
theorem mem_cycles_iff {c : List String} : c ∈ s.network.cycles ↔ s.IsCircle c := by
  constructor
  · intro hc
    obtain ⟨hlen, r, -, hgroup⟩ := s.network.mem_cycles.mp hc
    refine ⟨hlen, hgroup ▸ s.network.pairwise_groupOf r, fun p hp q hq hne => ?_,
      fun p hp q hpq hqp => ?_⟩
    · rw [← refers_network]
      exact Network.transGen_among hc hp hq hne
    · rw [← refers_network] at hpq hqp
      rw [Network.eq_groupOf_of_mem_cycle hc hp, Network.mem_groupOf]
      exact ⟨hpq.to_reflTransGen, hqp.to_reflTransGen⟩
  · intro h
    obtain ⟨p, hp⟩ := List.exists_mem_of_length_pos (Nat.lt_of_lt_of_le Nat.zero_lt_two h.two_le)
    have hreaches : ∀ a ∈ c, ∀ b ∈ c, a ≠ b → Relation.TransGen s.network.Refers a b := by
      intro a ha b hb hne
      rw [refers_network]
      exact Relation.TransGen.mono (fun _ _ hab => hab.2.2) _ _ (h.connected a ha b hb hne)
    obtain ⟨q, hq, hne⟩ := (Sorting.two_le_length_iff h.ordered.nodup hp).mp h.two_le
    refine s.network.mem_cycles.mpr ⟨h.two_le, p,
      Network.mem_files_of_transGen (hreaches p hp q hq hne.symm),
      (s.network.eq_groupOf_iff).mpr ⟨h.ordered, fun r => ?_⟩⟩
    by_cases hr : p = r
    · subst hr
      exact iff_of_true hp (Network.Mutual.refl p)
    · rw [Network.mutual_iff_of_ne hr]
      refine ⟨fun hmem => ⟨hreaches p hp r hmem hr, hreaches r hmem p hp (Ne.symm hr)⟩, ?_⟩
      rw [refers_network]
      exact fun ⟨hpr, hrp⟩ => h.whole p hp r hpr hrp

/-! ### Arrows -/

/-- Whether the line of a circle has an arrow between two files. -/
def IsArrow (c : List String) (p q : String) : Prop := ∃ front back, c = front ++ p :: q :: back

variable {s}

/-- **An arrow is a reference or passes over a file of the circle**: to that one the first file
refers, and from there the way leads to the second one. -/
theorem IsCircle.refers_or_exists {c : List String} (h : s.IsCircle c) {p q : String}
    (harrow : IsArrow c p q) :
    s.Refers p q ∨ ∃ m ∈ c, m ≠ p ∧ m ≠ q ∧ s.Refers p m ∧
      Relation.TransGen (Network.Among c s.Refers) m q := by
  obtain ⟨front, back, rfl⟩ := harrow
  have hne : p ≠ q := by
    have hnodup := (List.nodup_append.mp h.ordered.nodup).2.1
    exact fun heq => (List.nodup_cons.mp hnodup).1 (heq ▸ List.mem_cons_self)
  exact Network.single_or_exists (h.connected p (by simp) q (by simp) hne) hne

/-- The arrow between two files that have a circle of their own stands for references both ways. -/
theorem IsCircle.refers_of_pair {p q : String} (h : s.IsCircle [p, q]) :
    s.Refers p q ∧ s.Refers q p := by
  have hne : p ≠ q := by simpa using h.ordered.nodup
  have hboth : ∀ a ∈ [p, q], ∀ b ∈ [p, q], a ≠ b → s.Refers a b := by
    intro a ha b hb hab
    refine (Network.single_or_exists (h.connected a ha b hb hab) hab).resolve_right ?_
    rintro ⟨m, hm, hma, hmb, -⟩
    simp only [List.mem_cons, List.not_mem_nil, or_false] at ha hb hm
    grind
  exact ⟨hboth p (by simp) q (by simp) hne, hboth q (by simp) p (by simp) hne.symm⟩

end Snapshot

namespace Document

/-! ### The document -/

/-- The line of a circle. -/
def circleLine (c : List String) : String := "- " ++ " -> ".intercalate c

/-- The lines about circles. -/
def circleLines (circles : List (List String)) : List String :=
  ifAny circles (["", "**Circular references**:"] ++ circles.map circleLine)

/-- Every circle of references has its line in the document. -/
theorem circleLine_mem {s : Snapshot} {c : List String} (h : s.IsCircle c) :
    circleLine c ∈ architecture s := by
  have hc : c ∈ s.network.cycles := s.mem_cycles_iff.mpr h
  have hmem : circleLine c ∈ circleLines s.network.cycles := by
    unfold circleLines ifAny
    rw [if_neg (by simpa using List.ne_nil_of_mem hc)]
    exact List.mem_append_right _ (List.mem_map_of_mem hc)
  exact List.mem_append_right _ (List.mem_append_left _ (List.mem_append_right _ hmem))

open Snapshot in
/-- **The architecture has a line for every circle, and for nothing else.** An arrow between
neighbours in it is a reference or passes over files of the same circle. -/
theorem architecture_circles (s : Snapshot) : ∃ front counts circles hubs,
    architecture s = front ++ (counts ++ circleLines circles ++ hubs) ∧
      networkLines s = counts ++ circleLines circles ++ hubs ∧ counts.length = 6 ∧
      circles.Pairwise (· < ·) ∧ (∀ c, c ∈ circles ↔ s.IsCircle c) ∧
      ∀ c ∈ circles, (∀ p q, IsArrow c p q → s.Refers p q ∨
          ∃ m ∈ c, m ≠ p ∧ m ≠ q ∧ s.Refers p m ∧
            Relation.TransGen (Network.Among c s.Refers) m q) ∧
        (c.length = 2 → ∀ p q, IsArrow c p q → s.Refers p q ∧ s.Refers q p) := by
  refine ⟨_, _, s.network.cycles, _, rfl, rfl, rfl, s.network.pairwise_cycles,
    fun c => s.mem_cycles_iff, fun c hc => ⟨fun p q harrow => ?_, fun hlen p q harrow => ?_⟩⟩
  · exact ((s.mem_cycles_iff).mp hc).refers_or_exists harrow
  · obtain ⟨front, back, rfl⟩ := harrow
    simp only [List.length_append, List.length_cons] at hlen
    obtain rfl : front = [] := List.eq_nil_of_length_eq_zero (by omega)
    obtain rfl : back = [] := List.eq_nil_of_length_eq_zero (by omega)
    exact ((s.mem_cycles_iff).mp hc).refers_of_pair

/-! ### Three files in a circle -/

/-- A script. -/
def script : Snapshot.Node := ⟨.text "module", .text "javascript", [], [], .null⟩

/-- A reference that was found. -/
def reference (source target : String) : Snapshot.Edge :=
  ⟨.text source, .text target, .text "import", .text target, .bool false⟩

/-- Three scripts of which the first one refers to the last one, that one to the one in the middle
and this one to the first one. -/
def turned : Snapshot where
  header := ⟨.text "p", .text "/p", .text "", .text "", []⟩
  profile := ⟨.text "node", .text "javascript", [], .text "", .text "", []⟩
  tree := .node (.text "p") (.text "") (.text "") [] [] (.nat 0) (.nat 0) (.bool true)
  outline := ⟨[], [], []⟩
  packages := ⟨[], [], []⟩
  nodes := [("a.js", script), ("b.js", script), ("c.js", script)]
  edges := [reference "a.js" "c.js", reference "b.js" "a.js", reference "c.js" "b.js"]
  figures := ⟨.nat 3, .nat 3, .table [], .text "low"⟩
  score := .nat 100
  findings := []
  suggestions := []
  security := []
  counsel := ⟨.list [], .text "", .text "", .list [], .text "", .list []⟩

/-- The files of the example are three. -/
theorem isFile_turned {p : String} : turned.IsFile p ↔ p ∈ ["a.js", "b.js", "c.js"] := by
  constructor
  · rintro ⟨node, hmem, -⟩
    exact (List.mem_map_of_mem hmem : p ∈ turned.nodes.map Prod.fst)
  · intro h
    refine ⟨script, ?_, by decide⟩
    simpa [turned] using h

/-- The references of the example turn against the order of the names. -/
theorem refers_turned {p q : String} : turned.Refers p q ↔
    (p, q) ∈ [("a.js", "c.js"), ("b.js", "a.js"), ("c.js", "b.js")] := by
  constructor
  · rintro ⟨-, -, e, he, hsource, htarget, -⟩
    simp only [turned, List.mem_cons, List.not_mem_nil, or_false] at he
    rcases he with rfl | rfl | rfl <;> cases hsource <;> cases htarget <;> decide
  · intro h
    simp only [List.mem_cons, List.not_mem_nil, or_false, Prod.mk.injEq] at h
    rcases h with ⟨rfl, rfl⟩ | ⟨rfl, rfl⟩ | ⟨rfl, rfl⟩ <;>
      exact ⟨isFile_turned.mpr (by decide), isFile_turned.mpr (by decide),
        reference _ _, by simp [turned], rfl, rfl, rfl⟩

/-- The three files of the example are one circle. -/
theorem isCircle_turned : turned.IsCircle ["a.js", "b.js", "c.js"] where
  two_le := by decide
  ordered := by decide
  connected := by
    have hstep : ∀ p q, (p, q) ∈ [("a.js", "c.js"), ("b.js", "a.js"), ("c.js", "b.js")] →
        Relation.TransGen (Network.Among ["a.js", "b.js", "c.js"] turned.Refers) p q := by
      intro p q h
      have hrefers := refers_turned.mpr h
      exact .single ⟨isFile_turned.mp hrefers.1, isFile_turned.mp hrefers.2.1, hrefers⟩
    have hac := hstep "a.js" "c.js" (by decide)
    have hcb := hstep "c.js" "b.js" (by decide)
    have hba := hstep "b.js" "a.js" (by decide)
    intro p hp q hq hne
    simp only [List.mem_cons, List.not_mem_nil, or_false] at hp hq
    rcases hp with rfl | rfl | rfl <;> rcases hq with rfl | rfl | rfl
    all_goals first
      | exact absurd rfl hne
      | assumption
      | exact hac.trans hcb
      | exact hcb.trans hba
      | exact hba.trans hac
  whole p _ q _ hqp := by
    obtain ⟨r, hqr, -⟩ := Relation.TransGen.head'_iff.mp hqp
    exact isFile_turned.mp hqr.1

/-- **The circle of the three scripts is printed with an arrow from the first one to the one in the
middle, which it does not refer to.** -/
theorem architecture_turned :
    "- a.js -> b.js -> c.js" ∈ architecture turned ∧ turned.IsCircle ["a.js", "b.js", "c.js"] ∧
      Snapshot.IsArrow ["a.js", "b.js", "c.js"] "a.js" "b.js" ∧ ¬ turned.Refers "a.js" "b.js" := by
  refine ⟨circleLine_mem isCircle_turned, isCircle_turned, ⟨[], ["c.js"], rfl⟩, ?_⟩
  rw [refers_turned]
  decide

end Document

end ProjectSurvey
