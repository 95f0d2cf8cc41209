import ProjectSurvey.Graph.Network
import ProjectSurvey.Proofs.Sorting
import Mathlib.Logic.Relation

/-!
# What a search through a network reaches

`Network.reachFrom` goes on level by level and stops when a level brings nothing new, or after as
many levels as there are files. **It reaches exactly what the reflexive and transitive closure of
the neighbour relation relates to the start** (`Network.mem_reachFrom`), on every network, cycles
included.

* That nothing else is reached is an induction on the levels (`Network.reflTransGen_of_mem_spread`).
* That nothing is missed rests on an invariant (`Network.IsOpen`): whatever was seen is either on
  the frontier or has all its neighbours among what was seen. A level keeps it, and each level that
  brings something new leaves fewer files unseen, so that the levels cannot run out too early.
-/

namespace ProjectSurvey

/-! ### What is met -/

namespace Text

variable {α : Type} [BEq α] [LawfulBEq α] [Hashable α]

/-- After adding some elements the members are the old ones and these. -/
@[simp] theorem Met.mem_members_foldl_add (xs : List α) (m : Met α) (x : α) :
    x ∈ (xs.foldl Met.add m).members ↔ x ∈ m.members ∨ x ∈ xs := by
  induction xs generalizing m with
  | nil => simp
  | cons y rest ih =>
    rw [List.foldl_cons, ih, Met.add]
    split
    · next hmet =>
      rw [Std.HashSet.contains_iff_mem] at hmet
      constructor <;> grind
    · simp only [Std.HashSet.mem_insert, beq_iff_eq, List.mem_cons]
      tauto

/-- After adding some elements the latest are the old ones and those that are new. -/
theorem Met.mem_latestFirst_foldl_add (xs : List α) (m : Met α) (x : α) :
    x ∈ (xs.foldl Met.add m).latestFirst ↔ x ∈ m.latestFirst ∨ (x ∈ xs ∧ x ∉ m.members) := by
  induction xs generalizing m with
  | nil => simp
  | cons y rest ih =>
    rw [List.foldl_cons, ih, Met.add]
    split
    · next hmet =>
      rw [Std.HashSet.contains_iff_mem] at hmet
      grind
    · next hnew =>
      rw [Std.HashSet.contains_iff_mem] at hnew
      simp only [Std.HashSet.mem_insert, beq_iff_eq, List.mem_cons]
      grind

/-- The sorted list of different texts is in strict order. -/
theorem pairwise_sorted_lt {xs : List String} (h : xs.Nodup) : (sorted xs).Pairwise (· < ·) := by
  apply Sorting.pairwise_mergeSort_lt id
  simpa using h

end Text

namespace Network

variable {next : String → List String}

/-- Whether `b` is a neighbour of `a`. -/
def Leads (next : String → List String) (a b : String) : Prop := b ∈ next a

/-! ### One level -/

/-- What is met when one goes on from a frontier. -/
def level (next : String → List String) (frontier : List String) (seen : Std.HashSet String) :
    Text.Met String :=
  (frontier.flatMap next).foldl Text.Met.add ⟨seen, []⟩

/-- A level of the search adds to the seen what the frontier leads to. -/
theorem mem_members_level (frontier : List String) (seen : Std.HashSet String) (x : String) :
    x ∈ (level next frontier seen).members ↔ x ∈ seen ∨ ∃ a ∈ frontier, Leads next a x := by
  simp [level, Leads]

/-- Its new frontier is what had not been seen. -/
theorem mem_latestFirst_level (frontier : List String) (seen : Std.HashSet String) (x : String) :
    x ∈ (level next frontier seen).latestFirst ↔
      x ∈ (level next frontier seen).members ∧ x ∉ seen := by
  rw [mem_members_level, level, Text.Met.mem_latestFirst_foldl_add]
  simp only [List.not_mem_nil, false_or, List.mem_flatMap, Leads]
  tauto

/-- The search goes on level by level until a level brings nothing new. -/
theorem spread_succ (levels : Nat) (frontier : List String) (seen : Std.HashSet String) :
    spread next (levels + 1) frontier seen =
      if (level next frontier seen).latestFirst = [] then (level next frontier seen).members
      else spread next levels (level next frontier seen).latestFirst
        (level next frontier seen).members := by
  rw [spread, ← level]
  rcases level next frontier seen with ⟨members, _ | ⟨x, rest⟩⟩ <;> simp

/-! ### Nothing else is reached -/

/-- What is reached was seen before or is related to something on the frontier. -/
theorem reflTransGen_of_mem_spread {levels : Nat} {frontier : List String}
    {seen : Std.HashSet String} {x : String} (h : x ∈ spread next levels frontier seen) :
    x ∈ seen ∨ ∃ a ∈ frontier, Relation.ReflTransGen (Leads next) a x := by
  induction levels generalizing frontier seen with
  | zero => exact Or.inl h
  | succ levels ih =>
    rw [spread_succ] at h
    -- what one level meets is one step away from the frontier
    have hmet : ∀ y ∈ (level next frontier seen).members,
        y ∈ seen ∨ ∃ a ∈ frontier, Relation.ReflTransGen (Leads next) a y := by
      intro y hy
      rcases (mem_members_level frontier seen y).mp hy with hseen | ⟨a, ha, hay⟩
      · exact Or.inl hseen
      · exact Or.inr ⟨a, ha, Relation.ReflTransGen.single hay⟩
    split at h
    · exact hmet x h
    · rcases ih h with hmem | ⟨y, hy, hyx⟩
      · exact hmet x hmem
      · obtain ⟨hmem, hnew⟩ := (mem_latestFirst_level frontier seen y).mp hy
        obtain ⟨a, ha, hay⟩ := (hmet y hmem).resolve_left hnew
        exact Or.inr ⟨a, ha, hay.trans hyx⟩

/-! ### Nothing is missed -/

/-- What holds between two levels of a search: the frontier was seen, and whatever was seen is on
the frontier or has all its neighbours among what was seen. -/
structure IsOpen (next : String → List String) (frontier : List String)
    (seen : Std.HashSet String) : Prop where
  /-- The frontier was seen. -/
  seen_of_mem : ∀ a ∈ frontier, a ∈ seen
  /-- What is not on the frontier has no neighbour that was not seen. -/
  done : ∀ a ∈ seen, a ∈ frontier ∨ ∀ b, Leads next a b → b ∈ seen

/-- Whether no neighbour of what was seen is missing. -/
def IsClosed (next : String → List String) (seen : Std.HashSet String) : Prop :=
  ∀ a ∈ seen, ∀ b, Leads next a b → b ∈ seen

/-- At the start the frontier is all that was seen. -/
theorem isOpen_start (file : String) : IsOpen next [file] (Std.HashSet.ofList [file]) where
  seen_of_mem := by simp
  done := by simp

/-- After a level everything seen before it has all its neighbours among what is seen. -/
theorem IsOpen.mem_level {frontier : List String} {seen : Std.HashSet String}
    (h : IsOpen next frontier seen) {a b : String} (ha : a ∈ seen) (hab : Leads next a b) :
    b ∈ (level next frontier seen).members := by
  rw [mem_members_level]
  rcases h.done a ha with hfrontier | hdone
  · exact Or.inr ⟨a, hfrontier, hab⟩
  · exact Or.inl (hdone b hab)

/-- A level keeps the invariant. -/
theorem IsOpen.level {frontier : List String} {seen : Std.HashSet String}
    (h : IsOpen next frontier seen) :
    IsOpen next (level next frontier seen).latestFirst (level next frontier seen).members where
  seen_of_mem a ha := ((mem_latestFirst_level frontier seen a).mp ha).1
  done a ha := by
    by_cases hold : a ∈ seen
    · exact Or.inr fun b hab => h.mem_level hold hab
    · exact Or.inl ((mem_latestFirst_level frontier seen a).mpr ⟨ha, hold⟩)

/-- A level that brings nothing new leaves nothing missing. -/
theorem IsOpen.isClosed_level {frontier : List String} {seen : Std.HashSet String}
    (h : IsOpen next frontier seen) (hnone : (Network.level next frontier seen).latestFirst = []) :
    IsClosed next (Network.level next frontier seen).members := by
  intro a ha b hab
  have hold : a ∈ seen := by
    by_contra hnew
    have hmem := (mem_latestFirst_level frontier seen a).mpr ⟨ha, hnew⟩
    simp [hnone] at hmem
  exact h.mem_level hold hab

/-- The files that were not seen. -/
def unseen (files : List String) (seen : Std.HashSet String) : List String :=
  files.filter fun f => !seen.contains f

/-- The unseen files are the files that are not among the seen. -/
theorem mem_unseen {files : List String} {seen : Std.HashSet String} {f : String} :
    f ∈ unseen files seen ↔ f ∈ files ∧ f ∉ seen := by
  simp [unseen]

/-- Seeing more, one of the files among it, leaves fewer files unseen. -/
theorem length_unseen_lt {files : List String} {seen more : Std.HashSet String}
    (hmore : ∀ a ∈ seen, a ∈ more) {x : String} (hx : x ∈ files) (hnew : x ∉ seen)
    (hseen : x ∈ more) : (unseen files more).length < (unseen files seen).length := by
  have hsub : unseen files more = (unseen files seen).filter fun f => !more.contains f := by
    rw [unseen, unseen, List.filter_filter]
    apply List.filter_congr
    intro f _
    by_cases hf : f ∈ seen
    · simp [hf, hmore f hf]
    · simp [hf]
  rw [hsub]
  apply List.length_filter_lt_length_iff_exists.mpr
  exact ⟨x, mem_unseen.mpr ⟨hx, hnew⟩, by simpa using hseen⟩

/-- Enough levels leave nothing missing. -/
theorem isClosed_spread {files : List String} (hfiles : ∀ a b, Leads next a b → b ∈ files)
    {levels : Nat} {frontier : List String} {seen : Std.HashSet String}
    (hopen : IsOpen next frontier seen) (henough : (unseen files seen).length ≤ levels) :
    IsClosed next (spread next levels frontier seen) := by
  induction levels generalizing frontier seen with
  | zero =>
    have hall : unseen files seen = [] := List.length_eq_zero_iff.mp (by omega)
    intro a _ b hab
    by_contra hnew
    have hb : b ∈ unseen files seen := mem_unseen.mpr ⟨hfiles a b hab, hnew⟩
    simp [hall] at hb
  | succ levels ih =>
    rw [spread_succ]
    split
    · next hnone => exact hopen.isClosed_level hnone
    · next hsome =>
      apply ih hopen.level
      obtain ⟨x, hx⟩ := List.exists_mem_of_ne_nil _ hsome
      obtain ⟨hmem, hnew⟩ := (mem_latestFirst_level frontier seen x).mp hx
      have hfile : x ∈ files := by
        obtain ⟨a, -, hax⟩ := ((mem_members_level frontier seen x).mp hmem).resolve_left hnew
        exact hfiles a x hax
      have hfewer := length_unseen_lt
        (fun a ha => (mem_members_level frontier seen a).mpr (Or.inl ha)) hfile hnew hmem
      omega

/-- What was seen stays seen. -/
theorem mem_spread_of_mem {levels : Nat} {frontier : List String} {seen : Std.HashSet String}
    {x : String} (h : x ∈ seen) : x ∈ spread next levels frontier seen := by
  induction levels generalizing frontier seen with
  | zero => exact h
  | succ levels ih =>
    rw [spread_succ]
    have hmem : x ∈ (level next frontier seen).members :=
      (mem_members_level frontier seen x).mpr (Or.inl h)
    split
    · exact hmem
    · exact ih hmem

/-! ### The search as a whole -/

variable (n : Network)

/-- **A search reaches exactly what the closure of the neighbour relation relates to its start.** -/
theorem mem_reachFrom (hfiles : ∀ a b, Leads next a b → b ∈ n.files) (file x : String) :
    x ∈ n.reachFrom next file ↔ Relation.ReflTransGen (Leads next) file x := by
  constructor
  · intro h
    rcases reflTransGen_of_mem_spread h with hstart | ⟨a, ha, hax⟩
    · obtain rfl : file = x := by simpa using hstart
      exact Relation.ReflTransGen.refl
    · obtain rfl : a = file := by simpa using ha
      exact hax
  · intro h
    have hclosed : IsClosed next (n.reachFrom next file) :=
      isClosed_spread hfiles (isOpen_start file) (List.length_filter_le _ _)
    induction h with
    | refl => exact mem_spread_of_mem (by simp)
    | tail _ hab ih => exact hclosed _ ih _ hab

/-- What is reached is listed without repetition. -/
theorem nodup_toList_reachFrom (file : String) : (n.reachFrom next file).toList.Nodup := by
  have h := (n.reachFrom next file).distinct_toList
  exact h.imp fun hab => by simpa using hab

/-- The files reached are those to which one or more steps lead, the start left out. -/
theorem mem_reachedBy (hfiles : ∀ a b, Leads next a b → b ∈ n.files) (file x : String) :
    x ∈ n.reachedBy next file ↔ x ≠ file ∧ Relation.TransGen (Leads next) file x := by
  rw [reachedBy, Text.mem_sorted, List.mem_filter, Std.HashSet.mem_toList,
    n.mem_reachFrom hfiles, Relation.reflTransGen_iff_eq_or_transGen, decide_eq_true_eq]
  tauto

/-- What is reached is sorted, with nothing in it twice. -/
theorem pairwise_reachedBy (file : String) : (n.reachedBy next file).Pairwise (· < ·) :=
  Text.pairwise_sorted_lt ((n.nodup_toList_reachFrom file).filter _)

/-! ### References, forwards and backwards -/

/-- Whether a file of the network refers to another one. -/
def Refers (a b : String) : Prop := (a, b) ∈ n.links

/-- Following successors is following references. -/
theorem leads_successors : Leads n.successors = n.Refers := by
  funext a b
  rw [Leads, successors_eq]
  simp [Refers]

/-- Following predecessors is following references backwards. -/
theorem leads_predecessors : Leads n.predecessors = Function.swap n.Refers := by
  funext a b
  rw [Leads, predecessors_eq]
  simp [Refers, Function.swap]

/-- A reference leads to a file. -/
theorem mem_files_of_leads_successors (a b : String) (h : Leads n.successors a b) :
    b ∈ n.files := by
  rw [leads_successors] at h
  exact (n.mem_files_of_mem _ h).2

/-- A reference comes from a file. -/
theorem mem_files_of_leads_predecessors (a b : String) (h : Leads n.predecessors a b) :
    b ∈ n.files := by
  rw [leads_predecessors] at h
  exact (n.mem_files_of_mem _ h).1

/-- What is reached forwards are the files on which a file depends. -/
theorem mem_reachedBy_successors (file x : String) :
    x ∈ n.reachedBy n.successors file ↔ x ≠ file ∧ Relation.TransGen n.Refers file x := by
  rw [n.mem_reachedBy n.mem_files_of_leads_successors, leads_successors]

/-- What is reached backwards are the files that depend on a file. -/
theorem mem_reachedBy_predecessors (file x : String) :
    x ∈ n.reachedBy n.predecessors file ↔ x ≠ file ∧ Relation.TransGen n.Refers x file := by
  rw [n.mem_reachedBy n.mem_files_of_leads_predecessors, leads_predecessors,
    Relation.transGen_swap]

end Network

end ProjectSurvey
