import Mathlib.Algebra.BigOperators.Group.List.Basic
import ProjectSurvey.Advice
import ProjectSurvey.Structure

/-!
# The parts of a survey one by one

What holds of the metrics, the layout, the dependencies and the advice by themselves, whatever they
were made from: **the histogram counts every file once** (`Metrics.sum_histogram`), the layout has
one entry for each directory at the root (`Layout.directories_ofTree`), **no package is both for
production and for development** (`Dependencies.disjoint_ofManifests`), and `security` comes first
exactly if there is a finding about it (`Advice.head?_priority_iff`).
-/

namespace ProjectSurvey

namespace Metrics

/-! ### The histogram -/

/-- One more for a key is one more in all. -/
theorem sum_tally (h : Assoc String Int) (r : FileRecord) :
    ((tally h r).map Prod.snd).sum = (h.map Prod.snd).sum + 1 := by
  unfold tally
  dsimp only
  generalize (if r.extension = "" then noExtension else r.extension) = key
  induction h with
  | nil => rfl
  | cons p rest ih =>
    obtain ⟨k, v⟩ := p
    rw [Assoc.insert, Assoc.get?]
    by_cases hk : k = key
    · rw [if_pos hk, if_pos hk, List.map_cons, List.map_cons, List.sum_cons, List.sum_cons,
        Option.getD_some]
      omega
    · rw [if_neg hk, if_neg hk, List.map_cons, List.map_cons, List.sum_cons, List.sum_cons, ih]
      omega

/-- The tallies of some records count all of them. -/
theorem sum_foldl_tally (records : List FileRecord) (h : Assoc String Int) :
    ((records.foldl tally h).map Prod.snd).sum = (h.map Prod.snd).sum + records.length := by
  induction records generalizing h with
  | nil => simp
  | cons r rest ih =>
    rw [List.foldl_cons, ih, sum_tally, List.length_cons]
    omega

/-- One more for a key adds no second entry for it. -/
theorem nodup_foldl_tally (records : List FileRecord) :
    (Assoc.keys (records.foldl tally [])).Nodup := by
  apply List.foldlRecOn (motive := fun h => (Assoc.keys h).Nodup)
  · exact List.nodup_nil
  · exact fun h hnodup r _ => Assoc.nodup_keys_insert _ _ hnodup

variable (t : Tables) (records : List FileRecord) (evidence : Assoc String Evidence)

/-- **The histogram counts every file once.** -/
theorem sum_histogram :
    ((measure t records evidence).histogram.map Prod.snd).sum = records.length := by
  have hperm := (records.foldl tally []).mergeSort_perm fun a b => decide (a.1 ≤ b.1)
  have hsum := sum_foldl_tally records []
  rw [List.map_nil, List.sum_nil, Int.zero_add] at hsum
  rw [← hsum]
  exact (hperm.map Prod.snd).sum_eq

/-- No extension is in the histogram twice. -/
theorem nodup_histogram : (Assoc.keys (measure t records evidence).histogram).Nodup := by
  have hperm := (records.foldl tally []).mergeSort_perm fun a b => decide (a.1 ≤ b.1)
  exact (hperm.map Prod.fst).nodup_iff.mpr (nodup_foldl_tally records)

end Metrics

namespace Layout

/-! ### The directories at the root -/

/-- Directories with different names each have an entry of their own. -/
theorem directories_ofTree (t : Tables) {tree : Directory}
    (hnames : (tree.directories.map Directory.name).Nodup) :
    (ofTree t tree).directories = tree.directories.map fun d => (d.name, summarize t d) := by
  unfold ofTree
  dsimp only
  rw [Assoc.foldl_insert_of_nodup Directory.name _ _ (by simpa [Assoc.keys] using hnames),
    List.nil_append]

end Layout

namespace Dependencies

/-! ### The declared packages -/

variable {t : Tables} {manifests : Manifests}

/-- The production packages are those that some manifest asks for. -/
theorem mem_production_iff {p : String} : p ∈ (ofManifests t manifests).production ↔
    ∃ m ∈ manifests, p ∈ Assoc.keys m.2.production := by
  unfold ofManifests
  dsimp only
  rw [Text.mem_sorted, Text.mem_distinct, List.mem_flatMap]

/-- A package for development is listed as one, unless it is for production too. -/
theorem mem_development_iff {p : String} : p ∈ (ofManifests t manifests).development ↔
    (∃ m ∈ manifests, p ∈ Assoc.keys m.2.development) ∧
      p ∉ (ofManifests t manifests).production := by
  unfold ofManifests
  dsimp only
  rw [Text.mem_sorted, Text.mem_sorted, List.mem_filter, Bool.not_eq_true', ← Bool.not_eq_true,
    List.contains_iff_mem, Text.mem_distinct, List.mem_flatMap]

/-- **No package is both for production and for development.** -/
theorem disjoint_ofManifests :
    (ofManifests t manifests).production.Disjoint (ofManifests t manifests).development :=
  fun _ hproduction hdevelopment => (mem_development_iff.mp hdevelopment).2 hproduction

/-- The names of the declared packages without regard to case. -/
def lowered (d : Dependencies) : List String := (d.production ++ d.development).map Text.lowered

/-- There is no hardening package exactly if none is declared. -/
theorem security_eq_nil_iff : (ofManifests t manifests).security = [] ↔
    ∀ p ∈ t.securityPackages, p ∉ (ofManifests t manifests).lowered := by
  unfold lowered ofManifests
  dsimp only
  -- grouping the packages neither adds nor loses any
  have hmem : ∀ (production development : List String) d, d ∈ Text.sorted production ++
      Text.sorted (development.filter fun d => !production.contains d) ↔
      d ∈ production ++ development := by
    intro production development d
    rw [List.mem_append, List.mem_append, Text.mem_sorted, Text.mem_sorted, List.mem_filter,
      Bool.not_eq_true', ← Bool.not_eq_true, List.contains_iff_mem]
    tauto
  simp only [List.filter_eq_nil_iff, List.contains_iff_mem, List.mem_map, hmem]

end Dependencies

/-! ### What comes first -/

/-- The first text stays first when repetitions are dropped. -/
theorem Text.head?_distinct (xs : List String) : (Text.distinct xs).head? = xs.head? := by
  rw [Text.distinct_eq_eraseDups]
  cases xs with
  | nil => rfl
  | cons x rest => rw [List.eraseDups_cons, List.head?_cons, List.head?_cons]

namespace Advice

/-- **`security` comes first exactly if there is a finding about it.** -/
theorem head?_priority_iff (m : Metrics) (v : Verdict) (security : List Finding)
    (p : ProjectProfile) :
    (synthesize m v security p).priority.head? = some "security" ↔ security ≠ [] := by
  unfold synthesize priorityOf
  dsimp only
  rw [Text.head?_distinct]
  cases security with
  | nil =>
    constructor
    · intro hhead
      have hmem := List.mem_of_mem_head? hhead
      simp [phraseIf] at hmem
    · exact fun hne => absurd rfl hne
  | cons f rest => simp [phraseIf]

end Advice

end ProjectSurvey
