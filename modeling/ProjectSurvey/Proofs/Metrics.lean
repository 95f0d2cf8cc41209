import Mathlib.Algebra.Order.BigOperators.Group.List
import Mathlib.Data.List.Induction
import ProjectSurvey.Proofs.Sorting
import ProjectSurvey.Proofs.Survey.Parts

/-!
# Metrics of files put together

Measuring is counting: a file is one more for its entry of the histogram and, if it is a source
file, one more source file with the lines that were read of it (`measure_counts`). **So the metrics
of two groups of files add up, the order of the files does not matter, and more files never make a
project less complex** (`measure_addsUp`). Complexity goes by two numbers at once, and what is
neither low nor high is no rectangle of them; it grows with both because leaving the lowest step
takes only one of them and reaching the highest takes both (`Complexity.rank_classify_le`).
-/

namespace ProjectSurvey

/-! ### Steps of complexity -/

namespace Complexity

/-- The place of a complexity, from low to high. -/
def rank : Complexity → Nat
  | low => 0
  | medium => 1
  | high => 2

variable {files files' lines lines' : Int}

/-- Complexity is low below both of the lower bounds. -/
theorem classify_eq_low_iff : classify files lines = low ↔ files < 50 ∧ lines < 5000 := by
  unfold classify
  split_ifs <;> simp [*]

/-- Complexity is high from both of the upper bounds on. -/
theorem classify_eq_high_iff : classify files lines = high ↔ 200 ≤ files ∧ 20000 ≤ lines := by
  unfold classify
  split_ifs with hlow hhigh
  · simp only [false_iff]
    omega
  · simp [hhigh]
  · simp [hhigh]

/-- Neither more files nor more lines make a project less complex. -/
theorem rank_classify_le (hfiles : files ≤ files') (hlines : lines ≤ lines') :
    (classify files lines).rank ≤ (classify files' lines').rank := by
  unfold classify
  split_ifs <;> simp only [rank] <;> omega

end Complexity

namespace Metrics

/-! ### The histogram -/

/-- The entry of the histogram under which a file is counted. -/
def entryOf (r : FileRecord) : String := if r.extension = "" then noExtension else r.extension

/-- How many files there are under an entry of the histogram. -/
def filesUnder (m : Metrics) (key : String) : Int := (Assoc.get? key m.histogram).getD 0

/-- One record adds one to the count of its entry. -/
theorem tally_eq (h : Assoc String Int) (r : FileRecord) :
    tally h r = Assoc.insert (entryOf r) ((Assoc.get? (entryOf r) h).getD 0 + 1) h := rfl

/-- There is an entry for whatever files there are, and it tells how many. -/
theorem get?_foldl_tally (records : List FileRecord) (key : String) :
    Assoc.get? key (records.foldl tally []) =
      if records.countP (fun r => entryOf r = key) = 0 then none
      else some (records.countP (fun r => entryOf r = key) : Int) := by
  induction records using List.reverseRecOn with
  | nil => rfl
  | append_singleton records r ih =>
    rw [List.foldl_append, List.foldl_cons, List.foldl_nil, tally_eq, Assoc.get?_insert,
      List.countP_append, List.countP_singleton]
    by_cases hkey : entryOf r = key
    · subst hkey
      rw [ih]
      split_ifs <;> simp_all
    · simp [hkey, ih]

variable (t : Tables) (evidence : Assoc String Evidence)

/-- The histogram is the tally of all records, sorted by the entry. -/
theorem histogram_measure (records : List FileRecord) :
    (measure t records evidence).histogram =
      (records.foldl tally []).mergeSort (Sorting.before Prod.fst) := rfl

/-- An entry of the histogram counts the records it stands for, and is missing when there are
none. -/
theorem get?_histogram (records : List FileRecord) (key : String) :
    Assoc.get? key (measure t records evidence).histogram =
      if records.countP (fun r => entryOf r = key) = 0 then none
      else some (records.countP (fun r => entryOf r = key) : Int) := by
  rw [← get?_foldl_tally, histogram_measure]
  exact Assoc.get?_of_perm (List.mergeSort_perm _ _) (nodup_histogram t records evidence) key

/-- The files under an entry are the records it stands for. -/
theorem filesUnder_measure (records : List FileRecord) (key : String) :
    (measure t records evidence).filesUnder key = records.countP (fun r => entryOf r = key) := by
  rw [filesUnder, get?_histogram]
  split_ifs with h
  · rw [h]
    rfl
  · rfl

/-- The entries come in the order of their names. -/
theorem pairwise_histogram (records : List FileRecord) :
    (Assoc.keys (measure t records evidence).histogram).Pairwise (· < ·) := by
  rw [Assoc.keys, List.pairwise_map]
  exact Sorting.pairwise_mergeSort_lt Prod.fst (nodup_foldl_tally records)

/-- The histogram goes by how many files there are under each entry. -/
theorem histogram_eq_of_perm {records records' : List FileRecord} (h : records.Perm records') :
    (measure t records evidence).histogram = (measure t records' evidence).histogram := by
  refine Sorting.mergeSort_eq_of_perm Prod.fst ?_
    (Sorting.pairwise_mergeSort_lt Prod.fst (nodup_foldl_tally records'))
  refine (List.mergeSort_perm _ _).trans ?_
  refine Assoc.perm_of_get? (nodup_foldl_tally records') (nodup_foldl_tally records) fun key => ?_
  rw [get?_foldl_tally, get?_foldl_tally, h.countP_eq]

/-! ### Files and lines -/

/-- The lines that a file adds: those that were read of it, if it is a source file. -/
def linesOf (r : FileRecord) : Int :=
  if t.isCountable r.language then ((Assoc.get? r.path evidence).bind Evidence.lines).getD 0 else 0

/-- The files in all are the records in countable languages. -/
theorem totalFiles_measure (records : List FileRecord) :
    (measure t records evidence).totalFiles =
      records.countP fun r => t.isCountable r.language := by
  rw [List.countP_eq_length_filter]
  rfl

/-- The lines in all are those of the records together. -/
theorem totalLines_measure (records : List FileRecord) :
    (measure t records evidence).totalLines = (records.map (linesOf t evidence)).sum := by
  show ((records.filter _).map _).sum = _
  induction records with
  | nil => rfl
  | cons r records ih =>
    rw [List.filter_cons, List.map_cons, List.sum_cons, ← ih, linesOf]
    split_ifs <;> simp

/-- The complexity is told by the two totals. -/
theorem complexity_measure (records : List FileRecord) :
    (measure t records evidence).complexity = Complexity.classify
      (measure t records evidence).totalFiles (measure t records evidence).totalLines := by
  unfold measure
  rfl

/-- What is uncountable, or has no count of lines, adds none. -/
theorem linesOf_eq_zero {r : FileRecord} (h : t.isCountable r.language = false ∨
    (Assoc.get? r.path evidence).bind Evidence.lines = none) : linesOf t evidence r = 0 := by
  unfold linesOf
  rcases h with h | h <;> simp [h]

variable {evidence} in
/-- No record adds a negative number of lines. -/
theorem linesOf_nonneg (hlines : ∀ e ∈ evidence, ∀ n, e.2.lines = some n → 0 ≤ n)
    (r : FileRecord) : 0 ≤ linesOf t evidence r := by
  unfold linesOf
  split_ifs
  · cases hread : (Assoc.get? r.path evidence).bind Evidence.lines with
    | none => exact Int.le_refl 0
    | some n =>
      obtain ⟨e, he, hn⟩ := Option.bind_eq_some_iff.mp hread
      exact hlines _ (Assoc.mem_of_get? he) n hn
  · exact Int.le_refl 0

/-! ### Put together -/

/-- What the metrics of some files count. -/
structure Counts (records : List FileRecord) (m : Metrics) : Prop where
  /-- Every source file is one file, -/
  totalFiles : m.totalFiles = records.countP fun r => t.isCountable r.language
  /-- with its lines. -/
  totalLines : m.totalLines = (records.map (linesOf t evidence)).sum
  /-- An entry of the histogram is a number of files, one at least, -/
  histogram : ∀ key n, (key, n) ∈ m.histogram ↔
    0 < n ∧ n = records.countP fun r => entryOf r = key
  /-- and comes once, in the order of the names. -/
  ordered : (Assoc.keys m.histogram).Pairwise (· < ·)
  /-- Every file is counted in one of them. -/
  sum_histogram : (m.histogram.map Prod.snd).sum = records.length
  /-- The complexity is low if both numbers are small, -/
  low_iff : m.complexity = .low ↔ m.totalFiles < 50 ∧ m.totalLines < 5000
  /-- and high if both are large. -/
  high_iff : m.complexity = .high ↔ 200 ≤ m.totalFiles ∧ 20000 ≤ m.totalLines

/-- Metrics that two others add up to. -/
structure IsSum (m a b : Metrics) : Prop where
  /-- The files add up, -/
  totalFiles : m.totalFiles = a.totalFiles + b.totalFiles
  /-- the lines, -/
  totalLines : m.totalLines = a.totalLines + b.totalLines
  /-- and the files under each entry of the histogram. -/
  filesUnder : ∀ key, m.filesUnder key = a.filesUnder key + b.filesUnder key

/-- The metrics of some records count them. -/
theorem measure_counts (records : List FileRecord) :
    Counts t evidence records (measure t records evidence) where
  totalFiles := totalFiles_measure t evidence records
  totalLines := totalLines_measure t evidence records
  histogram key n := by
    rw [← Assoc.get?_eq_some_iff (nodup_histogram t records evidence), get?_histogram]
    split_ifs with h
    · simp only [false_iff]
      omega
    · rw [Option.some.injEq]
      omega
  ordered := pairwise_histogram t evidence records
  sum_histogram := sum_histogram t records evidence
  low_iff := Complexity.classify_eq_low_iff
  high_iff := Complexity.classify_eq_high_iff

/-- The metrics of more records are sums. -/
theorem measure_isSum (records more : List FileRecord) :
    (measure t (records ++ more) evidence).IsSum (measure t records evidence)
      (measure t more evidence) where
  totalFiles := by simp only [totalFiles_measure, List.countP_append, Int.natCast_add]
  totalLines := by simp only [totalLines_measure, List.map_append, List.sum_append]
  filesUnder key := by simp only [filesUnder_measure, List.countP_append, Int.natCast_add]

/-- The order of the files does not matter. -/
theorem measure_eq_of_perm {records records' : List FileRecord} (h : records.Perm records') :
    measure t records evidence = measure t records' evidence := by
  have hfiles : (measure t records evidence).totalFiles =
      (measure t records' evidence).totalFiles := by
    rw [totalFiles_measure, totalFiles_measure, h.countP_eq]
  have hlines : (measure t records evidence).totalLines =
      (measure t records' evidence).totalLines := by
    rw [totalLines_measure, totalLines_measure, (h.map _).sum_eq]
  have hcomplexity : (measure t records evidence).complexity =
      (measure t records' evidence).complexity := by
    rw [complexity_measure, complexity_measure, hfiles, hlines]
  calc measure t records evidence
      = ⟨(measure t records evidence).totalFiles, (measure t records evidence).totalLines,
          (measure t records evidence).histogram, (measure t records evidence).complexity⟩ := rfl
    _ = measure t records' evidence := by
      rw [hfiles, hlines, hcomplexity, histogram_eq_of_perm t evidence h]

/-- **The metrics of files put together add up, whatever the order, and never say that the project
is less complex than a part of it.** -/
theorem measure_addsUp (t : Tables) {evidence : Assoc String Evidence}
    (hlines : ∀ e ∈ evidence, ∀ n, e.2.lines = some n → 0 ≤ n) (records more : List FileRecord) :
    Counts t evidence records (measure t records evidence) ∧
      (measure t (records ++ more) evidence).IsSum (measure t records evidence)
        (measure t more evidence) ∧
      (∀ others : List FileRecord, others.Perm records →
        measure t others evidence = measure t records evidence) ∧
      (∀ r : FileRecord, t.isCountable r.language = false ∨
          (Assoc.get? r.path evidence).bind Evidence.lines = none →
        (measure t (r :: records) evidence).totalLines = (measure t records evidence).totalLines) ∧
      (measure t records evidence).complexity.rank ≤
        (measure t (records ++ more) evidence).complexity.rank := by
  have hsum := measure_isSum t evidence records more
  refine ⟨measure_counts t evidence records, hsum, ?_, ?_, ?_⟩
  · intro others hperm
    exact measure_eq_of_perm t evidence hperm
  · intro r hr
    rw [totalLines_measure, totalLines_measure, List.map_cons, List.sum_cons,
      linesOf_eq_zero t evidence hr, Int.zero_add]
  · have hlines : 0 ≤ (measure t more evidence).totalLines := by
      rw [totalLines_measure]
      apply List.sum_nonneg
      intro n hn
      obtain ⟨r, -, rfl⟩ := List.mem_map.mp hn
      exact linesOf_nonneg t hlines r
    have hfiles : 0 ≤ (measure t more evidence).totalFiles := by
      rw [totalFiles_measure]
      exact Int.natCast_nonneg _
    rw [complexity_measure, complexity_measure, hsum.totalFiles, hsum.totalLines]
    apply Complexity.rank_classify_le <;> omega

/-- A script and a file without extension, and one more script of a single line: that line makes
the project one of medium size. -/
theorem measure_addsUp_lastLine :
    let script (path : String) : FileRecord :=
      ⟨path, 1, ".py", ⟨"python", none, []⟩, .ofInt 0, 0⟩
    let recipe : FileRecord := ⟨"Makefile", 1, "", ⟨"makefile", none, []⟩, .ofInt 0, 0⟩
    let evidence : Assoc String Evidence := [("a.py", ⟨"a.py", some 4999, [], [], []⟩),
      ("b.py", ⟨"b.py", some 1, [], [], []⟩)]
    let before := measure .default [recipe, script "a.py"] evidence
    let after := measure .default ([recipe, script "a.py"] ++ [script "b.py"]) evidence
    (∀ e ∈ evidence, ∀ n, e.2.lines = some n → 0 ≤ n) ∧
      before.complexity = .low ∧ after.complexity = .medium ∧
      after.totalLines = before.totalLines + 1 ∧ after.filesUnder ".py" = 2 ∧
      after.filesUnder noExtension = 1 ∧
      measure .default [script "a.py", recipe] evidence = before ∧
      before.complexity.rank ≤ after.complexity.rank := by
  intro script recipe evidence before after
  have hlines : ∀ e ∈ evidence, ∀ n, e.2.lines = some n → 0 ≤ n := by
    simp [evidence]
  obtain ⟨-, hsum, hperm, -, hrank⟩ :=
    measure_addsUp .default hlines [recipe, script "a.py"] [script "b.py"]
  refine ⟨hlines, by decide, by decide, hsum.totalLines, ?_, ?_, ?_, hrank⟩
  · rw [hsum.filesUnder, filesUnder_measure, filesUnder_measure]
    decide
  · rw [hsum.filesUnder, filesUnder_measure, filesUnder_measure]
    decide
  · exact hperm _ (.swap ..)

end Metrics

end ProjectSurvey
