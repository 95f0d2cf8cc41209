import ProjectSurvey.Proofs.Ignore.Globs

/-!
# Rules that are matched against whole paths

An ignore rule that starts with a slash or holds one is matched against the path from the root. **It
covers the paths whose segments fall into groups, one for each segment of its pattern, and what lies
below the path that it spells** (`IgnoreRule.coversInGroups`). Segment and name go together one by
one only for a pattern without wildcards and for a path that is no longer than the pattern: on a
longer path a wildcard takes slashes too, so that a rule about the names at the root covers what
lies deep below it (`IgnoreRule.covers_acrossSlash`).
-/

namespace ProjectSurvey.IgnoreRule

open ProjectSurvey.Path Text.Glob

/-- Whether a rule has a say about files, or about directories. -/
def Applies (r : IgnoreRule) (isDirectory : Bool) : Prop :=
  r.pattern ≠ "" ∧ (r.directoryOnly = true → isDirectory = true)

/-- Whether a path begins with as many names as a rule has segments, each of them accepted by the
segment in its place. -/
def MatchesSegments (r : IgnoreRule) (path : String) : Prop :=
  ∃ names rest, segments path = names ++ rest ∧
    List.Forall₂ (fun pattern name => isMatch pattern name = true) (segments r.pattern) names

variable {r : IgnoreRule}

/-- A path lies below another one exactly if it goes on behind the segments of that. -/
theorem isPrefixOf_slash_iff (front path : String) :
    (front ++ "/").toList.isPrefixOf path.toList = true ↔
      ∃ n rest, segments path = segments front ++ n :: rest := by
  rw [List.isPrefixOf_iff_prefix]
  constructor
  · rintro ⟨back, hback⟩
    have hpath : path = front ++ "/" ++ String.ofList back := by
      rw [← String.toList_inj, ← hback]
      simp
    obtain ⟨n, rest, hrest⟩ := List.exists_cons_of_ne_nil (segments_ne_nil (String.ofList back))
    exact ⟨n, rest, by rw [hpath, segments_append_slash, hrest]⟩
  · rintro ⟨n, rest, hsegments⟩
    refine ⟨(ofSegments (n :: rest)).toList, ?_⟩
    rw [← String.toList_append, String.toList_inj, ← ofSegments_segments path, hsegments,
      ofSegments_append (segments_ne_nil front) (List.cons_ne_nil n rest), ofSegments_segments]

/-- A rule that is matched against whole paths covers what its pattern accepts and what lies below
the path that it spells. -/
theorem covers_whole_iff (hwhole : r.anchored = true ∨ r.hasSlash = true) (path : String)
    (isDirectory : Bool) : r.covers path isDirectory = true ↔ r.Applies isDirectory ∧
      (isMatch r.pattern path = true ∨
        (r.pattern ++ "/").toList.isPrefixOf path.toList = true) := by
  have hkind : (r.anchored || r.hasSlash) = true := Bool.or_eq_true_iff.mpr hwhole
  unfold covers Applies
  by_cases hpattern : r.pattern = ""
  · simp [hpattern]
  · cases hdirectories : r.directoryOnly <;> cases isDirectory <;> simp [hpattern, hkind]

/-- What a rule that is matched against whole paths covers. -/
structure CoversInGroups (r : IgnoreRule) : Prop where
  /-- It covers a path whose segments fall into groups, one for each segment of its pattern and
  accepted by it, and one that goes on behind the very segments of its pattern. -/
  covers_iff : ∀ path isDirectory, r.covers path isDirectory = true ↔ r.Applies isDirectory ∧
    (FitsInGroups (segments r.pattern) (segments path) ∨
      ∃ n rest, segments path = segments r.pattern ++ n :: rest)
  /-- A path that it covers has at least as many segments as its pattern. -/
  length_le : ∀ path isDirectory, r.covers path isDirectory = true →
    (segments r.pattern).length ≤ (segments path).length
  /-- Where the path is no longer than the pattern, name and segment go together one by one. -/
  of_length_eq : ∀ path isDirectory, (segments path).length = (segments r.pattern).length →
    (r.covers path isDirectory = true ↔ r.Applies isDirectory ∧ r.MatchesSegments path)
  /-- So they do where the pattern has no wildcards. -/
  of_plain : (∀ c ∈ r.pattern.toList, c ∉ wildcards) → ∀ path isDirectory,
    (r.covers path isDirectory = true ↔ r.Applies isDirectory ∧ r.MatchesSegments path)

/-- Over as many names as it has parts, a rule matches when the parts fit in groups. -/
theorem matchesSegments_iff_of_length_eq {path : String}
    (h : (segments path).length = (segments r.pattern).length) :
    r.MatchesSegments path ↔ FitsInGroups (segments r.pattern) (segments path) := by
  rw [fitsInGroups_iff_of_length_eq h]
  constructor
  · rintro ⟨names, rest, hpath, hall⟩
    have hlength := hall.length_eq
    have hrest : rest = [] := by
      rw [hpath, List.length_append] at h
      exact List.length_eq_zero_iff.mp (by omega)
    rwa [hpath, hrest, List.append_nil]
  · intro hall
    exact ⟨segments path, [], (List.append_nil _).symm, hall⟩

/-- A pattern without wildcards has none in its parts. -/
theorem noWildcards_of_mem_segments (h : ∀ c ∈ r.pattern.toList, c ∉ wildcards) :
    ∀ p ∈ segments r.pattern, ∀ c ∈ p.toList, c ∉ wildcards := by
  intro p hp c hc
  obtain ⟨piece, hpiece, rfl⟩ := List.mem_map.mp hp
  rw [String.toList_ofList] at hc
  exact h c ((Text.of_mem_pieces hpiece).2 hc)

/-- A rule without wildcards matches what starts with its parts. -/
theorem matchesSegments_iff_of_plain (h : ∀ c ∈ r.pattern.toList, c ∉ wildcards) (path : String) :
    r.MatchesSegments path ↔ segments r.pattern <+: segments path := by
  have hplain := noWildcards_of_mem_segments h
  have heq : ∀ names, List.Forall₂ (fun pattern name => isMatch pattern name = true)
      (segments r.pattern) names ↔ names = segments r.pattern := by
    intro names
    constructor
    · intro hall
      generalize segments r.pattern = patterns at hplain hall
      induction hall with
      | nil => rfl
      | cons hmatch _ ih =>
        obtain ⟨hpattern, hpatterns⟩ := List.forall_mem_cons.mp hplain
        rw [(isMatch_iff_eq hpattern _).mp hmatch, ih hpatterns]
    · rintro rfl
      rw [List.forall₂_same]
      exact fun p hp => (isMatch_iff_eq (hplain p hp) p).mpr rfl
  constructor
  · rintro ⟨names, rest, hpath, hall⟩
    exact ⟨rest, by rw [hpath, (heq names).mp hall]⟩
  · rintro ⟨rest, hpath⟩
    exact ⟨segments r.pattern, rest, hpath.symm, (heq _).mpr rfl⟩

/-- **A rule that is matched against whole paths covers them in groups of segments**, if every
bracketed set of its pattern lies in one segment. -/
theorem coversInGroups (r : IgnoreRule) (hwhole : r.anchored = true ∨ r.hasSlash = true)
    (hsets : SetsInSegments r.pattern.toList) : r.CoversInGroups := by
  have hcovers : ∀ path isDirectory, r.covers path isDirectory = true ↔ r.Applies isDirectory ∧
      (FitsInGroups (segments r.pattern) (segments path) ∨
        ∃ n rest, segments path = segments r.pattern ++ n :: rest) := by
    intro path isDirectory
    rw [covers_whole_iff hwhole, isMatch_iff_fitsInGroups hsets, isPrefixOf_slash_iff]
  refine ⟨hcovers, ?_, ?_, ?_⟩
  · intro path isDirectory h
    rcases ((hcovers path isDirectory).mp h).2 with hgroups | ⟨n, rest, hbelow⟩
    · exact hgroups.length_le
    · rw [hbelow, List.length_append]
      omega
  · intro path isDirectory h
    rw [hcovers, matchesSegments_iff_of_length_eq h, or_iff_left]
    rintro ⟨n, rest, hbelow⟩
    rw [hbelow, List.length_append, List.length_cons] at h
    omega
  · intro hplain path isDirectory
    rw [hcovers, matchesSegments_iff_of_plain hplain,
      fitsInGroups_iff_eq (noWildcards_of_mem_segments hplain)
        (fun p hp => noSlash_of_mem_segments hp) (fun n hn => noSlash_of_mem_segments hn)]
    refine and_congr_right fun _ => ?_
    constructor
    · rintro (heq | ⟨n, rest, hbelow⟩)
      · exact heq ▸ List.prefix_refl _
      · exact ⟨n :: rest, hbelow.symm⟩
    · rintro ⟨rest, hpath⟩
      rcases rest with _ | ⟨n, rest⟩
      · exact .inl (by rw [← hpath, List.append_nil])
      · exact .inr ⟨n, rest, hpath.symm⟩

/-- The rule of a pattern about the names at the root. -/
def rootScripts : IgnoreRule := ⟨"*.py", false, true, false, false⟩

/-- The rule covers paths in groups: at the root the scripts, and every path that ends like one. -/
theorem coversInGroups_rootScripts :
    (rootScripts.anchored = true ∨ rootScripts.hasSlash = true) ∧
      SetsInSegments rootScripts.pattern.toList ∧ rootScripts.CoversInGroups := by
  have hwhole : rootScripts.anchored = true ∨ rootScripts.hasSlash = true := .inl rfl
  have hsets : SetsInSegments rootScripts.pattern.toList := setsInSegments_of_notMem (by decide)
  exact ⟨hwhole, hsets, coversInGroups rootScripts hwhole hsets⟩

/-- **A rule about the names at the root covers a file in a directory**, although the first name of
its path is none that the pattern accepts. -/
theorem covers_acrossSlash :
    IgnoreRule.ofPattern? "/*.py".toList false = some rootScripts ∧ rootScripts.anchored = true ∧
      Text.occursIn "**" rootScripts.pattern.toList = false ∧
      rootScripts.covers "src/a.py" false = true ∧ ¬ rootScripts.MatchesSegments "src/a.py" := by
  refine ⟨by decide, rfl, by decide, by decide, ?_⟩
  rintro ⟨names, rest, hpath, hall⟩
  have hpattern : segments rootScripts.pattern = ["*.py"] := by decide
  have hsegments : segments "src/a.py" = ["src", "a.py"] := by decide
  rw [hpattern] at hall
  rw [hsegments] at hpath
  cases hall with
  | cons hmatch hnone =>
    cases hnone
    obtain ⟨rfl, -⟩ := List.cons.inj hpath
    exact absurd hmatch (by decide)

end ProjectSurvey.IgnoreRule
