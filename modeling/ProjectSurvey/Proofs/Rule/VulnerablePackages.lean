import Mathlib.Tactic.Choose
import ProjectSurvey.Proofs.Graph.Packages
import ProjectSurvey.Proofs.Rule.Versions
import ProjectSurvey.Proofs.Sorting
import ProjectSurvey.Rule.ProjectChecks

/-!
# Packages below their first safe release

The check of vulnerable packages in full: **what it sees are exactly the packages whose first number
is below the floor, one sighting for each manifest and name, in their order**
(`vulnerableDependency_exact`), which leaves no choice of what is seen (`ReportsOutdated.eq`). A
package of both scopes counts with its version for production (`Manifest.mem_allDependencies_iff`).
Versions are compared as sequences: a floor of three parts at most is padded to three and a version
to three at least, so the version is never the shorter one (`Version.isBelow_iff`). The check needs
floors that are versions; the usual ones are (`isFloor_of_mem_fixedReleases`).
-/

namespace ProjectSurvey

namespace Manifest

/-- The version of a package that a manifest asks for: of a package of both scopes, the one for
production. -/
def version? (m : Manifest) (name : String) : Option String :=
  (Assoc.get? name m.production).or (Assoc.get? name m.development)

/-- The dependencies of a manifest are listed once each. -/
theorem nodup_keys_allDependencies (m : Manifest) : (Assoc.keys m.allDependencies).Nodup :=
  Assoc.nodup_keys_update (Assoc.nodup_keys_update (t := []) List.nodup_nil _) _

/-- All packages of a manifest, each with the version that it asks for. -/
theorem mem_allDependencies_iff {m : Manifest} (hproduction : (Assoc.keys m.production).Nodup)
    (hdevelopment : (Assoc.keys m.development).Nodup) (name declared : String) :
    (name, declared) ∈ m.allDependencies ↔ m.version? name = some declared := by
  rw [← Assoc.get?_eq_some_iff m.nodup_keys_allDependencies, allDependencies,
    Assoc.get?_update hproduction, Assoc.ofPairs, Assoc.get?_update hdevelopment, Assoc.get?_nil,
    Option.or_none, version?]

end Manifest

namespace Version

/-- Whether a version specification names a number, and its first one is below that of a floor. -/
def IsBelow (declared floor : String) : Prop :=
  ∃ parts safe, IsFirstNumber parts declared.toList ∧ IsFirstNumber safe floor.toList ∧
    sequence (ofParts parts) < sequence (ofParts safe)

/-- Whether a text can be a floor: it has a number, of three parts at most. -/
def IsFloor (floor : String) : Prop :=
  ShortRuns floor.toList ∧ ∃ parts, IsFirstNumber parts floor.toList ∧ parts.length ≤ 3

/-- A text that is nothing but a number has it for its first one. -/
theorem isFirstNumber_join {parts : List (List Char)} (hne : parts ≠ []) (h : AreParts parts) :
    IsFirstNumber parts (Text.join ['.'] parts) :=
  ⟨hne, h, [], [], (List.append_nil _).symm, nofun, nofun, nofun⟩

/-- A text no longer than the limit has no run of digits beyond it. -/
theorem shortRuns_of_length_le {text : List Char} (h : text.length ≤ Text.digitLimit) :
    ShortRuns text := fun _ hrun _ => hrun.length_le.trans h

/-- All first numbers of a text are read as the same version. -/
theorem pad_eq_of_isFirstNumber {spec : String} (hshort : ShortRuns spec.toList)
    {parts parts' : List (List Char)} (h : IsFirstNumber parts spec.toList)
    (h' : IsFirstNumber parts' spec.toList) : pad (ofParts parts) = pad (ofParts parts') := by
  have hparse := parse_of_isFirstNumber h hshort
  rw [parse_of_isFirstNumber h' hshort] at hparse
  exact (Option.some.inj (Except.ok.inj hparse)).symm

/-- A floor is read as a version of three parts. -/
theorem length_pad_of_isFloor {floor : String} (hfloor : IsFloor floor) {parts : List (List Char)}
    (h : IsFirstNumber parts floor.toList) : (pad (ofParts parts)).length = 3 := by
  obtain ⟨hshort, parts', h', hlength⟩ := hfloor
  rw [pad_eq_of_isFirstNumber hshort h h', length_pad, ofParts, List.length_map]
  omega

/-- Versions that are padded are compared as their sequences if the floor has three parts. -/
theorem pad_lt_iff {v w : List Nat} (h : (pad w).length = 3) :
    pad v < pad w ↔ sequence v < sequence w := by
  have hlength : (pad w).length ≤ (pad v).length := by
    rw [h, length_pad]
    exact Nat.le_max_left 3 _
  rw [lt_iff_sequence_lt hlength, sequence_pad, sequence_pad]

/-- **A version is below a floor exactly if it is read as a smaller one.** -/
theorem isBelow_iff {declared floor : String} (hshort : ShortRuns declared.toList)
    (hfloor : IsFloor floor) {parts safe : List (List Char)}
    (hparts : IsFirstNumber parts declared.toList) (hsafe : IsFirstNumber safe floor.toList) :
    IsBelow declared floor ↔ pad (ofParts parts) < pad (ofParts safe) := by
  constructor
  · rintro ⟨parts', safe', hparts', hsafe', hlt⟩
    rw [pad_eq_of_isFirstNumber hshort hparts hparts',
      pad_eq_of_isFirstNumber hfloor.1 hsafe hsafe']
    exact (pad_lt_iff (length_pad_of_isFloor hfloor hsafe')).mpr hlt
  · intro hlt
    exact ⟨parts, safe, hparts, hsafe, (pad_lt_iff (length_pad_of_isFloor hfloor hsafe)).mp hlt⟩

end Version

namespace ProjectContext

/-- The version of a package that one of the manifests asks for. -/
def version? (c : ProjectContext) (manifest name : String) : Option String :=
  (Assoc.get? manifest c.manifests).bind fun m => m.version? name

/-- The first safe release of a package, the case of whose letters does not matter. -/
def floor? (c : ProjectContext) (name : String) : Option String :=
  Assoc.get? (Text.lowered name) c.tables.vulnerableBelow

/-- Whether all numbers that may matter can be read. -/
structure Legible (c : ProjectContext) : Prop where
  /-- No manifest is there twice. -/
  manifests : (Assoc.keys c.manifests).Nodup
  /-- No manifest declares a package twice in one scope. -/
  packages : ∀ m ∈ c.manifests,
    (Assoc.keys m.2.production).Nodup ∧ (Assoc.keys m.2.development).Nodup
  /-- No version that is asked for has a run of digits that is too long. -/
  declared : ∀ name version, c.manifests.AskFor name version → Version.ShortRuns version.toList
  /-- The floors have numbers of three parts at most. -/
  floors : ∀ p ∈ c.tables.vulnerableBelow, Version.IsFloor p.2

/-- A version that a manifest gives is asked for. -/
theorem askFor_of_version? {c : ProjectContext} {manifest name version : String}
    (h : c.version? manifest name = some version) : c.manifests.AskFor name version := by
  obtain ⟨m, hm, hversion⟩ := Option.bind_eq_some_iff.mp h
  refine ⟨(manifest, m), Assoc.mem_of_get? hm, ?_⟩
  rcases Option.or_eq_some_iff.mp hversion with hproduction | ⟨-, hdevelopment⟩
  · exact .inl (Assoc.mem_of_get? hproduction)
  · exact .inr (Assoc.mem_of_get? hdevelopment)

end ProjectContext

namespace ProjectChecks

/-- A package that a manifest declares below its first safe release. -/
structure Outdated where
  /-- The name of the manifest. -/
  manifest : String
  /-- The name of the package. -/
  name : String
  /-- The version that is asked for. -/
  declared : String
  /-- The first safe release. -/
  floor : String

/-- What is seen of a package. -/
def Outdated.sighting (o : Outdated) : Sighting :=
  ⟨some (o.name ++ " " ++ o.declared ++ " (fixed in " ++ o.floor ++ ")"), some o.manifest, none⟩

/-- Whether the package is declared and below its floor. -/
def Outdated.IsIn (c : ProjectContext) (o : Outdated) : Prop :=
  c.version? o.manifest o.name = some o.declared ∧ c.floor? o.name = some o.floor ∧
    Version.IsBelow o.declared o.floor

/-- Where a package is declared: manifest, name and version. -/
def Outdated.place (o : Outdated) : String × String × String := (o.manifest, o.name, o.declared)

/-- Whether a package comes before another one: in the order of the manifests and then of the
packages. -/
def Outdated.Before (a b : Outdated) : Prop :=
  a.manifest < b.manifest ∨ a.manifest = b.manifest ∧ a.name < b.name

/-- What is reported of the packages of a project. -/
structure ReportsOutdated (c : ProjectContext) (found : List Outdated) : Prop where
  /-- What is reported are the packages below their floors. -/
  exact : ∀ o, o ∈ found ↔ o.IsIn c
  /-- They are in order. -/
  ordered : found.Pairwise Outdated.Before
  /-- There is one for each manifest and package. -/
  once : (found.map fun o => (o.manifest, o.name)).Nodup
  /-- Nothing else that is declared plays a part: with the same version and the same floor, a
  package is below it in any project. -/
  alone : ∀ (c' : ProjectContext) (o : Outdated),
    c'.version? o.manifest o.name = c.version? o.manifest o.name →
    c'.floor? o.name = c.floor? o.name → (o.IsIn c' ↔ o ∈ found)

variable {c : ProjectContext}

/-- The order of the findings goes one way only. -/
theorem Outdated.Before.asymm {a b : Outdated} (h : a.Before b) : ¬ b.Before a := by
  rintro (hlt | ⟨heq, hlt⟩)
  · rcases h with h | ⟨h, -⟩
    · exact String.lt_asymm h hlt
    · exact String.ne_of_lt hlt h.symm
  · rcases h with h | ⟨-, h⟩
    · exact String.ne_of_lt h heq.symm
    · exact String.lt_asymm h hlt

/-- Packages in order are of different manifests or names. -/
theorem nodup_of_pairwise_before {found : List Outdated} (h : found.Pairwise Outdated.Before) :
    (found.map fun o => (o.manifest, o.name)).Nodup := by
  rw [List.Nodup, List.pairwise_map]
  refine h.imp fun hlt heq => ?_
  obtain ⟨hmanifest, hname⟩ := Prod.mk.inj heq
  rcases hlt with hlt | ⟨-, hlt⟩
  · exact String.ne_of_lt hlt hmanifest
  · exact String.ne_of_lt hlt hname

/-- **There is one such report only.** -/
theorem ReportsOutdated.eq {found found' : List Outdated} (h : ReportsOutdated c found)
    (h' : ReportsOutdated c found') : found = found' := by
  have hperm : found.Perm found' := by
    refine (List.perm_ext_iff_of_nodup h.once.of_map h'.once.of_map).mpr fun o => ?_
    rw [h.exact, h'.exact]
  exact hperm.eq_of_pairwise (fun _ _ _ _ hab hba => absurd hba hab.asymm) h.ordered h'.ordered

/-! ### One package -/

/-- Nothing is seen of a package without a floor. -/
theorem vulnerability_of_no_floor {name : String} (h : c.floor? name = none)
    (manifest declared : String) : vulnerability c manifest name declared = some none := by
  unfold ProjectContext.floor? at h
  rw [vulnerability, h]

variable {manifest name declared floor : String}

/-- A package below its floor is seen, with the floor. -/
theorem vulnerability_of_isBelow (hdeclared : Version.ShortRuns declared.toList)
    (hfloor? : c.floor? name = some floor) (hfloor : Version.IsFloor floor)
    (hbelow : Version.IsBelow declared floor) : vulnerability c manifest name declared =
      some (some (Outdated.sighting ⟨manifest, name, declared, floor⟩)) := by
  obtain ⟨parts, safe, hparts, hsafe, -⟩ := id hbelow
  unfold ProjectContext.floor? at hfloor?
  rw [vulnerability, hfloor?]
  dsimp only
  rw [Version.parse_of_isFirstNumber hparts hdeclared,
    Version.parse_of_isFirstNumber hsafe hfloor.1]
  exact if_pos ((Version.isBelow_iff hdeclared hfloor hparts hsafe).mp hbelow)

/-- Nothing is seen of a package without a number or with one that is not below the floor. -/
theorem vulnerability_of_not_isBelow (hdeclared : Version.ShortRuns declared.toList)
    (hfloor? : c.floor? name = some floor) (hfloor : Version.IsFloor floor)
    (hbelow : ¬ Version.IsBelow declared floor) :
    vulnerability c manifest name declared = some none := by
  obtain ⟨safe, hsafe, -⟩ := hfloor.2
  unfold ProjectContext.floor? at hfloor?
  rw [vulnerability, hfloor?]
  dsimp only
  by_cases hdigit : ∃ d ∈ declared.toList, Text.isDecimal d = true
  · obtain ⟨parts, hparts⟩ := (Version.exists_isFirstNumber_iff _).mpr hdigit
    rw [Version.parse_of_isFirstNumber hparts hdeclared,
      Version.parse_of_isFirstNumber hsafe hfloor.1]
    exact if_neg (mt (Version.isBelow_iff hdeclared hfloor hparts hsafe).mpr hbelow)
  · rw [Version.parse_eq_none fun d hd => by simpa using fun h => hdigit ⟨d, hd, h⟩]

/-- What is seen of one package: the package if it is below its floor. -/
theorem exists_vulnerability (hdeclared : Version.ShortRuns declared.toList)
    (hfloors : ∀ p ∈ c.tables.vulnerableBelow, Version.IsFloor p.2) (manifest name : String) :
    ∃ r : Option Outdated, vulnerability c manifest name declared = some (r.map Outdated.sighting) ∧
      ∀ o, r = some o ↔ o.place = (manifest, name, declared) ∧
        c.floor? o.name = some o.floor ∧ Version.IsBelow o.declared o.floor := by
  cases hfloor? : c.floor? name with
  | none =>
    refine ⟨none, vulnerability_of_no_floor hfloor? manifest declared, fun o => ⟨nofun, ?_⟩⟩
    rintro ⟨⟨⟩, hsome, -⟩
    cases hfloor?.symm.trans hsome
  | some floor =>
    have hfloor : Version.IsFloor floor := hfloors _ (Assoc.mem_of_get? hfloor?)
    by_cases hbelow : Version.IsBelow declared floor
    · refine ⟨some ⟨manifest, name, declared, floor⟩,
        vulnerability_of_isBelow hdeclared hfloor? hfloor hbelow, fun o => ?_⟩
      constructor
      · rintro ⟨⟩
        exact ⟨rfl, hfloor?, hbelow⟩
      · obtain ⟨manifest', name', declared', floor'⟩ := o
        rintro ⟨⟨⟩, hsome, -⟩
        cases hfloor?.symm.trans hsome
        rfl
    · refine ⟨none, vulnerability_of_not_isBelow hdeclared hfloor? hfloor hbelow,
        fun o => ⟨nofun, ?_⟩⟩
      rintro ⟨⟨⟩, hsome, hbelow'⟩
      cases hfloor?.symm.trans hsome
      exact absurd hbelow' hbelow

/-! ### All packages -/

/-- A step that succeeds on each item maps over the items. -/
theorem mapM_eq_some_map {α β : Type} {f : α → Option β} {g : α → β} {items : List α}
    (h : ∀ a ∈ items, f a = some (g a)) : items.mapM f = some (items.map g) := by
  induction items with
  | nil => rfl
  | cons a rest ih =>
    obtain ⟨ha, hrest⟩ := List.forall_mem_cons.mp h
    rw [List.mapM_cons, ha, ih hrest]
    rfl

/-- The packages of all manifests in the order in which they are looked at: manifest, name and
version. -/
def declaredIn (c : ProjectContext) : List (String × String × String) :=
  (c.manifests.mergeSort fun a b => decide (a.1 ≤ b.1)).flatMap fun (manifest, m) =>
    (m.allDependencies.mergeSort fun a b => decide (a.1 ≤ b.1)).map fun (n, v) => (manifest, n, v)

/-- The check asks about each declared package and keeps what was seen. -/
theorem vulnerableDependency_eq (c : ProjectContext) : vulnerableDependency c =
    ((declaredIn c).mapM fun p => vulnerability c p.1 p.2.1 p.2.2).map
      fun sightings => sightings.filterMap fun s => s := rfl

/-- A package is among the declared ones when its manifest gives its version. -/
theorem mem_declaredIn_iff (h : c.Legible) (manifest name declared : String) :
    (manifest, name, declared) ∈ declaredIn c ↔ c.version? manifest name = some declared := by
  have hpackages : ∀ m, (manifest, m) ∈ c.manifests →
      ((name, declared) ∈ m.allDependencies ↔ m.version? name = some declared) := fun m hm =>
    Manifest.mem_allDependencies_iff (h.packages _ hm).1 (h.packages _ hm).2 name declared
  unfold declaredIn ProjectContext.version?
  simp only [List.mem_flatMap, List.mem_mergeSort, List.mem_map, Prod.mk.injEq, Prod.exists,
    Option.bind_eq_some_iff, Assoc.get?_eq_some_iff h.manifests]
  constructor
  · rintro ⟨_, m, hm, _, _, hp, rfl, rfl, rfl⟩
    exact ⟨m, hm, (hpackages m hm).mp hp⟩
  · rintro ⟨m, hm, hversion⟩
    exact ⟨manifest, m, hm, name, declared, (hpackages m hm).mpr hversion, rfl, rfl, rfl⟩

/-- The declared packages are sorted by the manifest, then by the name. -/
theorem pairwise_declaredIn (h : (Assoc.keys c.manifests).Nodup) :
    (declaredIn c).Pairwise fun a b => a.1 < b.1 ∨ a.1 = b.1 ∧ a.2.1 < b.2.1 := by
  unfold declaredIn
  rw [List.pairwise_flatMap]
  constructor
  · intro p _
    rw [List.pairwise_map]
    exact (Sorting.pairwise_mergeSort_lt Prod.fst p.2.nodup_keys_allDependencies).imp
      fun hlt => .inr ⟨rfl, hlt⟩
  · refine (Sorting.pairwise_mergeSort_lt Prod.fst h).imp fun hlt => ?_
    rintro x hx y hy
    obtain ⟨_, -, rfl⟩ := List.mem_map.mp hx
    obtain ⟨_, -, rfl⟩ := List.mem_map.mp hy
    exact .inl hlt

/-- What is seen of the packages that are declared, one by one. -/
theorem exists_rows (h : c.Legible) : ∃ row : String × String × String → Option Outdated,
    (∀ p ∈ declaredIn c, vulnerability c p.1 p.2.1 p.2.2 = some ((row p).map Outdated.sighting)) ∧
      ∀ p ∈ declaredIn c, ∀ o, row p = some o ↔ o.place = p ∧ o.IsIn c := by
  have hone : ∀ p ∈ declaredIn c, ∃ r : Option Outdated,
      vulnerability c p.1 p.2.1 p.2.2 = some (r.map Outdated.sighting) ∧
        ∀ o, r = some o ↔ o.place = p ∧ o.IsIn c := by
    rintro ⟨manifest, name, declared⟩ hp
    have hversion := (mem_declaredIn_iff h manifest name declared).mp hp
    obtain ⟨r, hr, hsome⟩ := exists_vulnerability
      (h.declared _ _ (ProjectContext.askFor_of_version? hversion)) h.floors manifest name
    refine ⟨r, hr, fun o => (hsome o).trans (and_congr_right fun hplace => ?_)⟩
    cases hplace
    exact (and_iff_right hversion).symm
  choose! row hrow hsome using hone
  exact ⟨row, hrow, hsome⟩

/-- **What the check sees are exactly the packages below their floors**, one sighting for each
manifest and name, in their order. -/
theorem vulnerableDependency_exact (h : c.Legible) : ∃ found : List Outdated,
    vulnerableDependency c = some (found.map Outdated.sighting) ∧ ReportsOutdated c found := by
  obtain ⟨row, hrow, hsome⟩ := exists_rows h
  have hexact : ∀ o, o ∈ (declaredIn c).filterMap row ↔ o.IsIn c := by
    intro o
    rw [List.mem_filterMap]
    constructor
    · rintro ⟨p, hp, ho⟩
      exact ((hsome p hp o).mp ho).2
    · intro hin
      have hp : o.place ∈ declaredIn c := (mem_declaredIn_iff h _ _ _).mpr hin.1
      exact ⟨o.place, hp, (hsome _ hp o).mpr ⟨rfl, hin⟩⟩
  have hordered : ((declaredIn c).filterMap row).Pairwise Outdated.Before := by
    rw [List.pairwise_filterMap]
    refine (pairwise_declaredIn h.manifests).imp_of_mem fun {p q} hp hq hlt a ha b hb => ?_
    obtain ⟨rfl, -⟩ := (hsome p hp a).mp ha
    obtain ⟨rfl, -⟩ := (hsome q hq b).mp hb
    exact hlt
  refine ⟨(declaredIn c).filterMap row, ?_, ?_⟩
  · rw [vulnerableDependency_eq, mapM_eq_some_map hrow, Option.map_some, List.filterMap_map,
      List.map_filterMap]
    rfl
  constructor
  case exact => exact hexact
  case ordered => exact hordered
  case once => exact nodup_of_pairwise_before hordered
  case alone =>
    intro c' o hversion hfloor
    rw [hexact, Outdated.IsIn, Outdated.IsIn, hversion, hfloor]

/-! ### The usual floors -/

/-- **The usual floors are versions.** -/
theorem isFloor_of_mem_fixedReleases : ∀ p ∈ Tables.fixedReleases, Version.IsFloor p.2 := by
  have hparts : ∀ p ∈ Tables.fixedReleases, p.2.toList.length ≤ 7 ∧
      (Text.pieces '.' p.2.toList).length ≤ 3 ∧
        ∀ q ∈ Text.pieces '.' p.2.toList, q ≠ [] ∧ q.all Text.isDecimal = true := by
    decide
  intro p hp
  obtain ⟨hshort, hthree, hdigits⟩ := hparts p hp
  have hlimit : 7 ≤ Text.digitLimit := by decide
  have hareParts : Version.AreParts (Text.pieces '.' p.2.toList) :=
    fun q hq => ⟨(hdigits q hq).1, List.all_eq_true.mp (hdigits q hq).2⟩
  refine ⟨Version.shortRuns_of_length_le (hshort.trans hlimit), _, ?_, hthree⟩
  have hnumber := Version.isFirstNumber_join (Text.pieces_ne_nil '.' p.2.toList) hareParts
  rwa [Text.join_pieces] at hnumber

/-- A project with three packages, of which one is as old as its floor. -/
def outdatedContext : ProjectContext where
  rootFiles := ["package.json"]
  records := []
  tree := Directory.make .default "p" "" [] [] true
  profile := .generic
  manifests := [("package.json", ⟨"package.json", [("Lodash", "^4.17"), ("axios", "0.21.1")],
    [("minimist", "1.2.0"), ("Lodash", "9")], [], []⟩)]
  metrics := Metrics.measure .default [] []
  ignoreText := none
  tables := .default
  packages := []

/-- The context of the example is legible. -/
theorem legible_outdatedContext : outdatedContext.Legible := by
  have hlimit : 6 ≤ Text.digitLimit := by decide
  have hpairs : ∀ p ∈ [("Lodash", "^4.17"), ("axios", "0.21.1"), ("minimist", "1.2.0"),
      ("Lodash", "9")], p.2.toList.length ≤ 6 := by decide
  constructor
  case manifests => exact List.nodup_singleton _
  case packages =>
    rintro m hm
    cases List.mem_singleton.mp hm
    exact ⟨by decide, by decide⟩
  case declared =>
    rintro name version ⟨m, hm, hversion⟩
    cases List.mem_singleton.mp hm
    refine Version.shortRuns_of_length_le ((hpairs (name, version) ?_).trans hlimit)
    simpa [or_assoc] using hversion
  case floors => exact isFloor_of_mem_fixedReleases

/-- The packages of the project that are below their floors. -/
theorem vulnerableDependency_exact_outdated : outdatedContext.Legible ∧ ∃ found : List Outdated,
    vulnerableDependency outdatedContext = some (found.map Outdated.sighting) ∧
      ReportsOutdated outdatedContext found :=
  ⟨legible_outdatedContext, vulnerableDependency_exact legible_outdatedContext⟩

end ProjectChecks

end ProjectSurvey
