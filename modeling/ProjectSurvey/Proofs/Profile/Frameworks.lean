import ProjectSurvey.ProjectProfile
import ProjectSurvey.Proofs.Graph.Packages
import ProjectSurvey.Proofs.Text.Parts

/-!
# The frameworks of a project

The labels of the tables that are reported for a project, by the names of the declared packages.
**A label is reported exactly if a declared package has one of its names, or one of its names
occurs anywhere in a declared package whose name holds a colon** (`detect_reports`), each label
once and in the order of the tables. The second half is made for coordinates of group and name, but
it is applied to the names of every runtime: a coordinate that merely contains the name of a package
is enough for a label of another runtime (`detect_reports_mere_part`). Where no declared name holds
a colon, labels stand for declared packages only.
-/

namespace ProjectSurvey

namespace Text

variable {α : Type} [BEq α] [LawfulBEq α] [Hashable α]

/-- Leaving out repetitions keeps the order. -/
theorem distinct_sublist (xs : List α) : (distinct xs).Sublist xs := by
  rw [← xs.reverse_reverse]
  induction xs.reverse with
  | nil => simp [distinct]
  | cons x rest ih =>
    rw [List.reverse_cons, distinct_concat]
    split
    · exact ih.trans (List.sublist_append_left _ _)
    · exact ih.append (List.Sublist.refl _)

end Text

/-- Whether a declared package has a name, but for the case of its letters. -/
def Manifests.DeclareLowered (manifests : Manifests) (name : String) : Prop :=
  ∃ package, manifests.Declare package ∧ Text.lowered package = name

/-- Whether a name occurs in a declared package that is a coordinate: one whose name holds a colon.
The case of the letters of the package does not matter. -/
def Manifests.DeclareAround (manifests : Manifests) (name : String) : Prop :=
  ∃ package, manifests.Declare package ∧ ':' ∈ (Text.lowered package).toList ∧
    name.toList <:+: (Text.lowered package).toList

namespace ProjectProfile

variable {manifests : Manifests}

/-! ### Declared names -/

/-- A package of the list is one that some manifest declares, whatever its case. -/
theorem mem_packagesOf (manifests : Manifests) (name : String) :
    name ∈ packagesOf manifests ↔ manifests.DeclareLowered name := by
  unfold packagesOf Manifests.DeclareLowered Manifests.Declare
  rw [Text.mem_distinct]
  simp only [List.mem_flatMap, List.mem_map, Manifest.mem_keys_allDependencies]
  constructor
  · rintro ⟨m, hm, package, hpackage, rfl⟩
    exact ⟨package, ⟨m, hm, hpackage⟩, rfl⟩
  · rintro ⟨package, ⟨m, hm, hpackage⟩, rfl⟩
    exact ⟨m, hm, package, hpackage, rfl⟩

/-- A name counts as declared if a package has it, or a coordinate holds it. -/
theorem declares_packagesOf (manifests : Manifests) (name : String) :
    declares (packagesOf manifests) name = true ↔
      manifests.DeclareLowered name ∨ manifests.DeclareAround name := by
  unfold declares
  rw [Bool.or_eq_true, List.contains_iff_mem, mem_packagesOf, List.any_eq_true]
  refine or_congr_right ?_
  simp only [Bool.and_eq_true, List.contains_iff_mem, Text.occursIn_iff, mem_packagesOf]
  constructor
  · rintro ⟨_, ⟨package, hpackage, rfl⟩, haround⟩
    exact ⟨package, hpackage, haround⟩
  · rintro ⟨package, hpackage, haround⟩
    exact ⟨_, ⟨package, hpackage, rfl⟩, haround⟩

/-! ### Labels -/

/-- The labels of all runtimes in the order of the tables. -/
def labelsOf (t : Tables) : List String := (t.frameworks.flatMap Prod.snd).map Labelled.label

/-- The labels are given in the order of the table. -/
theorem frameworksOf_sublist (t : Tables) (packages : List String) :
    (frameworksOf t packages).Sublist (labelsOf t) :=
  (Text.distinct_sublist _).trans (List.filter_sublist.map _)

/-- Where no label comes twice in the tables, a label is reported by its own names. -/
theorem label_mem_frameworksOf {t : Tables} (hlabels : (labelsOf t).Nodup) {packages : List String}
    {runtime : String × List Labelled} (hruntime : runtime ∈ t.frameworks) {l : Labelled}
    (hl : l ∈ runtime.2) :
    l.label ∈ frameworksOf t packages ↔ ∃ name ∈ l.names, declares packages name = true := by
  have hmem : l ∈ t.frameworks.flatMap Prod.snd := List.mem_flatMap.mpr ⟨runtime, hruntime, hl⟩
  unfold frameworksOf
  rw [Text.mem_distinct, List.mem_map]
  simp only [List.mem_filter, List.any_eq_true]
  constructor
  · rintro ⟨l', ⟨hl', hdeclared⟩, hlabel⟩
    rwa [← List.inj_on_of_nodup_map hlabels hl' hmem hlabel]
  · exact fun hdeclared => ⟨l, ⟨hmem, hdeclared⟩, rfl⟩

/-- What is reported of the frameworks of a project. -/
structure Reports (t : Tables) (manifests : Manifests) (reported : List String) : Prop where
  /-- No label is reported twice. -/
  once : reported.Nodup
  /-- Labels are reported in the order of the tables. -/
  ordered : reported.Sublist (labelsOf t)
  /-- A label is reported exactly if one of its names is that of a declared package, or occurs in a
  declared coordinate. -/
  label : ∀ runtime ∈ t.frameworks, ∀ l ∈ runtime.2,
    (l.label ∈ reported ↔
      ∃ name ∈ l.names, manifests.DeclareLowered name ∨ manifests.DeclareAround name)
  /-- So a label stands for a declared package exactly if no declared coordinate holds one of its
  names, or a declared package has one of them all the same. -/
  faithful : ∀ runtime ∈ t.frameworks, ∀ l ∈ runtime.2,
    ((l.label ∈ reported ↔ ∃ name ∈ l.names, manifests.DeclareLowered name) ↔
      ((∃ name ∈ l.names, manifests.DeclareAround name) →
        ∃ name ∈ l.names, manifests.DeclareLowered name))
  /-- That is so for every label where no declared name is a coordinate. -/
  plain : (∀ package, manifests.Declare package → ':' ∉ (Text.lowered package).toList) →
    ∀ runtime ∈ t.frameworks, ∀ l ∈ runtime.2,
      (l.label ∈ reported ↔ ∃ name ∈ l.names, manifests.DeclareLowered name)

/-- A label is reported exactly when a package of its entry is declared. -/
theorem reports_frameworksOf {t : Tables} (hlabels : (labelsOf t).Nodup) (manifests : Manifests) :
    Reports t manifests (frameworksOf t (packagesOf manifests)) := by
  have hlabel : ∀ runtime ∈ t.frameworks, ∀ l ∈ runtime.2,
      (l.label ∈ frameworksOf t (packagesOf manifests) ↔
        ∃ name ∈ l.names, manifests.DeclareLowered name ∨ manifests.DeclareAround name) := by
    intro runtime hruntime l hl
    simp only [label_mem_frameworksOf hlabels hruntime hl, declares_packagesOf]
  constructor
  case once => exact Text.nodup_distinct _
  case ordered => exact frameworksOf_sublist t _
  case label => exact hlabel
  case faithful =>
    intro runtime hruntime l hl
    rw [hlabel runtime hruntime l hl]
    simp only [and_or_left, exists_or]
    exact or_iff_left_iff_imp
  case plain =>
    intro hplain runtime hruntime l hl
    have hnone : ∀ name, ¬ manifests.DeclareAround name :=
      fun name ⟨package, hpackage, hcolon, _⟩ => hplain package hpackage hcolon
    simp only [hlabel runtime hruntime l hl, hnone, or_false]

/-- Where there is a runtime, frameworks are looked for in all manifests. -/
theorem frameworks_detect {t : Tables} {present : List String} {manifests : Manifests}
    (hruntime : runtimeOf? t present ≠ none) :
    (detect t present manifests).frameworks = frameworksOf t (packagesOf manifests) := by
  obtain ⟨runtime, hruntime⟩ := Option.ne_none_iff_exists'.mp hruntime
  unfold detect
  rw [hruntime]

/-- The default labels are distinct. -/
theorem nodup_labelsOf_default : (labelsOf .default).Nodup := by decide

/-- **A label is reported exactly if a declared package has one of its names or is a coordinate that
holds one.** -/
theorem detect_reports (present : List String) (manifests : Manifests)
    (hruntime : runtimeOf? .default present ≠ none) :
    Reports .default manifests (detect .default present manifests).frameworks := by
  rw [frameworks_detect hruntime]
  exact reports_frameworksOf nodup_labelsOf_default manifests

/-- The manifest of a project that streams. -/
def streamManifests : Manifests :=
  [("pom.xml", ⟨"pom.xml", [("org.reactivestreams:reactive-streams", "1.0.4")], [], [], []⟩)]

/-- The manifests of the example declare one package. -/
theorem declare_streamManifests_iff (package : String) :
    streamManifests.Declare package ↔ package = "org.reactivestreams:reactive-streams" := by
  unfold Manifests.Declare streamManifests
  simp [Assoc.keys]

/-- The frameworks of the project that streams. -/
theorem detect_reports_stream :
    runtimeOf? .default ["pom.xml"] ≠ none ∧
      Reports .default streamManifests (detect .default ["pom.xml"] streamManifests).frameworks :=
  have hruntime : runtimeOf? .default ["pom.xml"] ≠ none := by decide
  ⟨hruntime, detect_reports _ _ hruntime⟩

/-- The project that streams is reported as one of a framework for pages, of which it declares no
package: the name `react` is a part of the coordinate that it declares. -/
theorem detect_reports_mere_part :
    runtimeOf? .default ["pom.xml"] ≠ none ∧
      (∃ runtime ∈ Tables.default.frameworks, runtime.1 = "node" ∧
        ⟨"React", ["react"]⟩ ∈ runtime.2) ∧
      "React" ∈ (detect .default ["pom.xml"] streamManifests).frameworks ∧
      ¬ streamManifests.DeclareLowered "react" := by
  have hruntime : runtimeOf? .default ["pom.xml"] ≠ none := by decide
  obtain ⟨runtime, hnode, hkind, hreact⟩ : ∃ runtime ∈ Tables.default.frameworks,
      runtime.1 = "node" ∧ ⟨"React", ["react"]⟩ ∈ runtime.2 :=
    ⟨_, List.mem_cons_self, rfl, List.mem_cons_of_mem _ List.mem_cons_self⟩
  have haround : streamManifests.DeclareAround "react" :=
    ⟨_, (declare_streamManifests_iff _).mpr rfl, by decide,
      Text.occursIn_iff.mp (by decide +kernel)⟩
  refine ⟨hruntime, ⟨runtime, hnode, hkind, hreact⟩, ?_, ?_⟩
  · rw [frameworks_detect hruntime, label_mem_frameworksOf nodup_labelsOf_default hnode hreact]
    exact ⟨"react", List.mem_singleton_self _, (declares_packagesOf _ _).mpr (.inr haround)⟩
  · rintro ⟨package, hpackage, hlowered⟩
    rw [(declare_streamManifests_iff package).mp hpackage] at hlowered
    exact absurd hlowered (by decide +kernel)

end ProjectProfile

end ProjectSurvey
