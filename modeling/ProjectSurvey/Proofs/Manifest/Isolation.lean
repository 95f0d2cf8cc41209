import ProjectSurvey.Proofs.Disk.Put
import ProjectSurvey.Proofs.Survey.Frame
import ProjectSurvey.Proofs.Survey.Parts

/-!
# A manifest that cannot be read

Manifests are read one by one, each from its own file, and the runtime is told by the names of the
files. **Whatever one manifest holds, it is there and the others are read as before**, and the kind
of the project changes no further than from one script runtime to the other
(`Surveyor.manifests_isolated`). A manifest that is not read declares nothing, so the summary of the
dependencies is that of the other manifests. Any octets may stand in the one file, if the others are
files too (`Surveyor.agreeBut_put`).
-/

namespace ProjectSurvey

open Entry

/-! ### The runtime -/

namespace ProjectProfile

/-- Whether two profiles are of the same runtime: with the same manifests, and with different types
or languages only if both are those of scripts. -/
structure SameRuntime (p p' : ProjectProfile) : Prop where
  /-- The manifests of the runtime are the same. -/
  manifests : p'.manifests = p.manifests
  /-- The type is the same but for what is built on scripts. -/
  kind : p'.kind = p.kind ∨ p.kind ∈ ["node", "next-js"] ∧ p'.kind ∈ ["node", "next-js"]
  /-- The language is the same but for scripts with or without types. -/
  language : p'.language = p.language ∨
    p.language ∈ ["javascript", "typescript"] ∧ p'.language ∈ ["javascript", "typescript"]

/-- **The runtime is told by the files that are there**, whatever the manifests hold. -/
theorem sameRuntime_detect {t : Tables}
    (hscripts : ∀ r ∈ t.runtimes, r.kind = "node" → r.language = "javascript")
    (present : List String) (ms ms' : Manifests) :
    SameRuntime (detect t present ms) (detect t present ms') := by
  unfold detect
  cases hruntime : runtimeOf? t present with
  | none => exact ⟨rfl, .inl rfl, .inl rfl⟩
  | some r =>
    have hmem : r ∈ t.runtimes := List.mem_of_find?_eq_some hruntime
    by_cases hnode : r.kind = "node"
    · have hlanguage := hscripts r hmem hnode
      constructor
      case manifests => rfl
      case kind =>
        right
        dsimp only
        rw [hnode]
        constructor <;> split <;> simp
      case language =>
        right
        dsimp only
        rw [hlanguage]
        constructor <;> split <;> simp
    · constructor
      case manifests => rfl
      case kind => simp [hnode]
      case language => simp [hnode]

end ProjectProfile

/-! ### The summary -/

namespace Dependencies

variable {t : Tables} {ms : Manifests}

/-- What a manifest adds nothing to is the same without it. -/
theorem flatMap_erase {β : Type} {name : String} {f : String × Manifest → List β}
    (h : ∀ m, (name, m) ∈ ms → f (name, m) = []) :
    (Assoc.erase name ms).flatMap f = ms.flatMap f := by
  unfold Assoc.erase
  induction ms with
  | nil => rfl
  | cons p rest ih =>
    obtain ⟨n, m⟩ := p
    have hrest := ih fun m' hm' => h m' (List.mem_cons_of_mem _ hm')
    by_cases hn : n = name
    · subst hn
      rw [List.filter_cons_of_neg (by simp), List.flatMap_cons, h m List.mem_cons_self, hrest,
        List.nil_append]
    · rw [List.filter_cons_of_pos (by simpa using hn), List.flatMap_cons, List.flatMap_cons, hrest]

/-- A manifest that declares nothing adds nothing to the summary. -/
theorem ofManifests_erase {name : String} (h : ∀ m, (name, m) ∈ ms → m = Manifest.blank name) :
    ofManifests t (Assoc.erase name ms) = ofManifests t ms := by
  have hproduction : (Assoc.erase name ms).flatMap (fun p => Assoc.keys p.2.production) =
      ms.flatMap fun p => Assoc.keys p.2.production :=
    flatMap_erase fun m hm => by rw [h m hm]; rfl
  have hdevelopment : (Assoc.erase name ms).flatMap (fun p => Assoc.keys p.2.development) =
      ms.flatMap fun p => Assoc.keys p.2.development :=
    flatMap_erase fun m hm => by rw [h m hm]; rfl
  unfold ofManifests
  rw [hproduction, hdevelopment]

end Dependencies

/-! ### The manifests -/

namespace Manifest

/-- Whether a manifest is not read: there is no text in its file, or its reader gives up. -/
def Unread (disk : Entry) (root name : String) : Prop :=
  ∃ read, reader? name = some read ∧
    ∀ cs, disk.readText (Path.join root name) = .ok cs → ∃ f, read cs = .error f

/-- A manifest is not read if no content of its file is a text that its reader takes. -/
theorem unread_of_file {disk : Entry} {root : Location} {name : String} (hroot : Path.AreNames root)
    (hname : Path.IsName name) {octets : List UInt8} {m : Int}
    (hfile : disk.at? (root ++ [name]) = some (file octets m)) {read : List Char → Result}
    (hread : reader? name = some read)
    (hfault : ∀ cs, Text.Utf8.decode? octets = some cs →
      ∃ f, read (Text.unifyLineEnds cs) = .error f) : Unread disk root.text name := by
  refine ⟨read, hread, fun cs hcs => ?_⟩
  have hplace : Path.AreNames (root ++ [name]) := Path.areNames_append.mpr ⟨hroot, by simpa⟩
  have hstraight : disk.IsStraight (root ++ [name]) := isStraight_of_at? hfile (by simp)
  rw [readText, Surveyor.join_text_name hroot hname] at hcs
  cases hoctets : disk.readOctets (Location.text (root ++ [name])) with
  | error f =>
    rw [hoctets] at hcs
    cases hcs
  | ok octets' =>
    obtain ⟨m', hreach⟩ := reach?_of_readOctets_text hplace hstraight hoctets
    cases hfile.symm.trans (at?_of_reach? hreach)
    rw [hoctets] at hcs
    dsimp only at hcs
    cases htext : Text.Utf8.decode? octets with
    | none =>
      rw [htext] at hcs
      cases hcs
    | some text =>
      rw [htext] at hcs
      cases hcs
      exact hfault text htext

/-- A manifest is found by its octets. -/
theorem found?_congr {disk disk' : Entry} {root name : String}
    (h : disk'.readOctets (Path.join root name) = disk.readOctets (Path.join root name)) :
    found? disk' root name = found? disk root name := by
  unfold found? readText
  rw [h]

/-- A manifest is found when its name is one with a reader. -/
theorem isSome_found? (disk : Entry) (root name : String) :
    (found? disk root name).isSome = (reader? name).isSome := Option.isSome_map

/-- A manifest that is not read declares nothing. -/
theorem found?_of_unread {disk : Entry} {root name : String} (h : Unread disk root name) :
    (found? disk root name).map Found.manifest = some (blank name) := by
  obtain ⟨read, hread, hfault⟩ := h
  unfold found?
  rw [hread]
  cases htext : disk.readText (Path.join root name) with
  | error f => cases f <;> rfl
  | ok cs =>
    obtain ⟨f, hf⟩ := hfault cs htext
    simp [hf]

end Manifest

namespace Surveyor

variable {disk disk' : Entry} {root : Location} {rootFiles : List String} {name : String}

/-- The manifests are those found for the names at the root, in order. -/
theorem manifestsOf_eq_filterMap (disk : Entry) (root : Location) (rootFiles : List String) :
    manifestsOf disk root rootFiles = rootFiles.filterMap fun n =>
      (Manifest.found? disk root.text n).map fun f => (n, f.manifest) := by
  unfold manifestsOf Manifest.foundAmong
  rw [List.map_filterMap]
  simp only [Option.map_map]
  rfl

/-- A name without a reader adds none. -/
theorem manifestsOf_cons_of_none (h : Manifest.found? disk root.text name = none) :
    manifestsOf disk root (name :: rootFiles) = manifestsOf disk root rootFiles := by
  rw [manifestsOf_eq_filterMap, manifestsOf_eq_filterMap, List.filterMap_cons_none (by simp [h])]

/-- A name with a reader adds what is found. -/
theorem manifestsOf_cons_of_some {f : Manifest.Found}
    (h : Manifest.found? disk root.text name = some f) :
    manifestsOf disk root (name :: rootFiles) =
      (name, f.manifest) :: manifestsOf disk root rootFiles := by
  rw [manifestsOf_eq_filterMap, manifestsOf_eq_filterMap, List.filterMap_cons_some]
  rw [h]
  rfl

/-- Each of the manifests was found under its name. -/
theorem exists_found_of_mem {n : String} {m : Manifest}
    (h : (n, m) ∈ manifestsOf disk root rootFiles) :
    ∃ f, Manifest.found? disk root.text n = some f ∧ f.manifest = m := by
  rw [manifestsOf_eq_filterMap, List.mem_filterMap] at h
  obtain ⟨x, -, hx⟩ := h
  obtain ⟨f, hf, heq⟩ := Option.map_eq_some_iff.mp hx
  cases heq
  exact ⟨f, hf, rfl⟩

/-- There is a manifest for each file whose name is that of one. -/
theorem keys_manifestsOf (disk : Entry) (root : Location) (rootFiles : List String) :
    Assoc.keys (manifestsOf disk root rootFiles) =
      rootFiles.filter fun n => (Manifest.reader? n).isSome := by
  induction rootFiles with
  | nil => rfl
  | cons n rest ih =>
    have hsome := Manifest.isSome_found? disk root.text n
    cases hfound : Manifest.found? disk root.text n with
    | none =>
      rw [hfound] at hsome
      rw [manifestsOf_cons_of_none hfound, ih, List.filter_cons_of_neg (by simp [← hsome])]
    | some f =>
      rw [hfound] at hsome
      rw [manifestsOf_cons_of_some hfound, Assoc.keys, List.map_cons,
        List.filter_cons_of_pos (by simp [← hsome])]
      exact congrArg (n :: ·) ih

/-- A manifest is what is found under its name. -/
theorem get?_manifestsOf {f : Manifest.Found} (hname : name ∈ rootFiles)
    (h : Manifest.found? disk root.text name = some f) :
    Assoc.get? name (manifestsOf disk root rootFiles) = some f.manifest := by
  induction rootFiles with
  | nil => contradiction
  | cons n rest ih =>
    rcases eq_or_ne n name with rfl | hne
    · rw [manifestsOf_cons_of_some h, Assoc.get?, if_pos rfl]
    · have hrest := ih (List.mem_of_ne_of_mem hne.symm hname)
      cases hfound : Manifest.found? disk root.text n with
      | none => rw [manifestsOf_cons_of_none hfound, hrest]
      | some f => rw [manifestsOf_cons_of_some hfound, Assoc.get?, if_neg hne, hrest]

/-- Without one file, the manifests are those of the other files. -/
theorem erase_manifestsOf (disk : Entry) (root : Location) (rootFiles : List String)
    (name : String) : Assoc.erase name (manifestsOf disk root rootFiles) =
      manifestsOf disk root (rootFiles.filter (· ≠ name)) := by
  induction rootFiles with
  | nil => rfl
  | cons n rest ih =>
    by_cases hn : n = name
    · rw [List.filter_cons_of_neg (by simpa using hn), ← ih]
      cases hfound : Manifest.found? disk root.text n with
      | none => rw [manifestsOf_cons_of_none hfound]
      | some f =>
        rw [manifestsOf_cons_of_some hfound]
        exact List.filter_cons_of_neg (by simpa using hn)
    · rw [List.filter_cons_of_pos (by simpa using hn)]
      cases hfound : Manifest.found? disk root.text n with
      | none => rw [manifestsOf_cons_of_none hfound, manifestsOf_cons_of_none hfound, ih]
      | some f =>
        rw [manifestsOf_cons_of_some hfound, manifestsOf_cons_of_some hfound, ← ih]
        exact List.filter_cons_of_pos (by simpa using hn)

/-! ### Two contents of one manifest -/

/-- Whether the files at the root hold the same on two disks, but for one of them. -/
def AgreeBut (root : Location) (rootFiles : List String) (name : String) (disk disk' : Entry) :
    Prop :=
  ∀ other ∈ rootFiles, other ≠ name →
    disk'.readOctets (Path.join root.text other) = disk.readOctets (Path.join root.text other)

/-- **A file at the root takes any content without a change of the others.** -/
theorem agreeBut_put (hroot : Path.AreNames root)
    (hfiles : ∀ other ∈ rootFiles, Path.IsName other ∧
      ∃ octets m, disk.at? (root ++ [other]) = some (file octets m))
    (octets : List UInt8) (m : Int) :
    AgreeBut root rootFiles name disk (disk.put (root ++ [name]) (file octets m)) := by
  intro other hother hne
  obtain ⟨hisName, octets', m', hfile⟩ := hfiles other hother
  have hplace : Path.AreNames (root ++ [other]) := Path.areNames_append.mpr ⟨hroot, by simpa⟩
  have hapart : ∀ a b : String, a ≠ b → ¬ root ++ [a] <+: root ++ [b] := by
    intro a b hab hbegins
    rw [List.prefix_append_right_inj] at hbegins
    exact hab (by simpa using hbegins)
  have hsame : (disk.put (root ++ [name]) (file octets m)).at? (root ++ [other]) =
      some (file octets' m') := by
    rw [at?_put_of_notPrefix _ (hapart _ _ hne.symm) (hapart _ _ hne), hfile]
  rw [join_text_name hroot hisName]
  exact readOctets_text_eq hplace hfile hsame
    (reach?_put_of_notPrefix disk (hapart _ _ hne.symm) (hapart _ _ hne) (file octets m))

/-- Without the one that may differ, the manifests are the same. -/
theorem AgreeBut.erase_manifestsOf (h : AgreeBut root rootFiles name disk disk') :
    Assoc.erase name (manifestsOf disk' root rootFiles) =
      Assoc.erase name (manifestsOf disk root rootFiles) := by
  rw [Surveyor.erase_manifestsOf, Surveyor.erase_manifestsOf, manifestsOf_eq_filterMap,
    manifestsOf_eq_filterMap]
  refine List.filterMap_congr fun n hn => ?_
  obtain ⟨hmem, hne⟩ := List.mem_filter.mp hn
  rw [Manifest.found?_congr (h n hmem (by simpa using hne))]

/-- What becomes of a survey if one manifest holds something else. -/
structure Isolates (t : Tables) (rootFiles : List String) (name : String) (ms ms' : Manifests) :
    Prop where
  /-- The same manifests are there. -/
  names : Assoc.keys ms' = Assoc.keys ms
  /-- The others hold what they held. -/
  others : ∀ other, other ≠ name → Assoc.get? other ms' = Assoc.get? other ms
  /-- The project is of the same runtime. -/
  runtime : ProjectProfile.SameRuntime (ProjectProfile.detect t rootFiles ms)
    (ProjectProfile.detect t rootFiles ms')
  /-- What the others declare for production is still in the summary. -/
  production : ∀ other m, other ≠ name → (other, m) ∈ ms → ∀ p ∈ Assoc.keys m.production,
    p ∈ (Dependencies.ofManifests t ms').production
  /-- What the others declare for development is still in the summary. -/
  development : ∀ other m, other ≠ name → (other, m) ∈ ms → ∀ p ∈ Assoc.keys m.development,
    p ∈ (Dependencies.ofManifests t ms').production ∨
      p ∈ (Dependencies.ofManifests t ms').development

/-- **Whatever one manifest holds, the others are read as before.** -/
theorem AgreeBut.isolates (h : AgreeBut root rootFiles name disk disk') {t : Tables}
    (hscripts : ∀ r ∈ t.runtimes, r.kind = "node" → r.language = "javascript") :
    Isolates t rootFiles name (manifestsOf disk root rootFiles)
      (manifestsOf disk' root rootFiles) := by
  have hstays : ∀ other m, other ≠ name → (other, m) ∈ manifestsOf disk root rootFiles →
      (other, m) ∈ manifestsOf disk' root rootFiles := by
    intro other m hne hm
    have hkept : (other, m) ∈ Assoc.erase name (manifestsOf disk root rootFiles) :=
      List.mem_filter.mpr ⟨hm, by simpa using hne⟩
    rw [← h.erase_manifestsOf] at hkept
    exact (List.mem_filter.mp hkept).1
  constructor
  case names => rw [keys_manifestsOf, keys_manifestsOf]
  case others =>
    intro other hne
    rw [← Assoc.get?_erase hne, h.erase_manifestsOf, Assoc.get?_erase hne]
  case runtime => exact ProjectProfile.sameRuntime_detect hscripts rootFiles _ _
  case production =>
    exact fun other m hne hm p hp =>
      Dependencies.mem_production_iff.mpr ⟨_, hstays other m hne hm, hp⟩
  case development =>
    intro other m hne hm p hp
    by_cases hproduction :
        p ∈ (Dependencies.ofManifests t (manifestsOf disk' root rootFiles)).production
    · exact .inl hproduction
    · exact .inr (Dependencies.mem_development_iff.mpr
        ⟨⟨_, hstays other m hne hm, hp⟩, hproduction⟩)

/-- A manifest that is not read is there and declares nothing, and what is declared is what the
others declare. -/
theorem AgreeBut.of_unread (h : AgreeBut root rootFiles name disk disk') (t : Tables)
    (hname : name ∈ rootFiles) (hunread : Manifest.Unread disk' root.text name) :
    Assoc.get? name (manifestsOf disk' root rootFiles) = some (Manifest.blank name) ∧
      Dependencies.ofManifests t (manifestsOf disk' root rootFiles) =
        Dependencies.ofManifests t (Assoc.erase name (manifestsOf disk root rootFiles)) := by
  obtain ⟨f, hfound, hblank⟩ := Option.map_eq_some_iff.mp (Manifest.found?_of_unread hunread)
  constructor
  · rw [get?_manifestsOf hname hfound, hblank]
  · rw [← h.erase_manifestsOf, Dependencies.ofManifests_erase]
    intro m hm
    obtain ⟨f', hfound', rfl⟩ := exists_found_of_mem hm
    rw [hfound, Option.some_inj] at hfound'
    rw [← hfound', hblank]

/-- **Whatever one manifest holds, all manifests are read, the others as before**, and one that is
not read takes nothing with it but what it would declare itself. -/
theorem manifests_isolated {t : Tables}
    (hscripts : ∀ r ∈ t.runtimes, r.kind = "node" → r.language = "javascript") {w w' : Workspace}
    (h : AgreeBut root rootFiles name w.disk w'.disk) :
    ∃ ms ms', Work.Yields (manifests root rootFiles) w (.ok ms) w.disk ∧
      Work.Yields (manifests root rootFiles) w' (.ok ms') w'.disk ∧
      Isolates t rootFiles name ms ms' ∧
      (name ∈ rootFiles → Manifest.Unread w'.disk root.text name →
        Assoc.get? name ms' = some (Manifest.blank name) ∧
          Dependencies.ofManifests t ms' = Dependencies.ofManifests t (Assoc.erase name ms)) :=
  ⟨_, _, manifests_yields root rootFiles w, manifests_yields root rootFiles w',
    h.isolates hscripts, h.of_unread t⟩

/-- The workspace of a project with two manifests. -/
def pagesWorkspace : Workspace where
  disk := .ofEntries [("p", .ofEntries [
    ("package.json",
      .file (Text.Utf8.encode "\x7b\"dependencies\":\x7b\"next\":\"14\"\x7d\x7d".toList) 0),
    ("requirements.txt", .file (Text.Utf8.encode "flask==3.0".toList) 0)])]
  directory := []
  homes := []
  time := 0
  notices := []
  printed := []

/-- The same workspace, with octets for one of the manifests that are no text. -/
def brokenWorkspace : Workspace :=
  { pagesWorkspace with disk := pagesWorkspace.disk.put ["p", "package.json"] (.file [0xff] 1) }

/-- The two manifests of the project, and the one of them that is broken. -/
theorem manifests_isolated_broken :
    (∀ r ∈ Tables.default.runtimes, r.kind = "node" → r.language = "javascript") ∧
      AgreeBut ["p"] ["package.json", "requirements.txt"] "package.json" pagesWorkspace.disk
        brokenWorkspace.disk ∧
      Manifest.Unread brokenWorkspace.disk (Location.text ["p"]) "package.json" ∧
      ∃ ms ms', Work.Yields (manifests ["p"] ["package.json", "requirements.txt"]) pagesWorkspace
          (.ok ms) pagesWorkspace.disk ∧
        Work.Yields (manifests ["p"] ["package.json", "requirements.txt"]) brokenWorkspace (.ok ms')
          brokenWorkspace.disk ∧
        Isolates .default ["package.json", "requirements.txt"] "package.json" ms ms' ∧
        Assoc.get? "package.json" ms' = some (Manifest.blank "package.json") ∧
        Dependencies.ofManifests .default ms' =
          Dependencies.ofManifests .default (Assoc.erase "package.json" ms) := by
  have hscripts : ∀ r ∈ Tables.default.runtimes, r.kind = "node" → r.language = "javascript" := by
    decide
  have hroot : Path.AreNames ["p"] := List.forall_mem_singleton.mpr (by decide +kernel)
  have hname : Path.IsName "package.json" := by decide
  have hagree : AgreeBut ["p"] ["package.json", "requirements.txt"] "package.json"
      pagesWorkspace.disk brokenWorkspace.disk := by
    refine agreeBut_put hroot (List.forall_mem_cons.mpr ⟨?_, List.forall_mem_singleton.mpr ?_⟩)
      [0xff] 1
    · exact ⟨hname, _, _, rfl⟩
    · exact ⟨by decide, _, _, rfl⟩
  have hunread : Manifest.Unread brokenWorkspace.disk (Location.text ["p"]) "package.json" := by
    have hnone : Text.Utf8.decode? [0xff] = none := by decide
    refine Manifest.unread_of_file hroot hname rfl rfl fun cs hcs => ?_
    cases hnone.symm.trans hcs
  obtain ⟨ms, ms', hms, hms', hisolates, hblank⟩ := manifests_isolated hscripts hagree
  exact ⟨hscripts, hagree, hunread, ms, ms', hms, hms', hisolates,
    hblank List.mem_cons_self hunread⟩

end Surveyor

end ProjectSurvey
