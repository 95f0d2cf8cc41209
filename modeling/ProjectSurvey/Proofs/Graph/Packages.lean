import ProjectSurvey.Graph.Build
import ProjectSurvey.Proofs.Sorting

/-!
# The declared packages of a graph

Packages are declared by manifests and called by references, which may choose another case or
another kind of hyphen. **A package is called by a name exactly if one with the same key is
declared** (`isSome_declaredAs?_iff`), and of several with one key the last in order is meant
(`declaredAs?_eq_some_iff`).
-/

namespace ProjectSurvey

/-- Whether a manifest among some declares a package. -/
def Manifests.Declare (manifests : Manifests) (name : String) : Prop :=
  ∃ m ∈ manifests, name ∈ Assoc.keys m.2.production ∨ name ∈ Assoc.keys m.2.development

/-- Whether a manifest among some asks for a version of a package. -/
def Manifests.AskFor (manifests : Manifests) (name version : String) : Prop :=
  ∃ m ∈ manifests, (name, version) ∈ m.2.production ∨ (name, version) ∈ m.2.development

namespace Manifest

/-- The packages of a manifest are those of both its tables. -/
theorem mem_keys_allDependencies (m : Manifest) (name : String) :
    name ∈ Assoc.keys m.allDependencies ↔
      name ∈ Assoc.keys m.production ∨ name ∈ Assoc.keys m.development := by
  unfold allDependencies Assoc.ofPairs
  rw [Assoc.mem_keys_update, Assoc.mem_keys_update]
  simp [Assoc.keys, or_comm]

/-- The versions of a manifest are those of both its tables. -/
theorem of_mem_allDependencies {m : Manifest} {p : String × String} (h : p ∈ m.allDependencies) :
    p ∈ m.production ∨ p ∈ m.development := by
  rcases Assoc.of_mem_update h with h | h
  · rcases Assoc.of_mem_update h with h | h
    · exact absurd h List.not_mem_nil
    · exact .inr h
  · exact .inl h

end Manifest

namespace Graph

/-! ### Adding what is new -/

variable {α β : Type}

/-- A table with some pairs added for keys that had no value. -/
def addNew (t : Assoc String α) (pairs : List (String × β)) (value : β → α) : Assoc String α :=
  pairs.foldl (fun t p => Assoc.insertNew p.1 (value p.2) t) t

/-- Adding what is new brings in the names of the pairs and keeps those that were there. -/
theorem mem_keys_addNew (t : Assoc String α) (pairs : List (String × β)) (value : β → α)
    (k : String) : k ∈ Assoc.keys (addNew t pairs value) ↔
      k ∈ Assoc.keys t ∨ k ∈ pairs.map Prod.fst := by
  unfold addNew
  induction pairs generalizing t with
  | nil => simp
  | cons p rest ih =>
    rw [List.foldl_cons, ih, Assoc.mem_keys_insertNew, List.map_cons, List.mem_cons]
    rw [or_assoc, or_left_comm]

/-- Adding what is new brings in no name twice. -/
theorem nodup_keys_addNew {t : Assoc String α} (pairs : List (String × β)) (value : β → α)
    (h : (Assoc.keys t).Nodup) : (Assoc.keys (addNew t pairs value)).Nodup := by
  unfold addNew
  induction pairs generalizing t with
  | nil => exact h
  | cons p rest ih =>
    rw [List.foldl_cons]
    refine ih ?_
    rw [Assoc.keys_insertNew]
    split
    · exact h
    · next hnew =>
      rw [List.nodup_append]
      refine ⟨h, List.nodup_singleton _, ?_⟩
      intro a ha b hb hab
      rw [List.mem_singleton] at hb
      exact hnew (hb ▸ hab ▸ ha)

/-- What is in a table after some additions was there before or is one of the pairs. -/
theorem of_mem_addNew {t : Assoc String α} {pairs : List (String × β)} {value : β → α}
    {p : String × α} (h : p ∈ addNew t pairs value) :
    p ∈ t ∨ ∃ q ∈ pairs, p = (q.1, value q.2) := by
  unfold addNew at h
  induction pairs generalizing t with
  | nil => exact .inl h
  | cons q rest ih =>
    rw [List.foldl_cons] at h
    rcases ih h with h | ⟨q', hq', rfl⟩
    · unfold Assoc.insertNew at h
      split at h
      · exact .inl h
      · rcases List.mem_append.mp h with h | h
        · exact .inl h
        · exact .inr ⟨q, List.mem_cons_self, List.mem_singleton.mp h⟩
    · exact .inr ⟨q', List.mem_cons_of_mem q hq', rfl⟩

/-! ### The packages and their versions -/

/-- The declared packages in the order in which they are met. -/
def metVersions (manifests : Manifests) : Assoc String String :=
  manifests.foldl (fun t m => addNew t m.2.allDependencies id) []

/-- The declared versions are those met, sorted by the name. -/
theorem declaredVersions_eq (manifests : Manifests) :
    declaredVersions manifests = (metVersions manifests).mergeSort (Sorting.before Prod.fst) := rfl

/-- The names met are those that some manifest declares, each once. -/
theorem keys_metVersions (manifests : Manifests) :
    (Assoc.keys (metVersions manifests)).Nodup ∧
      ∀ name, name ∈ Assoc.keys (metVersions manifests) ↔ manifests.Declare name := by
  suffices h : ∀ (ms : Manifests) (t : Assoc String String), (Assoc.keys t).Nodup →
      (Assoc.keys (ms.foldl (fun t m => addNew t m.2.allDependencies id) t)).Nodup ∧
        ∀ name, name ∈ Assoc.keys (ms.foldl (fun t m => addNew t m.2.allDependencies id) t) ↔
          name ∈ Assoc.keys t ∨ Manifests.Declare ms name by
    obtain ⟨hnodup, hmem⟩ := h manifests [] List.nodup_nil
    exact ⟨hnodup, fun name => (hmem name).trans ⟨fun h => h.resolve_left (by simp [Assoc.keys]),
      Or.inr⟩⟩
  intro ms
  induction ms with
  | nil => intro t ht; exact ⟨ht, fun name => by simp [Manifests.Declare]⟩
  | cons m rest ih =>
    intro t ht
    obtain ⟨hnodup, hmem⟩ := ih _ (nodup_keys_addNew m.2.allDependencies id ht)
    refine ⟨hnodup, fun name => ?_⟩
    rw [List.foldl_cons, hmem, mem_keys_addNew]
    have hkeys : name ∈ m.2.allDependencies.map Prod.fst ↔
        name ∈ Assoc.keys m.2.production ∨ name ∈ Assoc.keys m.2.development :=
      Manifest.mem_keys_allDependencies m.2 name
    rw [hkeys]
    simp only [Manifests.Declare, List.mem_cons, exists_eq_or_imp, or_assoc]

/-- The packages of a graph are the declared ones. -/
theorem mem_keys_declaredVersions (manifests : Manifests) (name : String) :
    name ∈ Assoc.keys (declaredVersions manifests) ↔ manifests.Declare name := by
  rw [← (keys_metVersions manifests).2, declaredVersions_eq]
  exact (((metVersions manifests).mergeSort_perm _).map Prod.fst).mem_iff

/-- The version of a package is one that a manifest asks for. -/
theorem askFor_of_mem_declaredVersions {manifests : Manifests} {p : String × String}
    (h : p ∈ declaredVersions manifests) : manifests.AskFor p.1 p.2 := by
  rw [declaredVersions_eq, List.mem_mergeSort] at h
  suffices hmet : ∀ (ms : Manifests) (t : Assoc String String),
      p ∈ ms.foldl (fun t m => addNew t m.2.allDependencies id) t → p ∈ t ∨ ms.AskFor p.1 p.2 from
    (hmet manifests [] h).resolve_left List.not_mem_nil
  intro ms
  induction ms with
  | nil => exact fun t ht => .inl ht
  | cons m rest ih =>
    intro t ht
    rw [List.foldl_cons] at ht
    rcases ih _ ht with ht | ⟨m', hm', hasked⟩
    · rcases of_mem_addNew ht with ht | ⟨q, hq, rfl⟩
      · exact .inl ht
      · exact .inr ⟨m, List.mem_cons_self, Manifest.of_mem_allDependencies hq⟩
    · exact .inr ⟨m', List.mem_cons_of_mem m hm', hasked⟩

/-- The packages of a graph are in strict order. -/
theorem pairwise_declaredVersions (manifests : Manifests) :
    (declaredVersions manifests).Pairwise fun a b => a.1 < b.1 :=
  Sorting.pairwise_mergeSort_lt Prod.fst (keys_metVersions manifests).1

/-! ### The package that a name calls -/

/-- The package meant by a name is the last one with its key. -/
theorem declaredAs?_eq_some_iff (manifests : Manifests) (name found : String) :
    declaredAs? (declaredVersions manifests) name = some found ↔
      manifests.Declare found ∧ packageKey found = packageKey name ∧
        ∀ other, manifests.Declare other → packageKey other = packageKey name → other ≤ found := by
  have hsorted : (declaredVersions manifests).reverse.Pairwise fun a b => b.1 < a.1 :=
    List.pairwise_reverse.mpr (pairwise_declaredVersions manifests)
  have hmem : ∀ n, manifests.Declare n ↔
      n ∈ ((declaredVersions manifests).reverse.map Prod.fst) := fun n => by
    rw [List.map_reverse, List.mem_reverse]
    exact (mem_keys_declaredVersions manifests n).symm
  simp only [hmem]
  unfold declaredAs?
  generalize (declaredVersions manifests).reverse = versions at hsorted
  rw [Option.map_eq_some_iff]
  constructor
  · rintro ⟨⟨n, v⟩, hfind, rfl⟩
    obtain ⟨hkey, before, after, rfl, hbefore⟩ := List.find?_eq_some_iff_append.mp hfind
    refine ⟨by simp, by simpa using hkey, ?_⟩
    intro other hother hsame
    rw [List.map_append, List.mem_append, List.map_cons, List.mem_cons] at hother
    rcases hother with hother | rfl | hother
    · obtain ⟨p, hp, rfl⟩ := List.mem_map.mp hother
      have := hbefore p hp
      simp [hsame] at this
    · exact String.le_refl _
    · obtain ⟨p, hp, rfl⟩ := List.mem_map.mp hother
      rw [List.pairwise_append, List.pairwise_cons] at hsorted
      exact Std.le_of_lt (hsorted.2.1.1 p hp)
  · rintro ⟨hfound, hkey, hlast⟩
    obtain ⟨p, hp, rfl⟩ := List.mem_map.mp hfound
    refine ⟨p, ?_, rfl⟩
    obtain ⟨before, after, rfl⟩ := List.append_of_mem hp
    refine List.find?_eq_some_iff_append.mpr ⟨by simpa using hkey, before, after, rfl, ?_⟩
    intro q hq
    rw [List.pairwise_append] at hsorted
    have hlt : p.1 < q.1 := hsorted.2.2 q hq p List.mem_cons_self
    by_contra hsame
    have := hlast q.1 (List.mem_map_of_mem (List.mem_append_left _ hq)) (by simpa using hsame)
    exact absurd hlt (String.not_lt.mpr this)

/-- A name calls a package exactly if one with its key is declared. -/
theorem isSome_declaredAs?_iff (manifests : Manifests) (name : String) :
    (declaredAs? (declaredVersions manifests) name).isSome = true ↔
      ∃ found, manifests.Declare found ∧ packageKey found = packageKey name := by
  unfold declaredAs?
  rw [Option.isSome_map, List.find?_isSome]
  simp only [List.mem_reverse, beq_iff_eq, ← mem_keys_declaredVersions, Assoc.keys, List.mem_map]
  constructor
  · rintro ⟨p, hp, hkey⟩
    exact ⟨p.1, ⟨p, hp, rfl⟩, hkey⟩
  · rintro ⟨_, ⟨p, hp, rfl⟩, hkey⟩
    exact ⟨p, hp, hkey⟩

end Graph

end ProjectSurvey
