import Mathlib.Data.Set.Card
import ProjectSurvey.Proofs.Evidence.Cache

/-!
# The cache as a map with a saved copy

What the cache answers can be told without entries, values and files: it is a map from paths to what
was stored for them last, with a copy of the map as it was saved last (`Shelf`). **Whatever is done
with a cache and its file, the answers are those of the map** (`answers_eq_run`): pruning removes
just the paths that are not kept, and opening the cache again brings back the saved copy. Saving the
map may be refused, by the system or because an integer is too long to be written; then the copy
that was saved before stays.

A cache that counts as unchanged is not written. That this loses nothing rests on one invariant: the
map of an unchanged cache is the saved copy (`Refines.clean`).
-/

namespace ProjectSurvey.EvidenceCache

/-! ### The map -/

/-- What is stored for a path. -/
structure Stored where
  /-- The file that the evidence was found in. -/
  record : FileRecord
  /-- The signature that it was found under. -/
  signature : String
  /-- The evidence. -/
  evidence : Evidence

namespace Stored

/-- Whether evidence is stored for the file it was found in, and its findings are of the right
kinds. -/
structure IsFit (s : Stored) : Prop where
  /-- The evidence is that of the file. -/
  path : s.evidence.path = s.record.path
  /-- The findings are of the right kinds. -/
  findings : ∀ f ∈ s.evidence.findings, f.IsTyped

/-- Whether what is stored can be written: its integers have no more digits than the writer
takes. -/
structure IsWritable (s : Stored) : Prop where
  /-- Size and time can be written, -/
  measured : s.record.IsMeasured
  /-- and so can the evidence. -/
  keepable : s.evidence.IsKeepable

end Stored

/-- What is stored, and what is saved. -/
structure Shelf where
  /-- What is stored for each path. -/
  map : String → Option Stored
  /-- What was stored when the map was saved last. -/
  saved : String → Option Stored
  /-- How often evidence was asked for since the cache was opened. -/
  asked : Nat
  /-- How often it was found. -/
  found : Nat

/-- A step of the use of a cache. -/
inductive Step where
  /-- Asking for the evidence of a file. -/
  | get (record : FileRecord) (signature : String)
  /-- Storing evidence. -/
  | store (s : Stored)
  /-- Keeping some paths only. -/
  | prune (keep : List String)
  /-- Removing everything. -/
  | clear
  /-- Writing the cache into its file. -/
  | persist (time : Int)
  /-- Opening the cache anew. -/
  | reopen

namespace Step

/-- Whether all that a step stores is fit to be stored. -/
def IsFit : Step → Prop
  | store s => s.IsFit
  | _ => True

/-- Whether all that a step stores can be written. -/
def IsWritable : Step → Prop
  | store s => s.IsWritable
  | _ => True

end Step

/-- Whether all that a map holds can be written. -/
def AreWritable (map : String → Option Stored) : Prop :=
  ∀ path s, map path = some s → s.IsWritable

namespace Shelf

/-- Nothing stored and nothing saved. -/
def empty : Shelf := ⟨fun _ => none, fun _ => none, 0, 0⟩

/-- Whether what is stored is still good for a file. -/
def isGood (record : FileRecord) (signature : String) (s : Stored) : Bool :=
  s.signature == signature && s.record.size == record.size &&
    s.record.modifiedNs == record.modifiedNs

/-- The evidence for a file, if what is stored for its path is still good. -/
def find? (m : Shelf) (record : FileRecord) (signature : String) : Option Evidence :=
  ((m.map record.path).filter (isGood record signature)).map Stored.evidence

/-- How many paths something is stored for. -/
noncomputable def length (m : Shelf) : Nat := {path | (m.map path).isSome = true}.ncard

/-- The map after a step; whether it was refused is given. -/
def after (m : Shelf) (refused : Bool) : Step → Shelf
  | .get record signature =>
    { m with
      asked := m.asked + 1
      found := m.found + if (m.find? record signature).isSome then 1 else 0 }
  | .store s =>
    { m with map := fun path => if path = s.record.path then some s else m.map path }
  | .prune keep => { m with map := fun path => if path ∈ keep then m.map path else none }
  | .clear => { m with map := fun _ => none }
  | .persist _ => if refused then m else { m with saved := m.map }
  | .reopen => { m with map := m.saved, asked := 0, found := 0 }

/-- The evidence that a step gives. -/
def evidence (m : Shelf) : Step → Option Evidence
  | .get record signature => m.find? record signature
  | _ => none

open Classical in
/-- Whether a step is refused where nothing but the length of an integer stands in the way. -/
noncomputable def refuses (m : Shelf) : Step → Bool
  | .persist _ => !decide (AreWritable m.map)
  | _ => false

/-- Which steps one after the other are refused. -/
noncomputable def refusals (m : Shelf) : List Step → List Bool
  | [] => []
  | s :: steps => m.refuses s :: (m.after (m.refuses s) s).refusals steps

end Shelf

/-! ### The cache -/

/-- What a step answers. -/
structure Answer where
  /-- The evidence that was found. -/
  evidence : Option Evidence
  /-- Whether the step was refused. -/
  refused : Bool
  /-- How many entries there are afterwards. -/
  length : Nat
  /-- How often evidence was found since the cache was opened. -/
  hits : Nat
  /-- How often it was asked for. -/
  asked : Nat

/-- What a map answers to steps one after the other, given for each whether it was refused. -/
noncomputable def Shelf.run (m : Shelf) : List (Step × Bool) → List Answer
  | [] => []
  | s :: steps =>
    ⟨m.evidence s.1, s.2, (m.after s.2 s.1).length, (m.after s.2 s.1).found,
      (m.after s.2 s.1).asked⟩ :: (m.after s.2 s.1).run steps

/-- The map after steps one after the other. -/
def Shelf.afterAll (m : Shelf) : List (Step × Bool) → Shelf
  | [] => m
  | s :: steps => (m.after s.2 s.1).afterAll steps

/-- What a step answers, apart from the counts and the refusal. -/
def Answer.told (a : Answer) : Option Evidence × Nat := (a.evidence, a.length)

namespace Shelf

/-- Every step gets one answer. -/
theorem length_run (m : Shelf) (steps : List (Step × Bool)) :
    (m.run steps).length = steps.length := by
  induction steps generalizing m with
  | nil => rfl
  | cons s steps ih => rw [run, List.length_cons, List.length_cons, ih]

/-- A run in two parts is the second part run after the first. -/
theorem run_append (m : Shelf) (before after : List (Step × Bool)) :
    m.run (before ++ after) = m.run before ++ (m.afterAll before).run after := by
  induction before generalizing m with
  | nil => rfl
  | cons s before ih => rw [List.cons_append, run, run, ih, List.cons_append, afterAll]

/-- What the answers tell depends on what is stored and what is saved. -/
theorem told_run_eq {m m' : Shelf} (hmap : m.map = m'.map) (hsaved : m.saved = m'.saved)
    (steps : List (Step × Bool)) :
    (m.run steps).map Answer.told = (m'.run steps).map Answer.told := by
  induction steps generalizing m m' with
  | nil => rfl
  | cons s steps ih =>
    obtain ⟨s, refused⟩ := s
    have hafter : (m.after refused s).map = (m'.after refused s).map ∧
        (m.after refused s).saved = (m'.after refused s).saved := by
      cases s with
      | persist time => cases refused <;> exact ⟨hmap, by simp [after, hmap, hsaved]⟩
      | _ => simp [after, hmap, hsaved]
    have hevidence : m.evidence s = m'.evidence s := by
      cases s with
      | get record signature => simp only [evidence, find?, hmap]
      | _ => rfl
    rw [run, run, List.map_cons, List.map_cons, ih hafter.1 hafter.2, Answer.told, Answer.told,
      hevidence, length, length, hafter.1]

/-- **Opening a map that was just saved changes nothing that is told later.** -/
theorem told_run_reopen (m : Shelf) (time : Int) (before after : List (Step × Bool)) :
    ((m.run (before ++ (.persist time, false) :: (.reopen, false) :: after)).drop
        (before.length + 2)).map Answer.told =
      ((m.run (before ++ (.persist time, false) :: after)).drop (before.length + 1)).map
        Answer.told := by
  have hdrop : ∀ k rest, (m.run (before ++ rest)).drop (before.length + k) =
      ((m.afterAll before).run rest).drop k := by
    intro k rest
    rw [run_append, ← m.length_run before, List.drop_length_add_append]
  rw [hdrop, hdrop, run, run, run, List.drop_succ_cons, List.drop_succ_cons, List.drop_succ_cons,
    List.drop_zero, List.drop_zero]
  refine told_run_eq ?_ ?_ after <;> rfl

/-- Nothing is refused for being too large to write where all that is stored can be written. -/
theorem refuses_eq_false {m : Shelf} (h : AreWritable m.map) (s : Step) : m.refuses s = false := by
  cases s with
  | persist time => simp [refuses, h]
  | _ => rfl

/-- **Nothing is refused where all that is stored can be written.** -/
theorem refusals_eq_false {m : Shelf} (hmap : AreWritable m.map) (hsaved : AreWritable m.saved)
    {steps : List Step} (hsteps : ∀ s ∈ steps, s.IsWritable) :
    m.refusals steps = steps.map fun _ => false := by
  induction steps generalizing m with
  | nil => rfl
  | cons s steps ih =>
    obtain ⟨hs, hsteps⟩ := List.forall_mem_cons.mp hsteps
    have hrefuses := refuses_eq_false hmap s
    have hafter : AreWritable (m.after false s).map ∧ AreWritable (m.after false s).saved := by
      cases s with
      | get record signature => exact ⟨hmap, hsaved⟩
      | store s =>
        refine ⟨?_, hsaved⟩
        intro path s' hs'
        by_cases hpath : path = s.record.path
        · cases (if_pos hpath).symm.trans hs'
          exact hs
        · exact hmap path s' ((if_neg hpath).symm.trans hs')
      | prune keep =>
        refine ⟨?_, hsaved⟩
        intro path s' hs'
        by_cases hpath : path ∈ keep
        · exact hmap path s' ((if_pos hpath).symm.trans hs')
        · cases (if_neg hpath).symm.trans hs'
      | clear => exact ⟨nofun, hsaved⟩
      | persist time => exact ⟨hmap, hmap⟩
      | reopen => exact ⟨hsaved, hsaved⟩
    rw [refusals, hrefuses, ih hafter.1 hafter.2 hsteps, List.map_cons]

end Shelf

/-- A cache that is open, and the disk with its file. -/
structure Opened where
  /-- The cache. -/
  cache : EvidenceCache
  /-- The disk. -/
  disk : Entry

namespace Opened

/-- What a step with the cache in the file of a path gives: the evidence, whether it was refused,
and what is open afterwards. -/
def step (path : String) (o : Opened) : Step → Except Failure (Option Evidence × Bool × Opened)
  | .get record signature =>
    .ok ((o.cache.get record signature).1.map KeptEvidence.evidence, false,
      { o with cache := (o.cache.get record signature).2 })
  | .store s => .ok (none, false, { o with cache := o.cache.store s.record s.signature s.evidence })
  | .prune keep => .ok (none, false, { o with cache := o.cache.prune keep })
  | .clear => .ok (none, false, { o with cache := o.cache.clear })
  | .persist time =>
    .ok (none, (o.cache.persist o.disk time (some path)).2.2.isSome,
      ⟨(o.cache.persist o.disk time (some path)).1, (o.cache.persist o.disk time (some path)).2.1⟩)
  | .reopen => (load o.disk (some path)).map fun c => (none, false, { o with cache := c })

/-- What the cache answers to steps one after the other. -/
def answers (path : String) (o : Opened) : List Step → Except Failure (List Answer)
  | [] => .ok []
  | s :: steps =>
    (o.step path s).bind fun r =>
      (r.2.2.answers path steps).map fun rest =>
        ⟨r.1, r.2.1, r.2.2.cache.entries.length, r.2.2.cache.hits,
          r.2.2.cache.hits + r.2.2.cache.misses⟩ :: rest

end Opened

/-- Asking counts, and nothing else changes. -/
theorem get_eq (c : EvidenceCache) (record : FileRecord) (signature : String) :
    c.get record signature = (c.find? record signature,
      { c with
        hits := c.hits + if (c.find? record signature).isSome then 1 else 0
        misses := c.misses + if (c.find? record signature).isSome then 0 else 1 }) := by
  unfold get
  cases c.find? record signature <;> rfl

/-! ### Entries of a map -/

/-- Whether an entry is that of what a map holds for a path: as it was made, or of something that
can be written. -/
def HoldsIn (map : String → Option Stored) (path : String) (entry : Assoc String Datum) : Prop :=
  ∃ s, map path = some s ∧ s.IsFit ∧ s.record.path = path ∧
    IsEntryOf s.record s.signature s.evidence entry ∧
    (entry = entryOf s.record s.signature s.evidence ∨ s.IsWritable)

/-- Whether an entry is that of what a map holds for a path and can be written. -/
def IsWritableIn (map : String → Option Stored) (path : String) (entry : Assoc String Datum) :
    Prop :=
  ∃ s, map path = some s ∧ s.IsFit ∧ s.record.path = path ∧
    IsEntryOf s.record s.signature s.evidence entry ∧ s.IsWritable

/-- Being a writable entry of the map is a property a cache can keep. -/
theorem keptProperty_isWritableIn (map : String → Option Stored) :
    KeptProperty (IsWritableIn map) := by
  constructor
  · rintro path entry ⟨s, -, -, -, hentry, hwritable⟩
    exact (hentry.isWritable hwritable.measured hwritable.keepable).1
  · rintro path entry ⟨s, -, -, -, hentry, hwritable⟩
    exact (hentry.isWritable hwritable.measured hwritable.keepable).2
  · rintro path entry ⟨s, hs, hfit, hpath, hentry, hwritable⟩
    exact ⟨s, hs, hfit, hpath, hentry.sorted, hwritable⟩

/-- Whether the entries of a cache are those of a map. -/
structure Represents (map : String → Option Stored) (c : EvidenceCache) : Prop where
  /-- Every entry is one of the map, -/
  sound : c.IsSound (HoldsIn map)
  /-- and the map holds nothing else. -/
  complete : ∀ path s, map path = some s → path ∈ Assoc.keys c.entries

namespace Represents

variable {map : String → Option Stored} {c : EvidenceCache}

/-- The empty map is represented by the empty cache. -/
theorem empty : Represents (fun _ => none) EvidenceCache.empty :=
  ⟨isSound_empty, by simp⟩

/-- So is it by any cache that was cleared. -/
theorem clear (c : EvidenceCache) : Represents (fun _ => none) c.clear :=
  ⟨⟨List.nodup_nil, by simp [EvidenceCache.clear]⟩, by simp⟩

/-- The map answers for the paths among the keys. -/
theorem isSome_iff (h : Represents map c) (path : String) :
    (map path).isSome = true ↔ path ∈ Assoc.keys c.entries := by
  constructor
  · intro hsome
    obtain ⟨s, hs⟩ := Option.isSome_iff_exists.mp hsome
    exact h.complete path s hs
  · intro hpath
    obtain ⟨⟨k, entry⟩, hmem, rfl⟩ := List.mem_map.mp hpath
    obtain ⟨s, hs, -⟩ := h.sound.entries _ hmem
    rw [hs]
    rfl

/-- A cache has as many entries as its map has paths. -/
theorem length_eq (h : Represents map c) :
    c.entries.length = {path | (map path).isSome = true}.ncard := by
  have hset : {path | (map path).isSome = true} = ↑(Assoc.keys c.entries).toFinset := by
    ext path
    rw [Set.mem_ofPred_eq, h.isSome_iff, Finset.mem_coe, List.mem_toFinset]
  rw [hset, Set.ncard_coe_finset, List.toFinset_card_of_nodup h.sound.nodup, Assoc.keys,
    List.length_map]

/-- **What the cache finds is what the map has that is still good.** -/
theorem find?_eq (h : Represents map c) (record : FileRecord) (signature : String) :
    (c.find? record signature).map KeptEvidence.evidence =
      ((map record.path).filter (Shelf.isGood record signature)).map Stored.evidence := by
  unfold find?
  cases hget : Assoc.get? record.path c.entries with
  | none =>
    have hnone : map record.path = none := by
      rw [← Option.not_isSome_iff_eq_none, h.isSome_iff, ← Assoc.has_iff_mem_keys, Assoc.has, hget]
      exact Bool.false_ne_true
    rw [hnone]
    rfl
  | some entry =>
    obtain ⟨s, hs, hfit, hpath, hentry, hmade⟩ := h.sound.of_get? hget
    obtain ⟨k, hk, hevidence⟩ := ofEntry?_of_isEntryOf hentry
      (hmade.imp_right Stored.IsWritable.keepable)
    rw [hfit.path, hpath] at hk
    have hgood : isCurrent record signature entry = Shelf.isGood record signature s := by
      rw [Bool.eq_iff_iff, hentry.isCurrent_iff]
      simp [Shelf.isGood, and_assoc]
    rw [hs]
    dsimp only
    rw [hgood]
    cases hcase : Shelf.isGood record signature s with
    | true =>
      rw [if_pos rfl, hk, Option.filter_some_pos hcase, Option.map_some, Option.map_some, hevidence]
    | false => rw [if_neg Bool.false_ne_true, Option.filter_some_neg (by simp [hcase])]; rfl

/-- The cache finds nothing but evidence of the map. -/
theorem exists_of_find? (h : Represents map c) {record : FileRecord} {signature : String}
    {k : KeptEvidence} (hk : c.find? record signature = some k) :
    ∃ s, map record.path = some s ∧ s.evidence = k.evidence := by
  have hkept := h.find?_eq record signature
  rw [hk] at hkept
  obtain ⟨s, hs, hevidence⟩ := Option.map_eq_some_iff.mp hkept.symm
  exact ⟨s, (Option.filter_eq_some_iff.mp hs).1, hevidence⟩

/-- A map is represented by any cache with the same entries. -/
theorem of_entries (h : Represents map c) {c' : EvidenceCache} (heq : c'.entries = c.entries) :
    Represents map c' := by
  refine ⟨⟨?_, ?_⟩, ?_⟩
  · rw [heq]
    exact h.sound.nodup
  · rw [heq]
    exact h.sound.entries
  · rw [heq]
    exact h.complete

/-- Storing in the cache is storing in the map. -/
theorem store (h : Represents map c) {s : Stored} (hs : s.IsFit) :
    Represents (fun path => if path = s.record.path then some s else map path)
      (c.store s.record s.signature s.evidence) := by
  have hnodup : (Assoc.keys (c.store s.record s.signature s.evidence).entries).Nodup :=
    Assoc.nodup_keys_insert _ _ h.sound.nodup
  refine ⟨⟨hnodup, ?_⟩, ?_⟩
  · rintro ⟨path, entry⟩ hmem
    have hget := (Assoc.get?_eq_some_iff hnodup).mpr hmem
    rw [EvidenceCache.store, Assoc.get?_insert] at hget
    by_cases hpath : s.record.path = path
    · rw [if_pos hpath] at hget
      cases hget
      exact ⟨s, if_pos hpath.symm, hs, hpath, .inl rfl, .inl rfl⟩
    · rw [if_neg hpath] at hget
      obtain ⟨s', hs', hrest⟩ := h.sound.of_get? hget
      exact ⟨s', (if_neg (Ne.symm hpath)).trans hs', hrest⟩
  · intro path s' hs'
    rw [EvidenceCache.store, Assoc.mem_keys_insert]
    by_cases hpath : path = s.record.path
    · exact .inl hpath
    · rw [if_neg hpath] at hs'
      exact .inr (h.complete path s' hs')

/-- Pruning the cache is restricting the map. -/
theorem prune (h : Represents map c) (keep : List String) :
    Represents (fun path => if path ∈ keep then map path else none) (c.prune keep) := by
  refine ⟨⟨(h.sound.prune keep).nodup, ?_⟩, ?_⟩
  · rintro ⟨path, entry⟩ hmem
    obtain ⟨hmem, hkeep⟩ := List.mem_filter.mp hmem
    obtain ⟨s, hs, hrest⟩ := h.sound.entries _ hmem
    exact ⟨s, (if_pos (List.contains_iff_mem.mp hkeep)).trans hs, hrest⟩
  · intro path s hs
    by_cases hkeep : path ∈ keep
    · rw [if_pos hkeep] at hs
      obtain ⟨⟨k, entry⟩, hmem, rfl⟩ := List.mem_map.mp (h.complete path s hs)
      exact List.mem_map_of_mem (List.mem_filter.mpr ⟨hmem, List.contains_iff_mem.mpr hkeep⟩)
    · rw [if_neg hkeep] at hs
      cases hs

/-- Where pruning removes no entry, it removes nothing of the map. -/
theorem prune_eq_self (h : Represents map c) {keep : List String}
    (hlength : (c.prune keep).entries.length = c.entries.length) :
    (fun path => if path ∈ keep then map path else none) = map := by
  have hall := List.length_filter_eq_length_iff.mp hlength
  funext path
  by_cases hkeep : path ∈ keep
  · exact if_pos hkeep
  · rw [if_neg hkeep]
    cases hs : map path with
    | none => rfl
    | some s =>
      obtain ⟨⟨k, entry⟩, hmem, rfl⟩ := List.mem_map.mp (h.complete path s hs)
      exact absurd (List.contains_iff_mem.mp (hall _ hmem)) hkeep

/-- A cache that represents a writable map is sound and can be written. -/
theorem isSound_of_areWritable (h : Represents map c) (hall : AreWritable map) :
    c.IsSound (IsWritableIn map) := by
  refine ⟨h.sound.nodup, ?_⟩
  intro p hp
  obtain ⟨s, hs, hfit, hpath, hentry, -⟩ := h.sound.entries p hp
  exact ⟨s, hs, hfit, hpath, hentry, hall _ s hs⟩

/-- **The integers of a cache can be shown exactly if all that the map holds can be written.** -/
theorem isShowable_iff (h : Represents map c) :
    c.toDatum.isShowable = true ↔ AreWritable map := by
  constructor
  · intro hshow path s hs
    obtain ⟨⟨k, entry⟩, hmem, rfl⟩ := List.mem_map.mp (h.complete path s hs)
    obtain ⟨s', hs', hfit, -, -, hmade⟩ := h.sound.entries _ hmem
    cases hs.symm.trans hs'
    rcases hmade with rfl | hwritable
    · rw [toDatum_eq] at hshow
      have hentries : (Datum.table c.entriesDatum).isShowable = true :=
        Json.isShowable_of_mem hshow (k := "entries") (by simp [members])
      have hentry : (k, Datum.table (entryOf s.record s.signature s.evidence)) ∈ c.entriesDatum :=
        List.mem_map_of_mem hmem
      obtain ⟨hmeasured, hkeepable⟩ := isMeasured_and_isKeepable_of_isShowable hfit.findings
        (Json.isShowable_of_mem hentries hentry)
      exact ⟨hmeasured, hkeepable⟩
    · exact hwritable
  · intro hall
    exact (h.isSound_of_areWritable hall).isShowable (keptProperty_isWritableIn map)

/-- **A cache that was written and read again is the same.** -/
theorem reload (h : Represents map c) (hall : AreWritable map) :
    Represents map (ofDatum (Json.sortKeys (.table c.members))) := by
  obtain ⟨hnodup, hentries⟩ :=
    (h.isSound_of_areWritable hall).ofDatum_sortKeys (keptProperty_isWritableIn map)
  refine ⟨⟨hnodup, ?_⟩, ?_⟩
  · intro p hp
    obtain ⟨s, hs, hfit, hpath, hentry, hwritable⟩ := hentries p hp
    exact ⟨s, hs, hfit, hpath, hentry, .inr hwritable⟩
  intro path s hs
  have hkeys := keys_ofDatum_sortKeys c (by
    intro p hp
    obtain ⟨s, -, -, -, hentry, -⟩ := h.sound.entries p hp
    have hsignature : Assoc.get? "signature" (Json.sortMembers (Json.sortValues p.2)) =
        some (.text s.signature) := hentry.sorted.get?_of_sorted rfl rfl
    rw [Assoc.has, hsignature]
    rfl)
  exact hkeys.mem_iff.mpr (h.complete path s hs)

end Represents

/-! ### The file -/

open Entry

variable {disk : Entry} {front : Location} {n : String} {saved : String → Option Stored}

/-- Whether the file at a location holds what was saved of a map; where nothing was saved, there may
be none. -/
def IsSavedAt (saved : String → Option Stored) (disk : Entry) (l : Location) : Prop :=
  (∀ o t, disk.reach? l ≠ some (file o t)) ∧ saved = (fun _ => none) ∨
    checkPath l.text = .ok () ∧ AreWritable saved ∧
      ∃ c t, disk.reach? l = some (file (Text.Utf8.encode c.text) t) ∧ Represents saved c

/-- What was saved could be written. -/
theorem IsSavedAt.areWritable {l : Location} (h : IsSavedAt saved disk l) : AreWritable saved := by
  rcases h with ⟨-, rfl⟩ | ⟨-, hall, -⟩
  · exact nofun
  · exact hall

/-- **Opening a cache brings back what was saved.** -/
theorem IsSavedAt.load_eq {l : Location} (h : IsSavedAt saved disk l) (hl : Path.AreNames l)
    (hstraight : disk.IsStraight l) :
    ∃ c, load disk (some l.text) = .ok c ∧ Represents saved c ∧ c.dirty = false ∧ c.hits = 0 ∧
      c.misses = 0 := by
  rcases h with ⟨hnone, rfl⟩ | ⟨hcheck, hall, c, t, hfile, hc⟩
  · cases hread : disk.readOctets l.text with
    | ok octets =>
      obtain ⟨m, hfile⟩ := reach?_of_readOctets_text hl hstraight hread
      exact absurd hfile (hnone octets m)
    | error f =>
      refine ⟨.empty, load_of_refused hread ?_, .empty, rfl, rfl, rfl⟩
      rintro rfl
      exact readOctets_text_ne_zero hl hstraight hread
  · have hread : disk.readOctets l.text = .ok (Text.Utf8.encode c.text) := by
      unfold readOctets
      rw [locate_text_of_ok disk hl hcheck, follow_of_reach? hl hfile hstraight.self]
    refine ⟨_, load_of_readOctets (keptProperty_isWritableIn saved) (hc.isSound_of_areWritable hall)
      hread, hc.reload hall, ?_⟩
    unfold ofDatum
    split <;> exact ⟨rfl, rfl, rfl⟩

/-- What persisting a cache may come to. -/
inductive PersistCase (c : EvidenceCache) (disk : Entry) (time : Int) (l : Location) :
    EvidenceCache × Entry × Option Failure → Prop where
  /-- There is nothing to write. -/
  | clean (h : c.dirty = false) : PersistCase c disk time l (c, disk, none)
  /-- The cache is written. -/
  | written (disk' : Entry) (hshow : c.toDatum.isShowable = true)
      (hpath : checkPath l.text = .ok ())
      (hfile : disk'.reach? l = some (file (Text.Utf8.encode c.text) time)) :
      PersistCase c disk time l ({ c with dirty := false }, disk', none)
  /-- It is refused. -/
  | refused (disk' : Entry) (f : Failure)
      (hfile : ∀ o t, disk'.reach? l = some (file o t) ↔ disk.reach? l = some (file o t)) :
      PersistCase c disk time l (c, disk', some f)

/-- **A cache that has changed is written, or it is refused and no file changes.** -/
theorem persist_cases (c : EvidenceCache) (hdisk : disk.isDirectory = true)
    (hl : Path.AreNames (front ++ [n])) (hstraight : disk.IsStraight (front ++ [n])) (time : Int) :
    PersistCase c disk time (front ++ [n]) (c.persist disk time (some (front ++ [n]).text)) ∧
      (c.persist disk time (some (front ++ [n]).text)).2.1.isDirectory = true ∧
      (c.persist disk time (some (front ++ [n]).text)).2.1.IsStraight (front ++ [n]) := by
  obtain ⟨hfront, -⟩ := Path.areNames_append.mp hl
  unfold persist
  cases hdirty : c.dirty with
  | false => exact ⟨.clean hdirty, hdisk, hstraight⟩
  | true =>
    dsimp only
    rw [Path.components_text hl, List.dropLast_concat]
    have hkeeps := makeDirectories_keeps hdisk hfront (hstraight.of_prefix (List.prefix_append _ _))
    cases hmake : disk.makeDirectories front.text with
    | mk disk' refused =>
      rw [hmake] at hkeeps
      obtain ⟨hdisk', hstraight', hfiles⟩ := hkeeps
      cases refused with
      | some f =>
        exact ⟨.refused disk' _ fun o t => hfiles _ _ rfl, hdisk', hstraight' _ hstraight⟩
      | none =>
        dsimp only
        by_cases hshow : c.toDatum.isShowable = true
        · rw [if_pos hshow]
          rcases writeText_put_or_refused hl (hstraight' _ hstraight) time c.text with
            ⟨hwrite, hcheck, ⟨es, b, hdir⟩, -⟩ | ⟨f, hwrite⟩
          · rw [hwrite]
            have hfile : (disk'.put (front ++ [n]) (file (Text.Utf8.encode c.text) time)).reach?
                (front ++ [n]) = some (file (Text.Utf8.encode c.text) time) :=
              reach?_put_self hdir n _
            exact ⟨.written _ hshow hcheck hfile, (isDirectory_put disk' (by simp) _).trans hdisk',
              isStraight_of_at? (at?_of_reach? hfile) (by simp)⟩
          · rw [hwrite]
            exact ⟨.refused disk' _ fun o t => hfiles _ _ rfl, hdisk', hstraight' _ hstraight⟩
        · rw [if_neg hshow]
          exact ⟨.refused disk' _ fun o t => hfiles _ _ rfl, hdisk', hstraight' _ hstraight⟩

/-- Where there is room, persisting is refused only if an integer is too long. -/
theorem persist_of_room (c : EvidenceCache) (hl : Path.AreNames (front ++ [n]))
    (h : HasRoom disk front n) (time : Int) :
    (c.persist disk time (some (front ++ [n]).text)).2.2.isSome =
        (c.dirty && !c.toDatum.isShowable) ∧
      HasRoom (c.persist disk time (some (front ++ [n]).text)).2.1 front n := by
  unfold persist
  cases c.dirty with
  | false => exact ⟨rfl, h⟩
  | true =>
    obtain ⟨disk', hmake, -, hroom, es, b, hdir⟩ := h.makeDirectories_eq hl
    obtain ⟨hwrite, hroom'⟩ := hroom.writeText_eq hl hdir time c.text
    dsimp only
    rw [Path.components_text hl, List.dropLast_concat, hmake]
    dsimp only
    by_cases hshow : c.toDatum.isShowable = true
    · rw [if_pos hshow, hwrite, hshow]
      exact ⟨rfl, hroom'⟩
    · rw [if_neg hshow, Bool.eq_false_of_not_eq_true hshow]
      exact ⟨rfl, hroom⟩

/-! ### The refinement -/

/-- Whether an open cache and its file are those of a map. -/
structure Refines (l : Location) (m : Shelf) (o : Opened) : Prop where
  /-- The disk is a directory -/
  isDirectory : o.disk.isDirectory = true
  /-- in which no link is on the way to the file. -/
  straight : o.disk.IsStraight l
  /-- The entries are those of the map, -/
  current : Represents m.map o.cache
  /-- and the file holds the saved copy. -/
  savedAt : IsSavedAt m.saved o.disk l
  /-- **An unchanged cache is the saved copy.** -/
  clean : o.cache.dirty = false → m.map = m.saved
  /-- What was found was counted, -/
  hits : o.cache.hits = m.found
  /-- and so was what was asked for. -/
  asked : o.cache.hits + o.cache.misses = m.asked

variable {m : Shelf} {o : Opened}

/-- A saved map stays saved while its file is the same. -/
theorem IsSavedAt.of_files {disk' : Entry} {l : Location} (h : IsSavedAt saved disk l)
    (hfiles : ∀ o t, disk'.reach? l = some (file o t) ↔ disk.reach? l = some (file o t)) :
    IsSavedAt saved disk' l := by
  rcases h with ⟨hnone, hsaved⟩ | ⟨hcheck, hall, c, t, hfile, hc⟩
  · exact .inl ⟨fun o t hfile => hnone o t ((hfiles o t).mp hfile), hsaved⟩
  · exact .inr ⟨hcheck, hall, c, t, (hfiles _ _).mpr hfile, hc⟩

/-- Whether a step answers what the map answers and leaves a cache and a file that are those of the
map. Where there is room, it is refused just if the map refuses it. -/
def Follows (front : Location) (n : String) (m : Shelf) (o : Opened) (s : Step) : Prop :=
  ∃ refused o', o.step (front ++ [n]).text s = .ok (m.evidence s, refused, o') ∧
    Refines (front ++ [n]) (m.after refused s) o' ∧
    (HasRoom o.disk front n → refused = m.refuses s ∧ HasRoom o'.disk front n)

namespace Refines

/-- Asking finds what the map holds, and counts. -/
theorem get (h : Refines (front ++ [n]) m o) (record : FileRecord) (signature : String) :
    Follows front n m o (.get record signature) := by
  have hfind : (o.cache.find? record signature).map KeptEvidence.evidence =
      m.find? record signature := h.current.find?_eq record signature
  have hsome : (m.find? record signature).isSome = (o.cache.find? record signature).isSome := by
    rw [← hfind, Option.isSome_map]
  refine ⟨false, { o with cache := (o.cache.get record signature).2 }, ?_, ?_, fun h => ⟨rfl, h⟩⟩
  · show Except.ok ((o.cache.get record signature).1.map KeptEvidence.evidence, false, _) =
      Except.ok (m.find? record signature, false, _)
    rw [← hfind, get_eq]
  · rw [get_eq]
    refine ⟨h.isDirectory, h.straight, h.current.of_entries rfl, h.savedAt, h.clean, ?_, ?_⟩
    · simp only [Shelf.after, hsome, h.hits]
    · have hasked := h.asked
      simp only [Shelf.after]
      cases (o.cache.find? record signature).isSome <;> simp <;> omega

/-- A cache that counts as unchanged after pruning was unchanged before, and nothing was removed. -/
theorem prune (h : Refines (front ++ [n]) m o) (keep : List String) :
    Follows front n m o (.prune keep) := by
  refine ⟨false, _, rfl, ⟨h.isDirectory, h.straight, h.current.prune keep, h.savedAt, ?_, h.hits,
    h.asked⟩, fun h => ⟨rfl, h⟩⟩
  intro hdirty
  obtain ⟨hold, hsame⟩ : o.cache.dirty = false ∧
      (o.cache.prune keep).entries.length = o.cache.entries.length := by
    simpa [EvidenceCache.prune] using hdirty
  show (fun path => if path ∈ keep then m.map path else none) = m.saved
  rw [h.current.prune_eq_self hsame, h.clean hold]

/-- An unchanged cache is the saved copy, which was written: so writing it is refused just if it has
changed and holds an integer that is too long. -/
theorem refuses_persist (h : Refines (front ++ [n]) m o) (time : Int) :
    (o.cache.dirty && !o.cache.toDatum.isShowable) = m.refuses (.persist time) := by
  have hwritable : o.cache.dirty = false → AreWritable m.map := by
    intro hdirty
    rw [h.clean hdirty]
    exact h.savedAt.areWritable
  rw [Bool.eq_iff_iff, Shelf.refuses, Bool.and_eq_true, Bool.not_eq_true', Bool.not_eq_true',
    decide_eq_false_iff_not, ← h.current.isShowable_iff, Bool.not_eq_true]
  refine ⟨And.right, fun hshow => ⟨by_contra fun hdirty => ?_, hshow⟩⟩
  have hshown := h.current.isShowable_iff.mpr (hwritable (Bool.eq_false_of_not_eq_true hdirty))
  rw [hshow] at hshown
  cases hshown

/-- Writing makes the map the saved copy, or it is refused and the copy stays. -/
theorem persist (h : Refines (front ++ [n]) m o) (hl : Path.AreNames (front ++ [n])) (time : Int) :
    Follows front n m o (.persist time) := by
  obtain ⟨hcase, hdisk', hstraight'⟩ := persist_cases o.cache h.isDirectory hl h.straight time
  refine ⟨_, _, rfl, ?_, ?_⟩
  · generalize o.cache.persist o.disk time (some (front ++ [n]).text) = r
      at hcase hdisk' hstraight' ⊢
    cases hcase with
    | clean hdirty =>
      refine ⟨hdisk', hstraight', h.current, ?_, fun _ => rfl, h.hits, h.asked⟩
      show IsSavedAt m.map o.disk _
      rw [h.clean hdirty]
      exact h.savedAt
    | written disk' hshow hpath hfile =>
      exact ⟨hdisk', hstraight', h.current.of_entries rfl,
        .inr ⟨hpath, h.current.isShowable_iff.mp hshow, o.cache, time, hfile, h.current⟩,
        fun _ => rfl, h.hits, h.asked⟩
    | refused disk' f hfiles =>
      exact ⟨hdisk', hstraight', h.current, h.savedAt.of_files hfiles, h.clean, h.hits, h.asked⟩
  · intro hroom
    obtain ⟨hrefused, hroom'⟩ := persist_of_room o.cache hl hroom time
    exact ⟨hrefused.trans (h.refuses_persist time), hroom'⟩

/-- Opening the cache again brings back the saved copy. -/
theorem reopen (h : Refines (front ++ [n]) m o) (hl : Path.AreNames (front ++ [n])) :
    Follows front n m o .reopen := by
  obtain ⟨c, hload, hc, -, hfound, hmissed⟩ := h.savedAt.load_eq hl h.straight
  refine ⟨false, { o with cache := c }, ?_, ⟨h.isDirectory, h.straight, hc, h.savedAt, fun _ => rfl,
    hfound, ?_⟩, fun h => ⟨rfl, h⟩⟩
  · unfold Opened.step
    rw [hload]
    rfl
  · show c.hits + c.misses = 0
    rw [hfound, hmissed]

/-- **A step answers what the map answers, and leaves a cache and a file that are those of the
map.** -/
theorem step (h : Refines (front ++ [n]) m o) (hl : Path.AreNames (front ++ [n])) {s : Step}
    (hs : s.IsFit) : Follows front n m o s := by
  cases s with
  | get record signature => exact h.get record signature
  | store s =>
    exact ⟨false, _, rfl, ⟨h.isDirectory, h.straight, h.current.store hs, h.savedAt, nofun, h.hits,
      h.asked⟩, fun h => ⟨rfl, h⟩⟩
  | prune keep => exact h.prune keep
  | clear =>
    exact ⟨false, _, rfl, ⟨h.isDirectory, h.straight, .clear o.cache, h.savedAt, nofun, h.hits,
      h.asked⟩, fun h => ⟨rfl, h⟩⟩
  | persist time => exact h.persist hl time
  | reopen => exact h.reopen hl

end Refines

/-- What is open from the start, where there is no file yet. -/
theorem refines_load {front : Location} {n : String} (hdisk : disk.isDirectory = true)
    (hl : Path.AreNames (front ++ [n])) (hstraight : disk.IsStraight (front ++ [n]))
    (habsent : disk.at? (front ++ [n]) = none) :
    ∃ start, load disk (some (front ++ [n]).text) = .ok start ∧
      Refines (front ++ [n]) .empty ⟨start, disk⟩ := by
  have hsaved : IsSavedAt (fun _ => none) disk (front ++ [n]) := by
    refine .inl ⟨fun o t hfile => ?_, rfl⟩
    rw [at?_of_reach? hfile] at habsent
    cases habsent
  obtain ⟨start, hload, hstart, -, hfound, hmissed⟩ := hsaved.load_eq hl hstraight
  refine ⟨start, hload, hdisk, hstraight, hstart, hsaved, fun _ => rfl, hfound, ?_⟩
  show start.hits + start.misses = 0
  rw [hfound, hmissed]

/-- **Steps one after the other answer what the map answers.** -/
theorem Refines.answers_eq (h : Refines (front ++ [n]) m o) (hl : Path.AreNames (front ++ [n]))
    {steps : List Step} (hsteps : ∀ s ∈ steps, s.IsFit) :
    ∃ refused : List Bool, refused.length = steps.length ∧
      o.answers (front ++ [n]).text steps = .ok (m.run (steps.zip refused)) ∧
      (HasRoom o.disk front n → refused = m.refusals steps) := by
  induction steps generalizing m o with
  | nil => exact ⟨[], rfl, rfl, fun _ => rfl⟩
  | cons s steps ih =>
    obtain ⟨hs, hsteps⟩ := List.forall_mem_cons.mp hsteps
    obtain ⟨r, o', hstep, h', hroom⟩ := h.step hl hs
    obtain ⟨rest, hlength, hrest, hfree⟩ := ih h' hsteps
    refine ⟨r :: rest, congrArg (· + 1) hlength, ?_, ?_⟩
    · have hentries : o'.cache.entries.length = (m.after r s).length := h'.current.length_eq
      rw [Opened.answers, hstep, List.zip_cons_cons, Shelf.run, ← h'.asked, ← hentries]
      show (o'.answers (front ++ [n]).text steps).map _ = _
      rw [hrest, ← h'.hits]
      rfl
    · intro hhas
      obtain ⟨hr, hhas'⟩ := hroom hhas
      rw [hfree hhas', hr, Shelf.refusals]

/-- **A cache with a file answers as the map does**, whatever is asked, stored, removed, written and
opened again. Which writings are refused is given. Where there is room, a writing is refused only if
the map holds an integer that is too long; if none was stored, none is refused, and then opening the
cache right after it was written changes nothing that is told later. -/
theorem answers_eq_run (hdisk : disk.isDirectory = true) (hl : Path.AreNames (front ++ [n]))
    (hstraight : disk.IsStraight (front ++ [n])) (habsent : disk.at? (front ++ [n]) = none)
    {steps : List Step} (hsteps : ∀ s ∈ steps, s.IsFit) :
    ∃ start, load disk (some (front ++ [n]).text) = .ok start ∧
      (∃ refused : List Bool, refused.length = steps.length ∧
        Opened.answers (front ++ [n]).text ⟨start, disk⟩ steps =
          .ok (Shelf.empty.run (steps.zip refused))) ∧
      (HasRoom disk front n →
        Opened.answers (front ++ [n]).text ⟨start, disk⟩ steps =
          .ok (Shelf.empty.run (steps.zip (Shelf.empty.refusals steps)))) ∧
      (HasRoom disk front n → (∀ s ∈ steps, s.IsWritable) →
        Opened.answers (front ++ [n]).text ⟨start, disk⟩ steps =
            .ok (Shelf.empty.run (steps.map fun s => (s, false))) ∧
          ∀ before time after, steps = before ++ .persist time :: .reopen :: after →
            ∃ told others, Opened.answers (front ++ [n]).text ⟨start, disk⟩ steps = .ok told ∧
              Opened.answers (front ++ [n]).text ⟨start, disk⟩ (before ++ .persist time :: after) =
                .ok others ∧
              (told.drop (before.length + 2)).map Answer.told =
                (others.drop (before.length + 1)).map Answer.told) := by
  obtain ⟨start, hload, href⟩ := refines_load hdisk hl hstraight habsent
  have hroomy : HasRoom disk front n → ∀ {steps : List Step}, (∀ s ∈ steps, s.IsFit) →
      Opened.answers (front ++ [n]).text ⟨start, disk⟩ steps =
        .ok (Shelf.empty.run (steps.zip (Shelf.empty.refusals steps))) := by
    intro hhas steps hsteps
    obtain ⟨refused, -, hanswers, hrefused⟩ := href.answers_eq hl hsteps
    rw [hanswers, hrefused hhas]
  have hfree : HasRoom disk front n → ∀ {steps : List Step}, (∀ s ∈ steps, s.IsFit) →
      (∀ s ∈ steps, s.IsWritable) → Opened.answers (front ++ [n]).text ⟨start, disk⟩ steps =
        .ok (Shelf.empty.run (steps.map fun s => (s, false))) := by
    intro hhas steps hsteps hwritable
    have hzip : (steps.map id).zip (steps.map fun _ => false) = steps.map fun s => (s, false) :=
      List.zip_map'
    rw [List.map_id] at hzip
    rw [hroomy hhas hsteps, Shelf.refusals_eq_false (by simp [AreWritable, Shelf.empty])
      (by simp [AreWritable, Shelf.empty]) hwritable, hzip]
  refine ⟨start, hload, ?_, fun hhas => hroomy hhas hsteps,
    fun hhas hwritable => ⟨hfree hhas hsteps hwritable, ?_⟩⟩
  · obtain ⟨refused, hlength, hanswers, -⟩ := href.answers_eq hl hsteps
    exact ⟨refused, hlength, hanswers⟩
  · rintro before time after rfl
    have hsubset : ∀ s ∈ before ++ .persist time :: after,
        s ∈ before ++ .persist time :: .reopen :: after := by
      intro s hs
      simp only [List.mem_append, List.mem_cons] at hs ⊢
      tauto
    refine ⟨_, _, hfree hhas hsteps hwritable,
      hfree hhas (fun s hs => hsteps s (hsubset s hs)) (fun s hs => hwritable s (hsubset s hs)), ?_⟩
    rw [List.map_append, List.map_append, List.map_cons, List.map_cons, List.map_cons]
    have htold := Shelf.empty.told_run_reopen time (before.map fun s => (s, false))
      (after.map fun s => (s, false))
    rw [List.length_map] at htold
    exact htold

/-- Evidence of a file of six octets. -/
def smallStored : Stored where
  record := ⟨"a.py", 6, ".py", .unknown, .ofInt 0, 7⟩
  signature := "rules"
  evidence := ⟨"a.py", some 1, ["os"], [], []⟩

/-- Evidence that is asked for before and after it was stored, written and brought back. -/
def smallSteps : List Step :=
  [.get smallStored.record "rules", .store smallStored, .persist 1, .reopen,
    .get smallStored.record "rules", .get smallStored.record "others"]

/-- The few steps of the example answer with the evidence once it is stored, and after a reload. -/
theorem answers_smallSteps :
    ∃ start, load (.ofEntries [("p", .ofEntries [])]) (some "/p/cache/evidence.json") = .ok start ∧
      (Opened.answers "/p/cache/evidence.json" ⟨start, .ofEntries [("p", .ofEntries [])]⟩
          smallSteps).map (fun answers => answers.map Answer.evidence) =
        .ok [none, none, none, none, some smallStored.evidence, none] := by
  have hl : Path.AreNames (["p", "cache"] ++ ["evidence.json"]) := by
    simp only [Path.areNames_append, Path.areNames_cons, Path.areNames_nil]
    decide
  have hhas : HasRoom (.ofEntries [("p", .ofEntries [])]) ["p", "cache"] "evidence.json" := by
    refine ⟨by decide, ?_, ?_, fun x hx => by cases hx⟩
    · simp only [List.cons_append, List.nil_append, List.forall_mem_cons]
      exact ⟨by decide, by decide, by decide, by simp⟩
    · have hp : (Entry.ofEntries [("p", .ofEntries [])]).IsOpen ["p"] := isOpen_of_reach? rfl
      refine hp.concat (n := "cache") ?_
      intro x hx
      cases hx
  have hsteps : ∀ s ∈ smallSteps, s.IsFit := by
    simp only [smallSteps, List.forall_mem_cons]
    exact ⟨trivial, ⟨rfl, List.forall_mem_nil _⟩, trivial, trivial, trivial, trivial,
      List.forall_mem_nil _⟩
  have hwritable : ∀ s ∈ smallSteps, s.IsWritable := by
    have hmeasured : smallStored.record.IsMeasured :=
      ⟨Json.lt_shownBelow_of_lt_ten (n := 6) (by decide),
        Json.lt_shownBelow_of_lt_ten (n := 7) (by decide)⟩
    have hkeepable : smallStored.evidence.IsKeepable := by
      refine ⟨?_, by simp [smallStored]⟩
      intro n hn
      rw [← Option.some.inj hn]
      exact Json.lt_shownBelow_of_lt_ten (n := 1) (by decide)
    have hstored : smallStored.IsWritable := ⟨hmeasured, hkeepable⟩
    simp only [smallSteps, List.forall_mem_cons]
    exact ⟨trivial, hstored, trivial, trivial, trivial, trivial, by simp⟩
  obtain ⟨start, hload, -, -, hroom⟩ := answers_eq_run rfl hl hhas.isStraight rfl hsteps
  refine ⟨start, hload, ?_⟩
  have hanswers : Opened.answers "/p/cache/evidence.json"
      ⟨start, .ofEntries [("p", .ofEntries [])]⟩ smallSteps = _ := (hroom hhas hwritable).1
  rw [hanswers]
  rfl

/-- A disk with a file in the place of the directory for the cache. -/
def occupiedDisk : Entry := .ofEntries [("p", .ofEntries [("cache", .file [] 0)])]

/-- Evidence of a file whose size is too long to be written. -/
def longStored : Stored :=
  { smallStored with record := { smallStored.record with size := Datum.shownBelow } }

/-- Evidence that is stored, written, brought back and asked for. -/
def keepingSteps (s : Stored) : List Step :=
  [.store s, .persist 1, .reopen, .get s.record s.signature]

/-- What cannot be written is not brought back: neither where a file is in the place of a directory,
nor where an integer is too long. -/
theorem answers_keepingSteps :
    (occupiedDisk.at? ["p", "cache", "evidence.json"] = none ∧
      ∃ start, load occupiedDisk (some "/p/cache/evidence.json") = .ok start ∧
        (Opened.answers "/p/cache/evidence.json" ⟨start, occupiedDisk⟩
          (keepingSteps smallStored)).map
            (fun answers => answers.map Answer.evidence) = .ok [none, none, none, none]) ∧
      ∃ start, load (.ofEntries []) (some "/evidence.json") = .ok start ∧
        (Opened.answers "/evidence.json" ⟨start, .ofEntries []⟩ (keepingSteps longStored)).map
            (fun answers => answers.map Answer.evidence) = .ok [none, none, none, none] := by
  refine ⟨⟨rfl, _, rfl, rfl⟩, ?_⟩
  have hl : Path.AreNames ([] ++ ["evidence.json"]) := by
    simp only [Path.areNames_append, Path.areNames_cons, Path.areNames_nil]
    decide
  have hhas : HasRoom (.ofEntries []) [] "evidence.json" := by
    refine ⟨by decide, ?_, isOpen_of_reach? rfl, fun x hx => by cases hx⟩
    simp only [List.nil_append, List.forall_mem_cons]
    exact ⟨by decide, by simp⟩
  have hfit : longStored.IsFit := ⟨rfl, List.forall_mem_nil _⟩
  have hsteps : ∀ s ∈ keepingSteps longStored, s.IsFit := by
    simp only [keepingSteps, List.forall_mem_cons]
    exact ⟨hfit, trivial, trivial, trivial, List.forall_mem_nil _⟩
  have hlong : ¬ AreWritable (Shelf.empty.after false (.store longStored)).map := by
    intro hall
    exact Nat.lt_irrefl _ (hall "a.py" longStored rfl).measured.size
  have hrefused : Shelf.empty.refusals (keepingSteps longStored) = [false, true, false, false] := by
    have hpersist : (Shelf.empty.after false (.store longStored)).refuses (.persist 1) = true := by
      simp [Shelf.refuses, hlong]
    show [false, (Shelf.empty.after false (.store longStored)).refuses (.persist 1),
      false, false] = _
    rw [hpersist]
  obtain ⟨start, hload, href⟩ := refines_load rfl hl hhas.isStraight rfl
  obtain ⟨refused, -, hanswers, hroom⟩ := href.answers_eq hl hsteps
  refine ⟨start, hload, ?_⟩
  have htold :
      Opened.answers "/evidence.json" ⟨start, .ofEntries []⟩ (keepingSteps longStored) = _ :=
    hanswers
  rw [htold, hroom hhas, hrefused]
  rfl

end ProjectSurvey.EvidenceCache
