import ProjectSurvey.Proofs.Survey.Configured

/-!
# What a survey gathers for one file

A survey gathers evidence file by file, and each visit may leave something in the cache that the
next one finds. **Where no path comes twice, the visits do not meddle with each other**
(`Gathering.fst_visitAll`): what is gathered for a file is what a visit makes of the cache that the
survey started with. So it is what is there now, unless that cache has something current and yet
other for the file (`Gathering.visit_of_isHonest`).
-/

namespace ProjectSurvey

namespace Gathering

variable {g : Gathering}

/-! ### One visit and another -/

/-- Storing for one path leaves what is found for others. -/
theorem find?_store_of_ne {c : EvidenceCache} {r r' : FileRecord} (hne : r'.path ≠ r.path)
    (signature signature' : String) (e : Evidence) :
    (c.store r' signature' e).find? r signature = c.find? r signature := by
  unfold EvidenceCache.find? EvidenceCache.store
  dsimp only
  rw [Assoc.get?_insert, if_neg hne]

/-- Visiting a file leaves the entries of the others as they are. -/
theorem find?_visit_of_ne {c : EvidenceCache} {r r' : FileRecord} (hne : r'.path ≠ r.path)
    (signature : String) :
    ∃ c', (g.visit (some c) r').2 = some c' ∧ c'.find? r signature = c.find? r signature := by
  unfold visit EvidenceCache.get
  dsimp only
  cases c.find? r' g.signature with
  | some k => exact ⟨_, rfl, rfl⟩
  | none =>
    refine ⟨_, rfl, ?_⟩
    rw [find?_store_of_ne hne]
    rfl

/-- A visit goes by the entry of the file, if there is a cache. -/
theorem fst_visit_some (c : EvidenceCache) (r : FileRecord) :
    (g.visit (some c) r).1 =
      ((c.find? r g.signature).map KeptEvidence.evidence).getD (g.fresh r) := by
  unfold visit EvidenceCache.get
  dsimp only
  cases c.find? r g.signature <;> rfl

/-- It makes no difference to a visit whether another file was visited before. -/
theorem visit_visit_of_ne (cache : Option EvidenceCache) {r r' : FileRecord}
    (hne : r'.path ≠ r.path) : (g.visit (g.visit cache r').2 r).1 = (g.visit cache r).1 := by
  cases cache with
  | none => rfl
  | some c =>
    obtain ⟨c', hvisit, hfind⟩ := find?_visit_of_ne (g := g) (c := c) hne g.signature
    rw [hvisit, fst_visit_some, fst_visit_some, hfind]

/-- **The visits do not meddle with each other.** -/
theorem fst_visitAll {records : List FileRecord} (hnodup : (records.map FileRecord.path).Nodup)
    (cache : Option EvidenceCache) :
    (g.visitAll cache records).1 = records.map fun r => (r.path, (g.visit cache r).1) := by
  induction records generalizing cache with
  | nil => rfl
  | cons r rest ih =>
    rw [List.map_cons, List.nodup_cons] at hnodup
    obtain ⟨hnew, hnodup⟩ := hnodup
    rw [visitAll, List.map_cons]
    dsimp only
    rw [ih hnodup]
    refine congrArg (List.cons _) (List.map_congr_left ?_)
    intro r' hr'
    rw [visit_visit_of_ne]
    exact fun heq => hnew (heq ▸ List.mem_map_of_mem hr')

/-- What is gathered for the files of a project. -/
theorem fst_gather {records : List FileRecord} (hnodup : (records.map FileRecord.path).Nodup)
    (cache : Option EvidenceCache) :
    (g.gather cache records).1 =
      (records.filter fun r => g.tables.isCountable r.language).map fun r =>
        (r.path, (g.visit cache r).1) :=
  fst_visitAll (hnodup.sublist (List.filter_sublist.map _)) cache

/-- **What is gathered for a source file is what a visit makes of it.** -/
theorem get?_gather {records : List FileRecord} (hnodup : (records.map FileRecord.path).Nodup)
    {r : FileRecord} (hr : r ∈ records) (hsource : g.tables.isCountable r.language = true)
    (cache : Option EvidenceCache) :
    Assoc.get? r.path (g.gather cache records).1 = some (g.visit cache r).1 := by
  have hkeys : (Assoc.keys (g.gather cache records).1).Nodup := by
    rw [fst_gather hnodup, Assoc.keys, List.map_map]
    exact hnodup.sublist (List.filter_sublist.map _)
  rw [Assoc.get?_eq_some_iff hkeys, fst_gather hnodup]
  exact List.mem_map.mpr ⟨r, List.mem_filter.mpr ⟨hr, hsource⟩, rfl⟩

/-! ### What is in the cache already -/

/-- Where something is found for every file, visiting them leaves the entries as they are. -/
theorem visitAll_of_found {records : List FileRecord} {c : EvidenceCache}
    (h : ∀ r ∈ records, (c.find? r g.signature).isSome) :
    ∃ c', (g.visitAll (some c) records).2 = some c' ∧ c'.entries = c.entries := by
  induction records generalizing c with
  | nil => exact ⟨c, rfl, rfl⟩
  | cons r rest ih =>
    obtain ⟨hr, hrest⟩ := List.forall_mem_cons.mp h
    obtain ⟨k, hk⟩ := Option.isSome_iff_exists.mp hr
    -- finding something for the first file only counts the question
    obtain ⟨c₁, hvisit, hentries⟩ :
        ∃ c₁, (g.visit (some c) r).2 = some c₁ ∧ c₁.entries = c.entries := by
      unfold visit EvidenceCache.get
      dsimp only
      rw [hk]
      exact ⟨_, rfl, rfl⟩
    have hfind : ∀ r', c₁.find? r' g.signature = c.find? r' g.signature := by
      intro r'
      unfold EvidenceCache.find?
      rw [hentries]
    obtain ⟨c', hall, hentries'⟩ := ih (c := c₁) fun r' hr' => (hfind r').symm ▸ hrest r' hr'
    refine ⟨c', ?_, hentries'.trans hentries⟩
    rw [visitAll]
    dsimp only
    rw [hvisit]
    exact hall

/-- Where something is found for every source file, gathering does no more than prune the cache. -/
theorem gather_of_found {records : List FileRecord} {c : EvidenceCache}
    (h : ∀ r ∈ records, g.tables.isCountable r.language = true →
      (c.find? r g.signature).isSome) :
    ∃ (c' : EvidenceCache) (keep : List String),
      (g.gather (some c) records).2 = some (c'.prune keep) ∧ c'.entries = c.entries := by
  have hsources : ∀ r ∈ records.filter fun r => g.tables.isCountable r.language,
      (c.find? r g.signature).isSome := by
    intro r hr
    obtain ⟨hr, hsource⟩ := List.mem_filter.mp hr
    exact h r hr hsource
  obtain ⟨c', hall, hentries⟩ := visitAll_of_found hsources
  refine ⟨c', (g.gather (some c) records).1.map Prod.fst, ?_, hentries⟩
  unfold gather
  dsimp only
  rw [hall]
  rfl

/-! ### An honest cache -/

/-- Whether the cache has nothing for a file that is current and other than what is there now. -/
def IsHonest (g : Gathering) (r : FileRecord) (cache : Option EvidenceCache) : Prop :=
  ∀ c k, cache = some c → c.find? r g.signature = some k → k.evidence = g.fresh r

/-- Where there is no cache there is nothing dishonest. -/
theorem isHonest_none (g : Gathering) (r : FileRecord) : g.IsHonest r none := nofun

/-- **What is gathered for a file of which the cache is honest is what is there now.** -/
theorem visit_of_isHonest {r : FileRecord} {cache : Option EvidenceCache}
    (hcache : g.IsHonest r cache) : (g.visit cache r).1 = g.fresh r := by
  cases cache with
  | none => rfl
  | some c =>
    rw [fst_visit_some]
    cases hfind : c.find? r g.signature with
    | none => rfl
    | some k => exact hcache c k rfl hfind

end Gathering

/-! ### The first part of a survey -/

namespace Surveyor

/-- The walk of a project and what is gathered for its files. -/
def gathered (s : Surveyor) (root : Location) (o : Options) :
    Work (Scan × Assoc String Evidence) := do
  let scan ← s.scan root o
  let found ← s.evidence (s.rulesFor o) scan o
  return (scan, found)

variable {s : Surveyor} {w : Workspace} {root : Location} {o : Options} {sc : Scan}
  {found : Assoc String Evidence}

/-- A scan that succeeds is a walk with settings. -/
theorem scanOf_eq_ok {disk : Entry} (h : s.scanOf disk root o = .ok sc) :
    ∃ st, walkSettings o = .ok st ∧ Walk.scan s.tables st disk root = .ok sc := by
  unfold scanOf at h
  cases hst : walkSettings o with
  | error f =>
    rw [hst] at h
    cases h
  | ok st =>
    rw [hst] at h
    exact ⟨st, rfl, h⟩

/-- A walk and its evidence come to what the parts come to. -/
theorem gathered_eq_ok_iff : ((s.gathered root o).run w).1 = .ok (sc, found) ↔
    s.scanOf w.disk root o = .ok sc ∧ (s.evidenceOf w.disk w.time o sc).1 = .ok found := by
  obtain ⟨w', hscan, hw'⟩ := scan_yields s root o w
  unfold gathered
  rw [Work.run_bind, hscan]
  cases hsc : s.scanOf w.disk root o with
  | error f => simp
  | ok sc' =>
    obtain ⟨w'', hevidence, -⟩ := evidence_yields s o sc' w'
    rw [hw'.disk, hw'.time] at hevidence
    dsimp only
    rw [Work.run_bind, hevidence]
    have hpure : ∀ found' w, ((pure (sc', found') : Work (Scan × Assoc String Evidence)).run w).1 =
        .ok (sc', found') := fun _ _ => rfl
    cases hfound : (s.evidenceOf w.disk w.time o sc').1 with
    | error f =>
      constructor
      · nofun
      · rintro ⟨heq, hfound'⟩
        cases heq
        cases hfound.symm.trans hfound'
    | ok found' =>
      dsimp only
      rw [hpure]
      constructor
      · intro h
        cases h
        exact ⟨rfl, hfound⟩
      · rintro ⟨heq, hfound'⟩
        cases heq
        cases hfound.symm.trans hfound'
        rfl

variable (sc) in
/-- What the evidence of a survey comes to with a cache that can be shown after it. -/
theorem fst_evidenceOf_of_isShowable {disk : Entry} {c c' : EvidenceCache} {l : Location}
    (hcache : cacheOf disk sc.root o = .ok (some c)) (hsigned : (s.signatureOf? o).isSome)
    (hgather : ((s.gatheringOf disk sc.root o).gather (some c) sc.files).2 = some c')
    (hshow : c'.toDatum.isShowable = true) (hpath : cachePath sc.root o = l.text)
    (hl : Path.AreNames l) (time : Int) :
    (s.evidenceOf disk time o sc).1 =
      withNamedRules ((s.gatheringOf disk sc.root o).gather (some c) sc.files).1 := by
  obtain ⟨signature, hsignature⟩ := Option.isSome_iff_exists.mp hsigned
  unfold evidenceOf
  rw [hcache, hsignature, hpath]
  dsimp only
  generalize (s.gatheringOf disk sc.root o).gather (some c) sc.files = gathered at hgather
  obtain ⟨found, kept⟩ := gathered
  cases hgather
  exact fst_written_some hshow hl disk time found

/-- What is gathered with a cache names its rules, if what the cache finds does. -/
theorem withNamedRules_gather {g : Gathering} {records : List FileRecord}
    (hnodup : (records.map FileRecord.path).Nodup) {c : EvidenceCache}
    (hfound : ∀ r ∈ records, ∀ k, c.find? r g.signature = some k →
      ∀ f ∈ k.evidence.findings, f.ruleId.isContainer = false) :
    withNamedRules (g.gather (some c) records).1 = .ok (g.gather (some c) records).1 := by
  refine withNamedRules_eq_ok ?_
  intro p hp f hf
  rw [Gathering.fst_gather hnodup] at hp
  obtain ⟨r, hr, rfl⟩ := List.mem_map.mp hp
  dsimp only at hf
  rw [Gathering.fst_visit_some] at hf
  cases hk : c.find? r g.signature with
  | none =>
    rw [hk] at hf
    exact isContainer_of_mem_fresh hf
  | some k =>
    rw [hk] at hf
    exact hfound r (List.mem_filter.mp hr).1 k hk f hf

/-- Evidence that comes of a survey was gathered. -/
theorem evidenceOf_eq_ok {disk : Entry} {time : Int}
    (h : (s.evidenceOf disk time o sc).1 = .ok found) :
    ∃ cache, cacheOf disk sc.root o = .ok cache ∧
      found = ((s.gatheringOf disk sc.root o).gather cache sc.files).1 := by
  unfold evidenceOf at h
  cases hcache : cacheOf disk sc.root o with
  | error f =>
    rw [hcache] at h
    cases h
  | ok cache =>
    rw [hcache] at h
    refine ⟨cache, rfl, ?_⟩
    dsimp only at h
    split at h
    · cases h
    · exact fst_written_eq_ok h

end Surveyor

end ProjectSurvey
