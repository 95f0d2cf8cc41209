import ProjectSurvey.Survey.Conduct

/-!
# What a survey comes to

Conducting a survey is an operation in a workspace, but what comes out of it depends on the disk
only. `Work.Yields` says what an operation comes to, whatever was said and printed on the way. **A
survey comes to its preparation and what is made of the evidence** (`Surveyor.conduct_yields`); with
the cache, the disk afterwards is the one with the cache written, and the ignore file is read there.
The way there is gone once (`Surveyor.conduct_yields_outcomeFrom`), with options that were given or
follow from the configuration.
-/

namespace ProjectSurvey

/-! ### Operations -/

/-- Whether a workspace is another one with a disk of its own, whatever was said and printed. -/
structure Workspace.IsWith (w : Workspace) (disk : Entry) (w' : Workspace) : Prop where
  /-- It has the disk. -/
  disk : w'.disk = disk
  /-- It is in the same directory. -/
  directory : w'.directory = w.directory
  /-- The users live where they lived. -/
  homes : w'.homes = w.homes
  /-- Files are written at the same time. -/
  time : w'.time = w.time

/-- Two pieces of work, one after the other, leave what the second leaves. -/
theorem Workspace.IsWith.trans {w w' w'' : Workspace} {disk disk' : Entry} (h : w.IsWith disk w')
    (h' : w'.IsWith disk' w'') : w.IsWith disk' w'' :=
  ⟨h'.disk, h'.directory.trans h.directory, h'.homes.trans h.homes, h'.time.trans h.time⟩

/-- Work that keeps the disk leaves what was left before it. -/
theorem Workspace.IsWith.keep {w w' w'' : Workspace} {disk : Entry} (h : w.IsWith disk w')
    (h' : w'.IsWith w'.disk w'') : w.IsWith disk w'' := h.disk ▸ h.trans h'

namespace Work

/-- Whether an operation comes to a result and a disk. -/
def Yields {α : Type} (x : Work α) (w : Workspace) (r : Except Failure α) (disk : Entry) : Prop :=
  ∃ w', x.run w = (r, w') ∧ w.IsWith disk w'

section

variable {α β : Type} {w : Workspace} {disk disk' : Entry}

/-- The disk after the work is the one it yields, -/
theorem Yields.disk_eq {x : Work α} {r : Except Failure α} (h : Yields x w r disk) :
    (x.run w).2.disk = disk := by
  obtain ⟨w', hrun, hw'⟩ := h
  rw [hrun]
  exact hw'.disk

/-- and the result is the one it yields. -/
theorem Yields.result_eq {x : Work α} {r : Except Failure α} (h : Yields x w r disk) :
    (x.run w).1 = r := by
  obtain ⟨w', hrun, -⟩ := h
  rw [hrun]

/-- Giving a value keeps the disk. -/
theorem yields_pure (a : α) (w : Workspace) : Yields (pure a) w (.ok a) w.disk :=
  ⟨w, rfl, rfl, rfl, rfl, rfl⟩

/-- Failing keeps it too. -/
theorem yields_throw (f : Failure) (w : Workspace) :
    Yields (throw f : Work α) w (.error f) w.disk :=
  ⟨w, rfl, rfl, rfl, rfl, rfl⟩

/-- So does passing a result on, -/
theorem yields_ofExcept (r : Except Failure α) (w : Workspace) :
    Yields (ofExcept r) w r w.disk := by
  cases r with
  | ok a => exact yields_pure a w
  | error f => exact yields_throw f w

/-- and so does saying something. -/
theorem yields_say (n : Notice) (w : Workspace) : Yields (say n) w (.ok ()) w.disk :=
  ⟨{ w with notices := w.notices ++ [n] }, rfl, rfl, rfl, rfl, rfl⟩

/-- Modifying the disk is what it says. -/
theorem yields_modify (disk : Entry) (w : Workspace) :
    Yields (modify fun w => { w with disk }) w (.ok ()) disk :=
  ⟨{ w with disk }, rfl, rfl, rfl, rfl, rfl⟩

/-- Asking for the workspace gives it. -/
theorem run_get (w : Workspace) : (get : Work Workspace).run w = (.ok w, w) := rfl

/-- One piece of work behind another runs on what the first left, unless the first failed. -/
theorem run_bind (x : Work α) (f : α → Work β) (w : Workspace) :
    (x >>= f).run w =
      match x.run w with
      | (.ok a, w') => (f a).run w'
      | (.error e, w') => (.error e, w') := by
  show (StateT.bind x.run (ExceptT.bindCont f)) w = _
  unfold StateT.bind
  cases h : x.run w with
  | mk r w' =>
    cases r <;> rfl

/-- A change goes as far as it is not refused. -/
theorem change_run (c : Entry → Entry.Change) (w : Workspace) :
    (Work.change c).run w = (match (c w.disk).2 with
      | none => .ok ()
      | some (f, path) => .error (.refused f path), { w with disk := (c w.disk).1 }) := by
  have hdone : ∀ p : Entry.Change, (Work.change fun _ => p).run w = (match p.2 with
      | none => .ok ()
      | some (f, path) => .error (.refused f path), { w with disk := p.1 }) := by
    rintro ⟨disk, refused⟩
    cases refused <;> rfl
  exact hdone (c w.disk)

/-- An operation goes on after another one. -/
theorem Yields.bind {x : Work α} {f : α → Work β} {a : α} {r : Except Failure β}
    (hx : Yields x w (.ok a) disk) (hf : ∀ w', w.IsWith disk w' → Yields (f a) w' r disk') :
    Yields (x >>= f) w r disk' := by
  obtain ⟨w', hrun, hw'⟩ := hx
  obtain ⟨w'', hrun', hw''⟩ := hf w' hw'
  refine ⟨w'', ?_, hw'.trans hw''⟩
  rw [run_bind, hrun]
  exact hrun'

/-- An operation does not go on after a failure. -/
theorem Yields.bind_error {x : Work α} {f : α → Work β} {e : Failure}
    (hx : Yields x w (.error e) disk) : Yields (x >>= f) w (.error e) disk := by
  obtain ⟨w', hrun, hw'⟩ := hx
  refine ⟨w', ?_, hw'⟩
  rw [run_bind, hrun]

/-- An operation that looks at the workspace. -/
theorem yields_get_bind {f : Workspace → Work β} {r : Except Failure β}
    (h : Yields (f w) w r disk) : Yields (get >>= f) w r disk := by
  obtain ⟨w', hrun, hw'⟩ := h
  refine ⟨w', ?_, hw'⟩
  rw [run_bind]
  exact hrun

/-- An operation for every item, each of which leaves the disk as it is. -/
theorem yields_forIn {l : List α} {f : α → PUnit → Work (ForInStep PUnit)}
    (hf : ∀ a ∈ l, ∀ w, Yields (f a ⟨⟩) w (.ok (.yield ⟨⟩)) w.disk) (w : Workspace) :
    Yields (forIn l ⟨⟩ f) w (.ok ⟨⟩) w.disk := by
  induction l generalizing w with
  | nil => exact yields_pure _ w
  | cons a l ih =>
    obtain ⟨ha, hl⟩ := List.forall_mem_cons.mp hf
    rw [List.forIn_cons]
    refine (ha w).bind ?_
    intro w' hw'
    rw [← hw'.disk]
    exact ih hl w'

end

end Work

namespace Surveyor

open Work

/-! ### Options -/

/-- The configuration of a project that is in force. -/
def configurationOf (disk : Entry) (root : Location) : Except Failure Configuration :=
  match Configuration.load disk root.text with
  | .ok c => .ok c
  | .error (.configuration name cause) =>
    match Failure.configurationText name cause with
    | some _ => .ok Configuration.empty
    | none => .error (.configuration name cause)
  | .error f => .error f

/-- The options that follow from the configuration of a project and some wishes. -/
def optionsOf (disk : Entry) (root : Location) (wishes : Overrides) : Except Failure Options := do
  let c ← configurationOf disk root
  match (Options.ofConfiguration c).1.override? wishes with
  | some o => .ok o
  | none => .error (.invalid Failure.depthText)

/-- Reading the configuration keeps the disk. -/
theorem configuration_yields (root : Location) (w : Workspace) :
    Yields (configuration root) w (configurationOf w.disk root) w.disk := by
  unfold configuration configurationOf
  apply yields_get_bind
  cases Configuration.load w.disk root.text with
  | ok c => exact yields_pure c w
  | error f =>
    cases f with
    | configuration name cause =>
      dsimp only
      cases Failure.configurationText name cause with
      | none => exact yields_throw _ w
      | some reason =>
        refine (yields_say _ w).bind ?_
        intro w' hw'
        rw [← hw'.disk]
        exact yields_pure _ w'
    | _ => exact yields_throw _ w

/-- Reading the options keeps it. -/
theorem options_yields (root : Location) (wishes : Overrides) (w : Workspace) :
    Yields (options root none wishes) w (optionsOf w.disk root wishes) w.disk := by
  unfold options optionsOf
  dsimp only
  have hconfiguration := configuration_yields root w
  cases hc : configurationOf w.disk root with
  | error f =>
    rw [hc] at hconfiguration
    exact hconfiguration.bind_error
  | ok c =>
    rw [hc] at hconfiguration
    refine hconfiguration.bind ?_
    intro w' hw'
    refine (yields_forIn ?_ w').bind ?_
    · intro s _ w''
      refine (yields_say _ w'').bind ?_
      intro w₃ hw₃
      rw [← hw₃.disk]
      exact yields_pure _ w₃
    · intro w'' hw''
      show Yields
        (match (Options.ofConfiguration c).1.override? wishes with
          | some o => pure o
          | none => throw (Failure.invalid Failure.depthText)) w''
        (match (Options.ofConfiguration c).1.override? wishes with
          | some o => .ok o
          | none => .error (.invalid Failure.depthText)) w.disk
      rw [← hw'.disk, ← hw''.disk]
      cases (Options.ofConfiguration c).1.override? wishes with
      | some o => exact yields_pure o w''
      | none => exact yields_throw _ w''

/-- The options depend on the disk only. -/
theorem options_yields_of_disk_eq (root : Location) (given : Option Options) (wishes : Overrides)
    {w w' : Workspace} (h : w'.disk = w.disk) :
    Yields (options root given wishes) w' ((options root given wishes).run w).1 w'.disk := by
  cases given with
  | none =>
    rw [(options_yields root wishes w).result_eq, ← h]
    exact options_yields root wishes w'
  | some g =>
    unfold options
    dsimp only
    rw [pure_bind]
    cases g.override? wishes with
    | some o => exact yields_pure o w'
    | none => exact yields_throw _ w'

/-- The walk of a project under some options. -/
def scanOf (s : Surveyor) (disk : Entry) (root : Location) (o : Options) : Except Failure Scan := do
  let settings ← walkSettings o
  Walk.scan s.tables settings disk root

/-- Scanning keeps it. -/
theorem scan_yields (s : Surveyor) (root : Location) (o : Options) (w : Workspace) :
    Yields (s.scan root o) w (s.scanOf w.disk root o) w.disk := by
  unfold scan scanOf
  cases hsettings : walkSettings o with
  | error f => exact (yields_throw f w).bind_error
  | ok settings =>
    refine (yields_pure settings w).bind ?_
    intro w' hw'
    apply yields_get_bind
    rw [← hw'.disk]
    show Yields _ w' (Walk.scan s.tables settings w'.disk root) w'.disk
    cases hscan : Walk.scan s.tables settings w'.disk root with
    | error f =>
      exact (yields_throw f w').bind_error
    | ok scan =>
      refine (yields_pure scan w').bind ?_
      intro w'' hw''
      refine (yields_forIn ?_ w'').bind ?_
      · intro path _ w₃
        refine (yields_say _ w₃).bind ?_
        intro w₄ hw₄
        rw [← hw₄.disk]
        exact yields_pure _ w₄
      · intro w₃ hw₃
        rw [← hw''.disk, ← hw₃.disk]
        exact yields_pure scan w₃

/-- The manifests of a project. -/
def manifestsOf (disk : Entry) (root : Location) (rootFiles : List String) : Manifests :=
  (Manifest.foundAmong disk root.text rootFiles).map fun (name, f) => (name, f.manifest)

/-- Reading the manifests keeps it. -/
theorem manifests_yields (root : Location) (rootFiles : List String) (w : Workspace) :
    Yields (manifests root rootFiles) w (.ok (manifestsOf w.disk root rootFiles)) w.disk := by
  unfold manifests
  apply yields_get_bind
  refine (yields_forIn ?_ w).bind ?_
  · rintro ⟨name, f⟩ _ w'
    dsimp only
    cases f.unread with
    | none => exact yields_pure _ w'
    | some reason =>
      refine (yields_say _ w').bind ?_
      intro w'' hw''
      rw [← hw''.disk]
      exact yields_pure _ w''
  · intro w' hw'
    rw [← hw'.disk]
    exact yields_pure _ w'

/-! ### Evidence -/

/-- What the rules under some options and the way of collecting are signed with, if that can be
shown. -/
def signatureOf? (s : Surveyor) (o : Options) : Option String :=
  Gathering.signatureOf? (s.rulesFor o) o.oversizedLines

/-- How evidence is gathered under some options. Nothing is gathered without a signature. -/
def gatheringOf (s : Surveyor) (disk : Entry) (root : Location) (o : Options) : Gathering where
  tables := s.tables
  rules := s.rulesFor o
  signature := (s.signatureOf? o).getD ""
  read := fun path => disk.readWithin o.maxFileSize (Path.join root.text path)

/-- The cache that a survey starts with, if it uses one. -/
def cacheOf (disk : Entry) (root : Location) (o : Options) :
    Except Failure (Option EvidenceCache) :=
  if o.cache then (EvidenceCache.load disk (some (cachePath root o))).map some else .ok none

/-- What was gathered, unless keeping it failed and not by a refusal of the system. -/
def kept (found : List (String × Evidence)) :
    Option Failure → Except Failure (Assoc String Evidence)
  | none => withNamedRules found
  | some f => if f.refusal?.isSome then withNamedRules found else .error f

/-- What was gathered and the disk to which the cache was written, if there is one. -/
def written (disk : Entry) (time : Int) (path : String) :
    List (String × Evidence) × Option EvidenceCache →
      Except Failure (Assoc String Evidence) × Entry
  | (found, none) => (withNamedRules found, disk)
  | (found, some c) =>
    match c.persist disk time (some path) with
    | (_, disk', failed) => (kept found failed, disk')

/-- The evidence of a project and the disk afterwards. -/
def evidenceOf (s : Surveyor) (disk : Entry) (time : Int) (o : Options) (scan : Scan) :
    Except Failure (Assoc String Evidence) × Entry :=
  match cacheOf disk scan.root o with
  | .error f => (.error f, disk)
  | .ok cache =>
    match s.signatureOf? o with
    | none => (.error (.invalid Failure.unshowableText), disk)
    | some _ =>
      written disk time (cachePath scan.root o)
        ((s.gatheringOf disk scan.root o).gather cache scan.files)

/-- Keeping what was gathered comes to what was gathered and the disk with the cache. -/
theorem written_yields (gathered : List (String × Evidence) × Option EvidenceCache) (path : String)
    (w : Workspace) :
    Yields (match gathered.2 with
      | none => Work.ofExcept (withNamedRules gathered.1)
      | some c => do
        let (_, disk, failed) := c.persist w.disk (← get).time (some path)
        modify fun w => { w with disk }
        match failed with
        | none => Work.ofExcept (withNamedRules gathered.1)
        | some f =>
          match f.refusal? with
          | some (cause, path) => do
            Work.say (.cacheUnwritten (Failure.refusalText cause path))
            Work.ofExcept (withNamedRules gathered.1)
          | none => do
            throw f
            Work.ofExcept (withNamedRules gathered.1)) w
      (written w.disk w.time path gathered).1 (written w.disk w.time path gathered).2 := by
  obtain ⟨found, cache⟩ := gathered
  cases cache with
  | none => exact yields_ofExcept (withNamedRules found) w
  | some c =>
    dsimp only
    apply yields_get_bind
    unfold written
    dsimp only
    obtain ⟨c', disk, failed⟩ := c.persist w.disk w.time (some path)
    refine (yields_modify disk w).bind ?_
    intro w' hw'
    dsimp only
    rw [← hw'.disk]
    cases failed with
    | none => exact yields_ofExcept (withNamedRules found) w'
    | some f =>
      unfold kept
      dsimp only
      cases f.refusal? with
      | none => exact (yields_throw f w').bind_error
      | some p =>
        refine (yields_say _ w').bind ?_
        intro w'' hw''
        rw [← hw''.disk]
        exact yields_ofExcept (withNamedRules found) w''

/-- Gathering evidence comes to what is gathered and the disk with the cache. -/
theorem evidence_yields (s : Surveyor) (o : Options) (scan : Scan) (w : Workspace) :
    Yields (s.evidence (s.rulesFor o) scan o) w (s.evidenceOf w.disk w.time o scan).1
      (s.evidenceOf w.disk w.time o scan).2 := by
  have hsigned : ∀ signature, s.signatureOf? o = some signature →
      s.gatheringOf w.disk scan.root o =
        { tables := s.tables, rules := s.rulesFor o, signature
          read := fun path =>
            w.disk.readWithin o.maxFileSize (Path.join scan.root.text path) } := by
    intro signature h
    unfold gatheringOf
    rw [h]
    rfl
  unfold evidence evidenceOf cacheOf
  apply yields_get_bind
  rw [show Gathering.signatureOf? (s.rulesFor o) o.oversizedLines = s.signatureOf? o from rfl]
  generalize s.signatureOf? o = signature at hsigned ⊢
  cases o.cache with
  | false =>
    cases signature with
    | none => exact yields_throw _ w
    | some signature =>
      rw [hsigned signature rfl]
      exact written_yields (Gathering.gather _ none scan.files) _ w
  | true =>
    rw [if_pos rfl]
    dsimp only
    rw [if_pos rfl]
    cases EvidenceCache.load w.disk (some (cachePath scan.root o)) with
    | error f => exact (yields_throw f w).bind_error
    | ok c =>
      refine (yields_pure c w).bind ?_
      intro w' hw'
      cases signature with
      | none => exact hw'.disk ▸ yields_throw _ w'
      | some signature =>
        rw [hsigned signature rfl, ← hw'.disk, ← hw'.time]
        exact written_yields (Gathering.gather _ (some c) scan.files) _ w'

/-! ### Conducting -/

/-- What a survey starts from: its options, what the walk found, and the manifests. -/
def preparation (s : Surveyor) (disk : Entry) (root : Location) (wishes : Overrides) :
    Except Failure (Options × Scan × Manifests) :=
  match Walk.checkRoot disk root root.text with
  | .error f => .error f
  | .ok () =>
    match optionsOf disk root wishes with
    | .error f => .error f
    | .ok o =>
      match s.scanOf disk root o with
      | .error f => .error f
      | .ok scan => .ok (o, scan, manifestsOf disk root scan.rootFiles)

/-- The survey that is made of a preparation and the evidence. -/
def conclusion (s : Surveyor) (disk : Entry) (root : Location) (o : Options) (scan : Scan)
    (manifests : Manifests) (evidence : Assoc String Evidence) : Survey :=
  Survey.assemble
    { tables := s.tables, rules := s.rulesFor o, scan, manifests, evidence
      ignoreText := disk.readWithin o.maxFileSize (Path.join root.text Walk.ignoreFile)
      moment := s.moment }

/-- What a survey comes to, and the disk afterwards. -/
def outcome (s : Surveyor) (disk : Entry) (time : Int) (root : Location) (wishes : Overrides) :
    Except Failure Survey × Entry :=
  match s.preparation disk root wishes with
  | .error f => (.error f, disk)
  | .ok (o, scan, manifests) =>
    match s.evidenceOf disk time o scan with
    | (found, disk) => (found.map (s.conclusion disk root o scan manifests), disk)

/-- What a survey comes to, and the disk afterwards, given what became of its options. -/
def outcomeFrom (s : Surveyor) (disk : Entry) (time : Int) (root : Location)
    (options : Except Failure Options) : Except Failure Survey × Entry :=
  match Walk.checkRoot disk root root.text with
  | .error f => (.error f, disk)
  | .ok () =>
    match options with
    | .error f => (.error f, disk)
    | .ok o =>
      match s.scanOf disk root o with
      | .error f => (.error f, disk)
      | .ok scan =>
        match s.evidenceOf disk time o scan with
        | (found, disk') =>
          (found.map (s.conclusion disk' root o scan (manifestsOf disk root scan.rootFiles)), disk')

/-- The outcome of a run goes by its options. -/
theorem outcome_eq_outcomeFrom (s : Surveyor) (disk : Entry) (time : Int) (root : Location)
    (wishes : Overrides) :
    s.outcome disk time root wishes =
      s.outcomeFrom disk time root (optionsOf disk root wishes) := by
  unfold outcome preparation outcomeFrom
  cases Walk.checkRoot disk root root.text with
  | error f => rfl
  | ok u =>
    cases optionsOf disk root wishes with
    | error f => rfl
    | ok o =>
      dsimp only
      cases s.scanOf disk root o <;> rfl

/-- A survey that comes to an end went through the check of its root, its options, the walk and the
evidence. -/
theorem outcomeFrom_eq_ok_iff {s : Surveyor} {disk disk' : Entry} {time : Int} {root : Location}
    {options : Except Failure Options} {survey : Survey} :
    s.outcomeFrom disk time root options = (.ok survey, disk') ↔
      Walk.checkRoot disk root root.text = .ok () ∧ ∃ o sc found, options = .ok o ∧
        s.scanOf disk root o = .ok sc ∧ s.evidenceOf disk time o sc = (.ok found, disk') ∧
        survey = s.conclusion disk' root o sc (manifestsOf disk root sc.rootFiles) found := by
  unfold outcomeFrom
  cases Walk.checkRoot disk root root.text with
  | error f => simp
  | ok u =>
    cases options with
    | error f => simp
    | ok o =>
      dsimp only
      cases hsc : s.scanOf disk root o with
      | error f => simp [hsc]
      | ok sc =>
        dsimp only
        rcases hfound : s.evidenceOf disk time o sc with ⟨found, disk''⟩
        cases found with
        | error f => simp [hsc, hfound, Except.map]
        | ok found =>
          constructor
          · intro h
            cases h
            exact ⟨rfl, o, sc, found, rfl, hsc, hfound, rfl⟩
          · rintro ⟨-, o', sc', found', ho, hsc', hfound', rfl⟩
            cases ho
            cases hsc.symm.trans hsc'
            cases hfound.symm.trans hfound'
            rfl

/-- **A survey goes through its steps**, wherever its options come from. -/
theorem conduct_yields_outcomeFrom {w : Workspace} {root : Location} {path : String}
    (hroot : Yields (Work.locateProject path) w (.ok root) w.disk) (s : Surveyor)
    (given : Option Options) (wishes : Overrides) :
    let outcome := s.outcomeFrom w.disk w.time root ((options root given wishes).run w).1
    Yields (s.conduct path given wishes) w outcome.1 outcome.2 := by
  have hoptions : ∀ w' : Workspace, w'.disk = w.disk →
      Yields (options root given wishes) w' ((options root given wishes).run w).1 w'.disk :=
    fun _ h => options_yields_of_disk_eq root given wishes h
  generalize ((options root given wishes).run w).1 = result at hoptions ⊢
  unfold conduct
  refine hroot.bind ?_
  intro w₁ h₁
  refine (yields_say _ w₁).bind ?_
  intro w₂ h₂
  have h₀ := h₁.keep h₂
  have hoptions := fun w' (h : w'.disk = w₂.disk) => hoptions w' (h.trans h₀.disk)
  apply yields_get_bind
  rw [← h₀.disk, ← h₀.time]
  unfold outcomeFrom
  cases Walk.checkRoot w₂.disk root root.text with
  | error f => exact (yields_throw f w₂).bind_error
  | ok u =>
    refine (yields_pure u w₂).bind ?_
    intro w₃ h₃
    have hoptions := hoptions w₃ h₃.disk
    rw [← h₃.disk, ← h₃.time]
    cases result with
    | error f => exact hoptions.bind_error
    | ok o =>
      refine hoptions.bind ?_
      intro w₄ h₄
      rw [← h₄.disk, ← h₄.time]
      have hscan := scan_yields s root o w₄
      dsimp only
      cases hsc : s.scanOf w₄.disk root o with
      | error f =>
        rw [hsc] at hscan
        exact hscan.bind_error
      | ok sc =>
        rw [hsc] at hscan
        refine hscan.bind ?_
        intro w₅ h₅
        rw [← h₅.disk, ← h₅.time]
        refine (manifests_yields root sc.rootFiles w₅).bind ?_
        intro w₆ h₆
        rw [← h₆.disk, ← h₆.time]
        have hevidence := evidence_yields s o sc w₆
        dsimp only
        cases hfound : s.evidenceOf w₆.disk w₆.time o sc with
        | mk found disk =>
          rw [hfound] at hevidence
          cases found with
          | error f => exact hevidence.bind_error
          | ok found =>
            refine hevidence.bind ?_
            intro w₇ h₇
            apply yields_get_bind
            refine (yields_say _ w₇).bind ?_
            intro w₈ h₈
            rw [h₇.disk] at h₈ ⊢
            rw [← h₈.disk]
            exact yields_pure _ w₈

/-- **A survey comes to its outcome.** -/
theorem conduct_yields {w : Workspace} {root : Location} {path : String}
    (hroot : Yields (Work.locateProject path) w (.ok root) w.disk) (s : Surveyor)
    (wishes : Overrides) :
    Yields (s.conduct path none wishes) w (s.outcome w.disk w.time root wishes).1
      (s.outcome w.disk w.time root wishes).2 := by
  have h := conduct_yields_outcomeFrom hroot s none wishes
  rwa [(options_yields root wishes w).result_eq, ← outcome_eq_outcomeFrom] at h

end Surveyor

end ProjectSurvey
