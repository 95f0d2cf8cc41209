import ProjectSurvey.Proofs.CommandLine.OwnFiles
import ProjectSurvey.Proofs.Disk.Removal

/-!
# Preparing and cleaning

`init` makes the directory for output and writes a first configuration, `clean` removes the
directory for output. **A configuration is written where none is, and none is overwritten**
(`runInit_spec`). **What is removed is the directory for output, and only if it lies below the
root** (`runClean_spec`): all of it where every directory in it can be emptied, and else a part.
Otherwise the command is refused and the disk stays as it is.
-/

namespace ProjectSurvey

/-- What is said of every failure of the first part and of every end of the second holds of the two
together. -/
theorem Work.run_of_bind {α β : Type} {x : Work α} {f : α → Work β} {w : Workspace}
    {P : Except Failure β × Workspace → Prop}
    (herror : ∀ e w', x.run w = (.error e, w') → P (.error e, w'))
    (hok : ∀ a w', x.run w = (.ok a, w') → P ((f a).run w')) : P ((x >>= f).run w) := by
  rw [run_bind]
  rcases hrun : x.run w with ⟨r, w'⟩
  cases r with
  | error e => exact herror e w' hrun
  | ok a => exact hok a w' hrun

/-- What keeps the disk keeps a workspace one with the same disk. -/
theorem Work.KeepsDisk.isWith {α : Type} {x : Work α} (h : KeepsDisk x) {w w' w'' : Workspace}
    {disk : Entry} {r : Except Failure α} (hw : w.IsWith disk w') (hrun : x.run w' = (r, w'')) :
    w.IsWith disk w'' := by
  have hkept := h w'
  rw [hrun] at hkept
  exact hw.keep hkept

/-- A workspace has its own disk. -/
theorem Workspace.isWith_self (w : Workspace) : w.IsWith w.disk w := ⟨rfl, rfl, rfl, rfl⟩

/-- Printing comes to its end and leaves the disk as it was. -/
theorem Work.exists_print_run (line : String) (w : Workspace) :
    ∃ w', (print line).run w = (.ok (), w') ∧ w.IsWith w.disk w' := ⟨_, rfl, rfl, rfl, rfl, rfl⟩

namespace CommandLine

open Entry Work

variable {w : Workspace} {root : Location} {path : String}

/-- Where the project is found, the workspace is left one with the same disk. -/
theorem exists_locateProject_run (hroot : ((locateProject path).run w).1 = .ok root) :
    ∃ w', (locateProject path).run w = (.ok root, w') ∧ w.IsWith w.disk w' := by
  rcases hrun : (locateProject path).run w with ⟨r, w'⟩
  rw [hrun] at hroot
  cases hroot
  exact ⟨w', rfl, (keepsDisk_locateProject path).isWith w.isWith_self hrun⟩

/-! ### Preparing -/

/-- A change leaves a workspace with the disk that it makes. -/
theorem isWith_of_change {c : Entry → Entry.Change} {w w' w'' : Workspace} {disk : Entry}
    {r : Except Failure Unit} (hw : w.IsWith disk w') (hrun : (Work.change c).run w' = (r, w'')) :
    w.IsWith (c disk).1 w'' := by
  rw [change_run] at hrun
  cases hrun
  exact ⟨congrArg (fun disk => (c disk).1) hw.disk, hw.directory, hw.homes, hw.time⟩

/-- The text of a first configuration as a file. -/
def starterFile (time : Int) : Entry :=
  .file (Text.Utf8.encode Configuration.starterText.toList) time

/-- A first configuration is written where nothing is, and nothing else is written. -/
theorem writeStarter_spec (hdisk : w.disk.IsUnlinked) (hroot : Path.AreNames root) :
    (((Configuration.writeStarter root).run w).2.disk = w.disk ∧
      ∀ p, ((Configuration.writeStarter root).run w).1 = .ok p →
        w.disk.at? (configurationPlace root) ≠ none) ∨
    (∃ p, ((Configuration.writeStarter root).run w).1 = .ok p) ∧
      w.disk.at? (configurationPlace root) = none ∧
      checkPath (configurationPlace root).text = .ok () ∧
      (∃ es b, w.disk.reach? root = some (directory es b true)) ∧
      ((Configuration.writeStarter root).run w).2.disk =
        w.disk.put (configurationPlace root) (starterFile w.time) := by
  have hplace := areNames_configurationPlace hroot
  have hpath : Path.join root.text Configuration.fileName = (configurationPlace root).text :=
    Surveyor.join_text_name hroot Surveyor.isName_configuration
  unfold Configuration.writeStarter
  rw [hpath, run_bind, run_get]
  dsimp only
  cases hexists : w.disk.existsAt (configurationPlace root).text with
  | error f =>
    refine .inl ⟨rfl, fun p hp => ?_⟩
    cases hp
  | ok there =>
    cases there with
    | true =>
      refine .inl ⟨rfl, fun _ _ hnone => ?_⟩
      obtain ⟨x, hx⟩ := hdisk.exists_of_existsAt_text hplace hexists
      rw [hx] at hnone
      cases hnone
    | false =>
      have hnone := hdisk.at?_of_existsAt_text hplace hexists
      dsimp only
      rw [run_bind, change_run]
      rcases writeText_put_or_refused hplace (hdisk.isStraight _) w.time
        Configuration.starterText.toList with ⟨hwrite, hcheck, hreach, -⟩ | ⟨refused, hrefused⟩
      · unfold configurationPlace at *
        rw [hwrite]
        exact .inr ⟨⟨_, rfl⟩, hnone, hcheck, hreach, rfl⟩
      · unfold configurationPlace at *
        rw [hrefused]
        exact .inl ⟨rfl, nofun⟩

/-- Where a directory is said to be at the root, there is one. -/
theorem hasDirectory_of_directoryAt {disk : Entry} (hdisk : disk.IsUnlinked)
    (hroot : Path.AreNames root) (h : disk.directoryAt root.text = .ok true) :
    HasDirectory disk root := by
  unfold directoryAt at h
  cases hseek : disk.seek root.text with
  | error f =>
    rw [hseek] at h
    cases h
  | ok found =>
    rw [hseek] at h
    cases found with
    | none => cases h
    | some x =>
      cases x with
      | file _ _ => cases h
      | link _ _ => cases h
      | directory es b g => exact ⟨es, b, g, hdisk.at?_of_seek_text hroot hseek⟩

/-- How preparing a project ends, and what becomes of the disk: directories are made, and if nothing
is where the configuration of the project is to be, it is written. -/
inductive IsPrepared (root : Location) (time : Int) (disk : Entry) :
    Except Failure Unit → Entry → Prop where
  /-- Nothing was done. -/
  | kept (f : Failure) : IsPrepared root time disk (.error f) disk
  /-- No configuration was written, since one is there or since it was refused. -/
  | made {r : Except Failure Unit} {disk' : Entry} (hdir : HasDirectory disk root)
      (hgrows : Grows [] (fun _ => False) disk disk')
      (hthere : r = .ok () → disk.at? (configurationPlace root) ≠ none) :
      IsPrepared root time disk r disk'
  /-- A configuration was written. -/
  | written {r : Except Failure Unit} {disk' : Entry} (hdir : HasDirectory disk root)
      (hgrows : Grows [] (fun _ => False) disk disk')
      (hnone : disk'.at? (configurationPlace root) = none)
      (hcheck : checkPath (configurationPlace root).text = .ok ())
      (hreach : ∃ es b, disk'.reach? root = some (directory es b true)) :
      IsPrepared root time disk r (disk'.put (configurationPlace root) (starterFile time))

/-- Without a configuration the directory for output has its usual name. -/
theorem outputDirectory_of_none {disk : Entry} (hdisk : disk.IsUnlinked)
    (hroot : Path.AreNames root) (hdir : HasDirectory disk root)
    (hnone : disk.at? (configurationPlace root) = none) {c : Configuration}
    (hc : Surveyor.configurationOf disk root = .ok c) : c = Configuration.empty := by
  obtain ⟨es, b, g, hdir⟩ := hdir
  refine Surveyor.eq_empty_of_configurationOf hroot hdir (hdisk _) ?_ hc
  intro octets m hat
  cases hnone.symm.trans hat

/-- The directory for output does not come to be where the configuration is to be. -/
theorem at?_configurationPlace_makeDirectories {disk : Entry} (hdisk : disk.IsUnlinked)
    (hroot : Path.AreNames root) (hdir : HasDirectory disk root)
    (hnone : disk.at? (configurationPlace root) = none) {c : Configuration}
    (hc : Surveyor.configurationOf disk root = .ok c) :
    (disk.makeDirectories (Path.join root.text c.outputDirectory)).1.at?
      (configurationPlace root) = none := by
  have hempty := outputDirectory_of_none hdisk hroot hdir hnone hc
  obtain ⟨es, b, g, hdir⟩ := hdir
  have hname : Path.IsName Configuration.empty.outputDirectory := by decide
  have hnames : Path.AreNames (root ++ Configuration.empty.outputDirectory :: []) :=
    Path.areNames_append.mpr ⟨hroot, by simpa using hname⟩
  have hgrows := grows_makeDirectories hnames (hdisk.isStraight _) hdir fun _ => False
  rw [hempty, Surveyor.join_text_name hroot hname]
  obtain ⟨es', hdir', hsame⟩ := hgrows.sameBeside hdir
  rw [configurationPlace, at?_child hdir', hsame.lookup_eq (by decide), ← at?_child hdir]
  exact hnone

/-- Where the directories are made, writing a first configuration and telling about it prepares a
project. -/
theorem isPrepared_writeStarter {disk : Entry} (hdisk : disk.IsUnlinked)
    (hroot : Path.AreNames root)
    (hdir : HasDirectory disk root) (hgrows : Grows [] (fun _ => False) disk w.disk)
    (hplace : disk.at? (configurationPlace root) = none →
      w.disk.at? (configurationPlace root) = none)
    {f : Option String → Work Unit} (hf : ∀ found, KeepsDisk (f found)) :
    IsPrepared root w.time disk ((Configuration.writeStarter root >>= f).run w).1
      ((Configuration.writeStarter root >>= f).run w).2.disk := by
  have hstarter := writeStarter_spec (hgrows.isUnlinked hdisk) hroot
  refine run_of_bind (P := fun p => IsPrepared root w.time disk p.1 p.2.disk) ?_ ?_
  · intro e w' hrun
    rw [hrun] at hstarter
    rcases hstarter with ⟨hsame, -⟩ | ⟨⟨p, hp⟩, -⟩
    · exact (hsame : w'.disk = _) ▸ .made hdir hgrows nofun
    · cases hp
  · intro found w' hrun
    rw [hrun] at hstarter
    rw [(hf found w').disk]
    rcases hstarter with ⟨hsame, hthere⟩ | ⟨-, hnone, hcheck, hreach, hput⟩
    · rw [show w'.disk = _ from hsame]
      exact .made hdir hgrows fun _ hnone => hthere found rfl (hplace hnone)
    · rw [show w'.disk = _ from hput]
      exact .written hdir hgrows hnone hcheck hreach

/-- **A project is prepared by directories and by a configuration where none is.** -/
theorem runInit_spec (hdisk : w.disk.IsUnlinked)
    (hroot : ((locateProject path).run w).1 = .ok root) :
    IsPrepared root w.time w.disk ((runInit path).run w).1 ((runInit path).run w).2.disk := by
  have hnames := areNames_of_locateProject hdisk hroot
  have hkept : ∀ {w' : Workspace} {e : Failure}, w.IsWith w.disk w' →
      IsPrepared root w.time w.disk (.error e) w'.disk := fun hw' =>
    hw'.disk ▸ .kept _
  obtain ⟨w₁, hrun₁, h₁⟩ := exists_locateProject_run hroot
  unfold runInit
  rw [run_bind, hrun₁]
  dsimp only
  rw [run_bind, run_get]
  dsimp only
  cases hat : w₁.disk.directoryAt root.text with
  | error f => exact hkept h₁
  | ok there =>
    cases there with
    | false => exact hkept h₁
    | true =>
      have hdir := hasDirectory_of_directoryAt (h₁.disk ▸ hdisk) hnames hat
      rw [h₁.disk] at hdir
      refine run_of_bind (P := fun p => IsPrepared root w.time w.disk p.1 p.2.disk) ?_ ?_
      · intro e w₂ hrun₂
        exact hkept ((keepsDisk_outputDirectory root).isWith h₁ hrun₂)
      intro output w₂ hrun₂
      have h₂ := (keepsDisk_outputDirectory root).isWith h₁ hrun₂
      obtain ⟨c, hc, rfl⟩ := of_outputDirectory hrun₂
      rw [h₁.disk] at hc
      have hgrows := (hdisk.isMade_makeDirectories (Path.join root.text c.outputDirectory)).grows
      have hplace := fun hnone => at?_configurationPlace_makeDirectories hdisk hnames hdir hnone hc
      generalize Path.join root.text c.outputDirectory = output at *
      refine run_of_bind (P := fun p => IsPrepared root w.time w.disk p.1 p.2.disk) ?_ ?_
      · intro e w₃ hrun₃
        exact (isWith_of_change h₂ hrun₃).disk ▸ .made hdir hgrows nofun
      intro u w₃ hrun₃
      have h₃ := isWith_of_change h₂ hrun₃
      refine run_of_bind (P := fun p => IsPrepared root w.time w.disk p.1 p.2.disk) ?_ ?_
      · intro e w₄ hrun₄
        exact ((keepsDisk_printedPath output).isWith h₃ hrun₄).disk ▸ .made hdir hgrows nofun
      intro shown w₄ hrun₄
      have h₄ := (keepsDisk_printedPath output).isWith h₃ hrun₄
      obtain ⟨w₅, hrun₅, h₅⟩ := exists_print_run ("Output directory ready at " ++ shown) w₄
      have h₅ := h₄.keep h₅
      rw [run_bind, hrun₅, ← h₅.time]
      rw [← h₅.disk] at hgrows hplace
      refine isPrepared_writeStarter hdisk hnames hdir hgrows hplace ?_
      -- what is printed in the end does not change the disk
      intro found
      cases found with
      | none => exact keepsDisk_print _
      | some place => exact (keepsDisk_printedPath place).bind fun _ => keepsDisk_print _

/-! ### Cleaning -/

/-- Whether a location lies below another one and is not the same. -/
def IsStrictlyBelow (root l : Location) : Prop := root <+: l ∧ l ≠ root

/-- What lies strictly below a location is not the top of the disk. -/
theorem IsStrictlyBelow.ne_nil {l : Location} (h : IsStrictlyBelow root l) : l ≠ [] := by
  rintro rfl
  exact h.2 (List.prefix_nil.mp h.1).symm

/-- What lies below a location is that location with names behind it. -/
theorem eq_append_of_below? {top l : Location} {names : List String}
    (h : Location.below? top l = some names) : l = top ++ names := by
  fun_induction Location.below? top l with
  | case1 l => exact Option.some.inj h
  | case2 => cases h
  | case3 a top l ih => rw [ih h, List.cons_append]
  | case4 => cases h

/-- Strictly below a location is what has at least one more name. -/
theorem isStrictlyBelow_iff {l : Location} :
    IsStrictlyBelow root l ↔ ∃ n rest, Location.below? root l = some (n :: rest) := by
  constructor
  · rintro ⟨⟨names, rfl⟩, hne⟩
    rw [FileReport.below?_append]
    cases names with
    | nil => exact absurd (List.append_nil root) hne
    | cons n rest => exact ⟨n, rest, rfl⟩
  · rintro ⟨n, rest, h⟩
    rw [eq_append_of_below? h]
    exact ⟨List.prefix_append _ _, by simp⟩

/-- How cleaning ends when it is called somewhere, and what becomes of the disk. -/
inductive IsCleaned (root out directory : Location) (disk : Entry) :
    Except Failure Unit → Entry → Prop where
  /-- The directory for output does not lie below the root. -/
  | outside (text : String) (h : ¬ IsStrictlyBelow root out) :
      IsCleaned root out directory disk (.error (.invalid text)) disk
  /-- The system refuses to say what is there. -/
  | refused (f : AccessFault) (path : String) (h : IsStrictlyBelow root out)
      (hrefused : disk.reach? out ≠ none → checkPath out.text ≠ .ok ()) :
      IsCleaned root out directory disk (.error (.refused f path)) disk
  /-- Nothing is there. -/
  | absent (h : IsStrictlyBelow root out) (hnone : disk.at? out = none) :
      IsCleaned root out directory disk (.ok ()) disk
  /-- The directory for output is removed; to tell so may fail where the call came from a directory
  that is gone. -/
  | removed (h : IsStrictlyBelow root out) (hcheck : checkPath out.text = .ok ())
      {r : Except Failure Unit} {disk' : Entry} (hremoved : IsRemoved disk out (disk', none))
      (hr : r = .ok () ∨
        ¬ HasDirectory disk' directory ∧ r = .error (.notFound Failure.lostDirectoryText)) :
      IsCleaned root out directory disk r disk'
  /-- Something is refused to be removed. -/
  | stopped (h : IsStrictlyBelow root out) (hcheck : checkPath out.text = .ok ()) {f : AccessFault}
      {path : String} {disk' : Entry} (hremoved : IsRemoved disk out (disk', some (f, path))) :
      IsCleaned root out directory disk (.error (.refused f path)) disk'

/-- Where the system refuses to say whether something is there, nothing can be reached there or the
path is one that it does not take. -/
theorem of_existsAt_error {out : Location} {f : AccessFault} (hdisk : w.disk.IsUnlinked)
    (hnames : Path.AreNames out) (hthere : w.disk.existsAt out.text = .error f) :
    w.disk.reach? out ≠ none → checkPath out.text ≠ .ok () := by
  intro hsome hcheck
  obtain ⟨x, hx⟩ := Option.ne_none_iff_exists'.mp hsome
  rw [hdisk.existsAt_text hnames (at?_of_reach? hx), hcheck, hx] at hthere
  cases hthere

/-- Removing a directory for output that is there, and telling so. -/
theorem isCleaned_remove {w' w'' : Workspace} {out : Location} {r : Except Failure Unit}
    (hw : w.IsWith w.disk w') (hdisk : w.disk.IsUnlinked) (hnames : Path.AreNames out)
    (hbelow : IsStrictlyBelow root out) (hthere : w.disk.existsAt out.text = .ok true)
    (hrun : (do
      Work.change fun disk => disk.removeDirectory out.text
      Work.print ("Removed " ++ (← printedPath out.text)) : Work Unit).run w' = (r, w'')) :
    IsCleaned root out w.directory w.disk r w''.disk := by
  obtain ⟨hcheck, -⟩ := hdisk.exists_reach?_of_existsAt_text hnames hthere
  have hremoved := hdisk.isRemoved_removeDirectory hnames hthere
  rw [run_bind, change_run, hw.disk] at hrun
  rcases hchange : w.disk.removeDirectory out.text with ⟨disk', _ | ⟨f, shown⟩⟩
  · rw [hchange] at hrun hremoved
    obtain ⟨r', hprinted, htext⟩ := printedPath_run out.text { w' with disk := disk' }
    rw [show ({ w' with disk := disk' } : Workspace).directory = w.directory from
      hw.directory] at htext
    dsimp only at hrun
    rw [run_bind, hprinted] at hrun
    rcases htext with ⟨text, rfl⟩ | ⟨hgone, rfl⟩
    · cases hrun
      exact .removed hbelow hcheck hremoved (.inl rfl)
    · cases hrun
      exact .removed hbelow hcheck hremoved (.inr ⟨hgone, rfl⟩)
  · rw [hchange] at hrun hremoved
    cases hrun
    exact .stopped hbelow hcheck hremoved

/-- **What is removed is the directory for output, and only if it lies below the root.** -/
theorem runClean_spec (hdisk : w.disk.IsUnlinked)
    (hroot : ((locateProject path).run w).1 = .ok root) {out : Location}
    (hout : IsOutput w.disk root out) :
    IsCleaned root out w.directory w.disk ((runClean path).run w).1
      ((runClean path).run w).2.disk := by
  obtain ⟨c, hc, hresolve⟩ := hout
  have hnames := hdisk.areNames_of_resolve hresolve
  obtain ⟨w₁, hrun₁, h₁⟩ := exists_locateProject_run hroot
  obtain ⟨w₂, hrun₂, h₂⟩ := exists_outputDirectory_run (h₁.disk ▸ hc)
  have h₂ := h₁.keep h₂
  unfold runClean
  rw [run_bind, hrun₁]
  dsimp only
  rw [run_bind, hrun₂]
  dsimp only
  have habsolute : Path.join w₂.directory.text (Path.join root.text c.outputDirectory) =
      Path.join root.text c.outputDirectory :=
    Path.join_of_isAbsolute _ (Path.isAbsolute_join (Path.isAbsolute_text root) _)
  rw [run_bind, locate_run, habsolute, h₂.disk, hresolve]
  dsimp only
  have hkept : ∀ {r}, IsCleaned root out w.directory w.disk r w.disk →
      IsCleaned root out w.directory w.disk r w₂.disk := by
    intro r h
    rwa [h₂.disk]
  by_cases hbelow : IsStrictlyBelow root out
  · obtain ⟨n, rest, hat⟩ := isStrictlyBelow_iff.mp hbelow
    rw [hat, if_neg (by simp), run_bind, run_get]
    dsimp only
    rw [h₂.disk]
    cases hthere : w.disk.existsAt out.text with
    | error f =>
      exact hkept (.refused f out.text hbelow (of_existsAt_error hdisk hnames hthere))
    | ok there =>
      cases there with
      | false => exact hkept (.absent hbelow (hdisk.at?_of_existsAt_text hnames hthere))
      | true => exact isCleaned_remove h₂ hdisk hnames hbelow hthere rfl
  · have hat : ∀ n rest, Location.below? root out ≠ some (n :: rest) :=
      fun n rest hat => hbelow (isStrictlyBelow_iff.mpr ⟨n, rest, hat⟩)
    have hend := hkept (.outside ("Refusing to remove " ++ out.text ++ ": not inside " ++ root.text)
      hbelow)
    cases hnames : Location.below? root out with
    | none => exact hend
    | some names =>
      cases names with
      | nil => exact hend
      | cons n rest => exact absurd hnames (hat n rest)

/-- Where no directory for output is known, nothing is removed. -/
theorem runClean_of_not_isOutput (hroot : ((locateProject path).run w).1 = .ok root)
    (hout : ∀ out, ¬ IsOutput w.disk root out) :
    (∃ f, ((runClean path).run w).1 = .error f) ∧ ((runClean path).run w).2.disk = w.disk := by
  obtain ⟨w₁, hrun₁, h₁⟩ := exists_locateProject_run hroot
  unfold runClean
  rw [run_bind, hrun₁]
  refine run_of_bind (P := fun p => (∃ f, p.1 = .error f) ∧ p.2.disk = w.disk) ?_ ?_
  · intro e w₂ hrun₂
    exact ⟨⟨e, rfl⟩, ((keepsDisk_outputDirectory root).isWith h₁ hrun₂).disk⟩
  intro output w₂ hrun₂
  have h₂ := (keepsDisk_outputDirectory root).isWith h₁ hrun₂
  obtain ⟨c, hc, rfl⟩ := of_outputDirectory hrun₂
  rw [h₁.disk] at hc
  have habsolute : Path.join w₂.directory.text (Path.join root.text c.outputDirectory) =
      Path.join root.text c.outputDirectory :=
    Path.join_of_isAbsolute _ (Path.isAbsolute_join (Path.isAbsolute_text root) _)
  rw [run_bind, locate_run, habsolute, h₂.disk]
  cases hresolve : w.disk.resolve (Path.join root.text c.outputDirectory) with
  | error f => exact ⟨⟨_, rfl⟩, h₂.disk⟩
  | ok out => exact absurd ⟨c, hc, hresolve⟩ (hout out)

end CommandLine

end ProjectSurvey
