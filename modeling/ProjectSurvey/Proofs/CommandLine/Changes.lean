import ProjectSurvey.Proofs.CommandLine.Upkeep
import ProjectSurvey.Proofs.Configuration.Texts

/-!
# What commands do to a disk

On a disk without links, a command that names no directory for its documents changes nothing, or
adds directories and own files, or writes a first configuration, or removes the directory for output
or a part of it: this is said once (`run_isChanged`). **From it follows what every command keeps**:
files outside the directory for output (`IsChanged.at?_eq_some_iff`), a configuration that is there
(`IsChanged.at?_configurationPlace`) and the directory for output itself (`IsChanged.isOutput`), for
the first configuration says nothing new about it.
-/

namespace ProjectSurvey.CommandLine

open Entry Work

/-! ### What one command does -/

/-- What becomes of a disk when a command is run for the project at a location. -/
inductive IsChanged (root : Location) (time : Int) (disk : Entry) : Command → Entry → Prop where
  /-- Nothing. -/
  | kept (command : Command) : IsChanged root time disk command disk
  /-- Directories and own files are added. -/
  | grown (command : Command) {disk' : Entry} (hdir : HasDirectory disk root)
      (hgrows : Grows [] (IsOwnFile disk root) disk disk') : IsChanged root time disk command disk'
  /-- Directories are added, and a configuration where nothing is. -/
  | written (path : String) {disk' : Entry} (hdir : HasDirectory disk root)
      (hgrows : Grows [] (fun _ => False) disk disk')
      (hnone : disk'.at? (configurationPlace root) = none)
      (hcheck : checkPath (configurationPlace root).text = .ok ())
      (hreach : ∃ es b, disk'.reach? root = some (directory es b true)) :
      IsChanged root time disk (.init path)
        (disk'.put (configurationPlace root) (starterFile time))
  /-- Of the directory for output something is removed. -/
  | pruned (path : String) {out : Location} {disk' : Entry} (hout : IsOutput disk root out)
      (hbelow : IsStrictlyBelow root out) (hdir : HasDirectory disk out)
      (hpruned : IsPruned out disk disk') : IsChanged root time disk (.clean path) disk'

/-- What `init` comes to is one of the changes of a command. -/
theorem IsPrepared.isChanged {root : Location} {time : Int} {disk disk' : Entry}
    {r : Except Failure Unit} (h : IsPrepared root time disk r disk') (path : String) :
    IsChanged root time disk (.init path) disk' := by
  cases h with
  | kept f => exact .kept _
  | made hdir hgrows _ => exact .grown _ hdir (hgrows.mono fun _ hl => hl.elim)
  | written hdir hgrows hnone hcheck hreach => exact .written path hdir hgrows hnone hcheck hreach

/-- Where a directory is, there is a directory. -/
theorem hasDirectory_of_isDirectory {disk e : Entry} {l : Location} (he : disk.at? l = some e)
    (hdir : e.isDirectory = true) : HasDirectory disk l := by
  cases e with
  | directory es b g => exact ⟨es, b, g, he⟩
  | _ => cases hdir

/-- Removing the directory for output, or a part of it, is a change of the command that cleans. -/
theorem isChanged_of_isRemoved {root out : Location} {disk disk' : Entry}
    {refused : Option (AccessFault × String)} (h : IsRemoved disk out (disk', refused))
    (htree : disk.IsTree) (hout : IsOutput disk root out) (hbelow : IsStrictlyBelow root out)
    (time : Int) (path : String) : IsChanged root time disk (.clean path) disk' := by
  have hpruned : IsPruned out disk disk' := h.isPruned htree hbelow.ne_nil
  cases h with
  | whole he hdir _ =>
    exact .pruned path hout hbelow (hasDirectory_of_isDirectory (at?_of_reach? he) hdir) hpruned
  | part he hdir _ _ =>
    exact .pruned path hout hbelow (hasDirectory_of_isDirectory (at?_of_reach? he) hdir) hpruned
  | kept => exact .kept _

/-- What `clean` comes to is one of the changes of a command. -/
theorem IsCleaned.isChanged {root out directory : Location} {disk disk' : Entry}
    {r : Except Failure Unit} (h : IsCleaned root out directory disk r disk') (htree : disk.IsTree)
    (hout : IsOutput disk root out) (time : Int) (path : String) :
    IsChanged root time disk (.clean path) disk' := by
  cases h with
  | removed hbelow _ hremoved _ => exact isChanged_of_isRemoved hremoved htree hout hbelow time path
  | stopped hbelow _ hremoved => exact isChanged_of_isRemoved hremoved htree hout hbelow time path
  | _ => exact .kept _

section

variable {w : Workspace} {path : String} {root : Location}

/-- A survey and what follows it change nothing where no directory is, and add own files
elsewhere. -/
theorem isChanged_of_conduct (hdisk : w.disk.IsUnlinked)
    (hroot : ((locateProject path).run w).1 = .ok root) {s : Surveyor} {wishes : Overrides}
    {f : Survey → Work Unit} {command : Command}
    (hgrows : Grows [] (IsOwnFile w.disk root) w.disk
      ((s.conduct path none wishes >>= f).run w).2.disk) :
    IsChanged root w.time w.disk command ((s.conduct path none wishes >>= f).run w).2.disk := by
  by_cases hdir : HasDirectory w.disk root
  · exact .grown command hdir hgrows
  · obtain ⟨⟨e, herror⟩, hsame⟩ := conduct_of_not_directory hdisk hroot hdir s wishes
    rw [run_bind_of_error herror, hsame]
    exact .kept command

/-- A survey with what is told of it afterwards adds no more than the survey does. -/
theorem grows_of_keepsDisk_after_conduct (hdisk : w.disk.IsUnlinked)
    (hroot : ((locateProject path).run w).1 = .ok root) {s : Surveyor} {wishes : Overrides}
    {f : Survey → Work Unit} (hf : ∀ survey, KeepsDisk (f survey)) :
    Grows [] (IsOwnFile w.disk root) w.disk ((s.conduct path none wishes >>= f).run w).2.disk := by
  refine grows_after_conduct hdisk hroot ?_
  intro survey w₁ _ _ h₁
  exact (hf survey).keeps h₁

/-- Without a project a command changes nothing. -/
theorem run_of_unlocated {f : Failure} (s : Surveyor) (command : Command)
    (hroot : ((locateProject command.project).run w).1 = .error f) :
    ((command.run s).run w).2.disk = w.disk := by
  have hlocated : ∀ {g : Location → Work Unit},
      ((locateProject command.project >>= g).run w).2.disk = w.disk := by
    intro g
    rw [run_bind_of_error hroot]
    exact (keepsDisk_locateProject _ w).disk
  have hsurveyed : ∀ {wishes : Overrides} {g : Survey → Work Unit},
      ((s.conduct command.project none wishes >>= g).run w).2.disk = w.disk := by
    intro wishes g
    obtain ⟨⟨e, herror⟩, hsame⟩ := conduct_of_unlocated hroot s wishes
    rw [run_bind_of_error herror, hsame]
  cases command with
  | init path => exact hlocated
  | status path => exact hlocated
  | analyze path wishes json keeps => exact hsurveyed
  | docs path wishes output => exact hsurveyed
  | audit path wishes => exact hsurveyed
  | focus path wishes => exact hsurveyed
  | clean path => exact hlocated
  | file target root json => exact hlocated

/-- **What a command does to the disk**, if it names no directory for its documents. -/
theorem run_isChanged (hdisk : w.disk.IsUnlinked) (htree : w.disk.IsTree) (s : Surveyor)
    {command : Command}
    (hown : command.namesOutput = false)
    (hroot : ((locateProject command.project).run w).1 = .ok root) :
    IsChanged root w.time w.disk command ((command.run s).run w).2.disk := by
  cases command with
  | init path => exact (runInit_spec hdisk hroot).isChanged path
  | status path =>
    rw [show (Command.run s (.status path)) = runStatus path from rfl,
      (keepsDisk_runStatus path w).disk]
    exact .kept _
  | analyze path wishes json keeps =>
    exact isChanged_of_conduct hdisk hroot (runAnalyze_grows hdisk hroot s wishes json keeps)
  | docs path wishes output =>
    refine isChanged_of_conduct hdisk hroot (runDocs_grows hdisk hroot s wishes ?_)
    rintro place rfl
    simpa [Command.namesOutput] using hown
  | audit path wishes =>
    exact isChanged_of_conduct hdisk hroot
      (grows_of_keepsDisk_after_conduct hdisk hroot keepsDisk_printVerdict)
  | focus path wishes =>
    exact isChanged_of_conduct hdisk hroot
      (grows_of_keepsDisk_after_conduct hdisk hroot fun s => keepsDisk_printAdvice s.advice)
  | clean path =>
    by_cases hout : ∃ out, IsOutput w.disk root out
    · obtain ⟨out, hout⟩ := hout
      exact (runClean_spec hdisk hroot hout).isChanged htree hout w.time path
    · have hclean : _ ∧ ((runClean path).run w).2.disk = w.disk :=
        runClean_of_not_isOutput hroot (not_exists.mp hout)
      rw [show (Command.run s (.clean path)) = runClean path from rfl, hclean.2]
      exact .kept _
  | file target root' json =>
    rw [show (Command.run s (.file target root' json)) = runFile target root' json from rfl,
      (keepsDisk_runFile target root' json w).disk]
    exact .kept _

end

/-! ### What a change keeps -/

/-- A first configuration in a directory adds that one file. -/
theorem grows_starter {root : Location} {disk disk' : Entry} (hroot : Path.AreNames root)
    (hdir : HasDirectory disk root) (hgrows : Grows [] (fun _ => False) disk disk')
    (hnone : disk'.at? (configurationPlace root) = none) (time : Int) :
    Grows [] (fun l => l = configurationPlace root) disk
        (disk'.put (configurationPlace root) (starterFile time)) ∧
      (disk'.put (configurationPlace root) (starterFile time)).at? (configurationPlace root) =
        some (starterFile time) := by
  obtain ⟨es, b, g, hdir'⟩ := hdir.of_grows hgrows
  refine ⟨.step (hgrows.mono fun _ hl => hl.elim) ⟨List.nil_prefix,
    areNames_configurationPlace hroot, ⟨root, Configuration.fileName, es, b, g, rfl, hdir'⟩,
    .inr ⟨⟨_, _, rfl⟩, rfl, by simp [configurationPlace], ?_⟩⟩, ?_⟩
  · intro x hx
    rw [hnone] at hx
    cases hx
  · exact at?_put_self hdir' Configuration.fileName (starterFile time)

/-- A directory that lies around another one. -/
theorem HasDirectory.of_prefix {disk : Entry} {l k : Location} (h : HasDirectory disk l)
    (hk : k <+: l) : HasDirectory disk k := by
  obtain ⟨es, b, g, hdir⟩ := h
  obtain ⟨m, rfl⟩ := hk
  cases m with
  | nil => exact ⟨es, b, g, by rwa [List.append_nil] at hdir⟩
  | cons n m => exact exists_directory_of_at? hdir

/-- Below the root, a directory that the configuration lies in is no directory for output. -/
theorem IsStrictlyBelow.not_prefix_configurationPlace {root out : Location} {disk x : Entry}
    (h : IsStrictlyBelow root out) (hdir : HasDirectory disk out) (hx : x.isDirectory = false)
    (hat : disk.at? (configurationPlace root) = some x) : ¬ out <+: configurationPlace root := by
  intro hle
  rcases List.prefix_concat_iff.mp hle with rfl | hle
  · obtain ⟨es, b, g, hdir⟩ := hdir
    rw [show disk.at? (root ++ [Configuration.fileName]) = some x from hat] at hdir
    cases hdir
    cases hx
  · exact h.2 (hle.eq_of_length_le h.1.length_le)

/-- Where the configuration stays the same, so does the directory for output. -/
theorem IsOutput.of_configurationOf_eq {root out : Location} {disk disk' : Entry}
    (hdisk : disk.IsUnlinked) (hdisk' : disk'.IsUnlinked) (h : IsOutput disk root out)
    (hc : Surveyor.configurationOf disk' root = Surveyor.configurationOf disk root) :
    IsOutput disk' root out := by
  obtain ⟨c, hconfigured, hout⟩ := h
  refine ⟨c, hc.trans hconfigured, ?_⟩
  rw [hdisk'.resolve_eq, ← hdisk.resolve_eq, hout]

/-- The first configuration says nothing new about the directory for output. -/
theorem configurationOf_starter {root : Location} {disk : Entry} {time : Int}
    (hdisk : (disk.put (configurationPlace root) (starterFile time)).IsUnlinked)
    (hroot : Path.AreNames root) {es : List (String × Entry)} {b : ListRight}
    (hreach : disk.reach? root = some (directory es b true))
    (hcheck : checkPath (configurationPlace root).text = .ok ()) :
    ∃ c, Surveyor.configurationOf (disk.put (configurationPlace root) (starterFile time)) root =
        .ok c ∧ c.outputDirectory = Configuration.defaultOutput := by
  have hplace := areNames_configurationPlace hroot
  obtain ⟨c, hc, houtput⟩ := Configuration.exists_ofText_starterText
  have hread := Configuration.ofFile_of_isKept hplace hcheck Configuration.isKept_starterText
    (reach?_put_self hreach Configuration.fileName (starterFile time))
  rw [hc] at hread
  have hroot' : (disk.put (configurationPlace root) (starterFile time)).reach? root =
      some (directory (putName Configuration.fileName (starterFile time) es) b true) := by
    rw [configurationPlace, reach?_put_append disk root _ (List.cons_ne_nil _ _), hreach,
      Option.map_some, put_directory_singleton]
  have hlookup : (putName Configuration.fileName (starterFile time) es).lookup
      Configuration.fileName = some (starterFile time) :=
    (child?_putName Configuration.fileName Configuration.fileName _ es b true).trans (if_pos rfl)
  refine ⟨c, ?_, houtput⟩
  unfold configurationPlace at hread hcheck hroot' hdisk ⊢
  unfold Surveyor.configurationOf
  rw [Surveyor.load_text hroot (at?_of_reach? hroot') (hdisk _),
    checkPath_text_of_concat hplace hcheck, hroot', Surveyor.existsAt_configuration hroot hroot'
      (hdisk _), hcheck, hlookup, hread]
  rfl

/-- Removing the directory for output, or a part of it, leaves the configuration as it is. -/
theorem configurationOf_eq_of_isPruned {root out : Location} {disk disk' : Entry}
    (hdisk : disk.IsUnlinked) (hroot : Path.AreNames root) (hbelow : IsStrictlyBelow root out)
    (hdir : HasDirectory disk out) (hpruned : IsPruned out disk disk') :
    Surveyor.configurationOf disk' root = Surveyor.configurationOf disk root := by
  have hrootOutside : ¬ out <+: root := fun hle =>
    hbelow.2 (hle.eq_of_length_le hbelow.1.length_le)
  obtain ⟨es, b, g, hrootDir⟩ := hdir.of_prefix hbelow.1
  have hshell := hpruned.outside root hrootOutside
  rw [hrootDir, Option.map_some, Option.map_eq_some_iff] at hshell
  obtain ⟨x, hx, hxshell⟩ := hshell
  obtain ⟨es', rfl⟩ := eq_directory_of_shell_eq hxshell
  refine configurationOf_eq hdisk (hpruned.isUnlinked hdisk) hroot hrootDir hx ?_ ?_
  · rw [← Option.isSome_map (f := shell), hpruned.map_shell_reach? hrootOutside, Option.isSome_map]
  · intro octets m
    constructor
    · exact hpruned.of_at? rfl
    · intro hat
      have houtside := hbelow.not_prefix_configurationPlace hdir rfl hat
      exact (hpruned.at?_eq_some_iff houtside rfl).mpr hat

namespace IsChanged

variable {root l : Location} {time : Int} {disk disk' : Entry} {command : Command}

/-- No link comes about. -/
theorem isUnlinked (h : IsChanged root time disk command disk') (hroot : Path.AreNames root)
    (hdisk : disk.IsUnlinked) : disk'.IsUnlinked := by
  cases h with
  | kept => exact hdisk
  | grown _ _ hgrows => exact hgrows.isUnlinked hdisk
  | written _ hdir hgrows hnone _ =>
    exact (grows_starter hroot hdir hgrows hnone time).1.isUnlinked hdisk
  | pruned _ _ _ _ hpruned => exact hpruned.isUnlinked hdisk

/-- A tree stays one. -/
theorem isTree (h : IsChanged root time disk command disk') (hroot : Path.AreNames root)
    (htree : disk.IsTree) : disk'.IsTree := by
  cases h with
  | kept => exact htree
  | grown _ _ hgrows => exact hgrows.isTree htree
  | written _ hdir hgrows hnone _ =>
    exact (grows_starter hroot hdir hgrows hnone time).1.isTree htree
  | pruned _ _ _ _ hpruned => exact hpruned.isTree

/-- **Outside the directory for output files stay and none comes about**, except for a configuration
that is written where nothing is. -/
theorem at?_eq_some_iff (h : IsChanged root time disk command disk') (hroot : Path.AreNames root)
    (houtside : ∀ out, IsOutput disk root out → ¬ out <+: l)
    (hplace : ∀ path, command = .init path → l = configurationPlace root → disk.at? l ≠ none)
    {x : Entry} (hx : x.isDirectory = false) : disk'.at? l = some x ↔ disk.at? l = some x := by
  cases h with
  | kept => exact Iff.rfl
  | grown _ _ hgrows =>
    refine hgrows.at?_eq_some_iff ?_ hx
    rintro ⟨out, hout, names, -, rfl⟩
    exact houtside out hout (List.prefix_append out names)
  | written path hdir hgrows hnone _ =>
    refine (grows_starter hroot hdir hgrows hnone time).1.at?_eq_some_iff ?_ hx
    rintro rfl
    exact hplace path rfl rfl (hgrows.at?_eq_none id hnone)
  | pruned _ hout _ _ hpruned => exact hpruned.at?_eq_some_iff (houtside _ hout) hx

/-- **A configuration is never overwritten or removed**, wherever the directory for output is. -/
theorem at?_configurationPlace (h : IsChanged root time disk command disk') {x : Entry}
    (hx : x.isDirectory = false) (hat : disk.at? (configurationPlace root) = some x) :
    disk'.at? (configurationPlace root) = some x := by
  cases h with
  | kept => exact hat
  | grown _ _ hgrows =>
    exact hgrows.at?_of_at? (not_isOwnFile_configurationPlace disk root) hx hat
  | written _ hdir hgrows hnone _ =>
    rw [hgrows.at?_eq_none id hnone] at hat
    cases hat
  | pruned _ _ hbelow hdir hpruned =>
    exact (hpruned.at?_eq_some_iff (hbelow.not_prefix_configurationPlace hdir hx hat) hx).mpr hat

/-- **The directory for output stays the same**, whatever a command does. -/
theorem isOutput (h : IsChanged root time disk command disk') (hroot : Path.AreNames root)
    (hdisk : disk.IsUnlinked) {out : Location} (hout : IsOutput disk root out) :
    IsOutput disk' root out := by
  have hdisk' := h.isUnlinked hroot hdisk
  cases h with
  | kept => exact hout
  | grown _ hdir hgrows =>
    exact hout.of_configurationOf_eq hdisk hdisk'
      (configurationOf_eq_of_grows hdisk hroot hdir hgrows
        (not_isOwnFile_configurationPlace disk root))
  | written _ hdir hgrows hnone hcheck hreach =>
    obtain ⟨es, b, hreach⟩ := hreach
    obtain ⟨c, hc, hresolve⟩ := hout
    obtain ⟨c', hc', houtput⟩ := configurationOf_starter hdisk' hroot hreach hcheck
    have hempty := outputDirectory_of_none hdisk hroot hdir (hgrows.at?_eq_none id hnone) hc
    refine ⟨c', hc', ?_⟩
    rw [hdisk'.resolve_eq, ← hdisk.resolve_eq, ← hresolve, houtput, hempty]
    rfl
  | pruned _ _ hbelow hdir hpruned =>
    exact hout.of_configurationOf_eq hdisk hdisk'
      (configurationOf_eq_of_isPruned hdisk hroot hbelow hdir hpruned)

end IsChanged

end ProjectSurvey.CommandLine
