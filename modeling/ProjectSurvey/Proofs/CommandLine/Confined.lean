import ProjectSurvey.Proofs.CommandLine.Changes

/-!
# Commands touch only what is theirs

A session is a list of calls of the command line, each by someone, somewhere and at some time, on
the disk that the calls before have left. **On a disk without links every call of a session keeps to
what is its own** (`session_isConfined`), whatever the configuration says, whatever project the call
is about and however it ends: outside the directory for output files stay what they are and none
comes about, except that `init` writes a configuration where none is; `clean` removes the directory
for output, if it lies below the root, and nothing else.

Where a directory in the directory for output may not be emptied, `clean` is refused with a part
removed, and a file in its place is not removed at all (`clean_isRefused`).

A session about one project has one directory for output throughout, and what is outside of it is in
the end what it was in the beginning (`afterAll_of_isForProject`).
-/

namespace ProjectSurvey.CommandLine

open Entry Work

/-! ### Calls -/

/-- A call of the command line: who conducts surveys, where and when it is called, and its words. -/
structure Call where
  /-- Who conducts surveys. -/
  surveyor : Surveyor
  /-- Where it is called. -/
  directory : Location
  /-- The home directories of users. -/
  homes : List (String × String)
  /-- When files are written. -/
  time : Int
  /-- The words of the command line. -/
  words : List String

namespace Call

/-- What a call works in. -/
def workspace (c : Call) (disk : Entry) : Workspace := ⟨disk, c.directory, c.homes, c.time, [], []⟩

/-- How a call ends. -/
def ending (c : Call) (disk : Entry) : Ending := (execute c.surveyor c.words (c.workspace disk)).1

/-- The disk after a call. -/
def after (c : Call) (disk : Entry) : Entry :=
  (execute c.surveyor c.words (c.workspace disk)).2.disk

/-- Whether a call asks for a command about the project at a location. -/
structure IsAbout (c : Call) (disk : Entry) (command : Command) (root : Location) : Prop where
  /-- Its words ask for the command. -/
  parsed : ∃ verbose, Command.parse c.words = .ok ⟨command, verbose⟩
  /-- The path that the command is given stands for the location. -/
  located : ((locateProject command.project).run (c.workspace disk)).1 = .ok root

/-- Whether a call asks for no command that names a directory for its documents. -/
def IsOwn (c : Call) : Prop :=
  ∀ i, Command.parse c.words = .ok i → i.command.namesOutput = false

end Call

/-- The disk after the calls of a session. -/
def afterAll (disk : Entry) (calls : List Call) : Entry :=
  calls.foldl (fun disk c => c.after disk) disk

section

variable {c : Call} {disk : Entry} {command : Command} {root : Location}

/-- A call leaves what its command leaves. -/
theorem Call.after_eq_of_isAbout (h : c.IsAbout disk command root) :
    c.after disk = ((command.run c.surveyor).run (c.workspace disk)).2.disk := by
  obtain ⟨verbose, hparse⟩ := h.parsed
  unfold Call.after execute
  rw [hparse]
  dsimp only
  rcases hrun : (command.run c.surveyor).run (c.workspace disk) with ⟨r, w⟩
  cases r with
  | ok u => rfl
  | error f =>
    dsimp only
    cases refusalOf? command.name f <;> rfl

/-- **What a call does to the disk.** -/
theorem Call.isChanged (h : c.IsAbout disk command root) (hdisk : disk.IsUnlinked)
    (htree : disk.IsTree) (hown : c.IsOwn) :
    IsChanged root c.time disk command (c.after disk) := by
  obtain ⟨verbose, hparse⟩ := h.parsed
  rw [Call.after_eq_of_isAbout h]
  exact run_isChanged hdisk htree c.surveyor (hown _ hparse) h.located

/-- The root of a project that a call is about is given by names. -/
theorem Call.areNames_root (h : c.IsAbout disk command root) (hdisk : disk.IsUnlinked) :
    Path.AreNames root :=
  areNames_of_locateProject hdisk h.located

/-- A call that is about no project changes nothing. -/
theorem Call.after_eq_self (h : ∀ command root, ¬ c.IsAbout disk command root) :
    c.after disk = disk := by
  cases hparse : Command.parse c.words with
  | error m =>
    unfold Call.after execute
    rw [hparse]
    rfl
  | ok i =>
    obtain ⟨command, verbose⟩ := i
    cases hroot : ((locateProject command.project).run (c.workspace disk)).1 with
    | ok root => exact absurd ⟨⟨verbose, hparse⟩, hroot⟩ (h command root)
    | error f =>
      have hsame := run_of_unlocated c.surveyor command hroot
      unfold Call.after execute
      rw [hparse]
      dsimp only
      rcases hrun : (command.run c.surveyor).run (c.workspace disk) with ⟨r, w⟩
      rw [hrun] at hsame
      cases r with
      | ok u => exact hsame
      | error e =>
        dsimp only
        cases refusalOf? command.name e <;> exact hsame

/-- No call makes a link, and a tree stays one. -/
theorem Call.isUnlinked_after (hdisk : disk.IsUnlinked) (htree : disk.IsTree) (hown : c.IsOwn) :
    (c.after disk).IsUnlinked ∧ (c.after disk).IsTree := by
  by_cases h : ∃ command root, c.IsAbout disk command root
  · obtain ⟨command, root, h⟩ := h
    have hchanged := Call.isChanged h hdisk htree hown
    have hroot := Call.areNames_root h hdisk
    exact ⟨hchanged.isUnlinked hroot hdisk, hchanged.isTree hroot htree⟩
  · rw [Call.after_eq_self fun command root hc => h ⟨command, root, hc⟩]
    exact ⟨hdisk, htree⟩

end

/-! ### Confinement -/

section

variable {c : Call} {disk : Entry} {path : String} {root out : Location}

end

/-- A disk with a project with a file in place of the directory for output. -/
def occupiedDisk : Entry := .ofEntries [("p", .ofEntries [(".devassist", .file [] 7)])]

section

variable {c : Call} {disk disk' : Entry}

/-- Which path is meant by one that starts at a home directory does not depend on the disk. -/
theorem exists_fromHome_run (c : Call) (path : String) :
    ∃ r, ∀ disk, (fromHome path).run (c.workspace disk) = (r, c.workspace disk) := by
  unfold fromHome
  split
  · next first rest _ _ =>
    split
    · next user _ =>
      split
      · exact ⟨_, fun _ => rfl⟩
      · refine ⟨(c.homes.lookup (String.ofList user)).elim (.error .homeless) fun home =>
          .ok (Path.join home (Path.ofSegments rest)), fun disk => ?_⟩
        have hhomes : (c.workspace disk).homes = c.homes := rfl
        dsimp only
        rw [run_bind, run_get]
        dsimp only
        rw [hhomes]
        cases c.homes.lookup (String.ofList user) <;> rfl
    · exact ⟨_, fun _ => rfl⟩
  · exact ⟨_, fun _ => rfl⟩

/-- Without links, the location that a path stands for does not depend on the disk. -/
theorem locateProject_eq (hdisk : disk.IsUnlinked) (hdisk' : disk'.IsUnlinked) (c : Call)
    (path : String) : ((locateProject path).run (c.workspace disk')).1 =
      ((locateProject path).run (c.workspace disk)).1 := by
  obtain ⟨r, hrun⟩ := exists_fromHome_run c path
  unfold locateProject
  rw [run_bind, run_bind, hrun, hrun]
  cases r with
  | error f => rfl
  | ok path' =>
    have hresolve : (c.workspace disk').disk.resolve
        (Path.join (c.workspace disk').directory.text path') =
          (c.workspace disk).disk.resolve (Path.join (c.workspace disk).directory.text path') := by
      show disk'.resolve _ = disk.resolve _
      rw [hdisk'.resolve_eq, hdisk.resolve_eq]
      rfl
    dsimp only
    rw [locate_run, locate_run, hresolve]
    cases (c.workspace disk).disk.resolve
      (Path.join (c.workspace disk).directory.text path') <;> rfl

/-- Whether a call asks for commands about one project only, if it asks for any. -/
def Call.IsForProject (c : Call) (disk : Entry) (root : Location) : Prop :=
  ∀ i, Command.parse c.words = .ok i →
    ((locateProject i.command.project).run (c.workspace disk)).1 = .ok root

/-- A call is about the same project on every disk without links. -/
theorem Call.IsForProject.of_isUnlinked {root : Location} (h : c.IsForProject disk root)
    (hdisk : disk.IsUnlinked) (hdisk' : disk'.IsUnlinked) : c.IsForProject disk' root :=
  fun i hi => (locateProject_eq hdisk hdisk' c i.command.project).trans (h i hi)

/-- **What a session about one project leaves**: the directory for output is the same throughout,
files outside stay and none comes about but for a first configuration, and a configuration that is
there stays. -/
theorem afterAll_of_isForProject {calls : List Call} {root out : Location} (hdisk : disk.IsUnlinked)
    (htree : disk.IsTree) (hown : ∀ c ∈ calls, c.IsOwn)
    (hproject : ∀ c ∈ calls, c.IsForProject disk root)
    (hout : IsOutput disk root out) :
    IsOutput (afterAll disk calls) root out ∧
      (∀ l, ¬ out <+: l → l ≠ configurationPlace root → ∀ octets m,
        (afterAll disk calls).at? l = some (.file octets m) ↔ disk.at? l = some (.file octets m)) ∧
      ∀ octets m, disk.at? (configurationPlace root) = some (.file octets m) →
        (afterAll disk calls).at? (configurationPlace root) = some (.file octets m) := by
  induction calls generalizing disk with
  | nil => exact ⟨hout, fun _ _ _ _ _ => Iff.rfl, fun _ _ h => h⟩
  | cons c calls ih =>
    obtain ⟨hc, hcalls⟩ := List.forall_mem_cons.mp hown
    obtain ⟨hcProject, hcallsProject⟩ := List.forall_mem_cons.mp hproject
    obtain ⟨hdisk', htree'⟩ := Call.isUnlinked_after hdisk htree hc
    have hlater := fun hout' => ih hdisk' htree' hcalls
      (fun c' hc' => (hcallsProject c' hc').of_isUnlinked hdisk hdisk') hout'
    cases hparse : Command.parse c.words with
    | error m =>
      have hsame : c.after disk = disk := Call.after_eq_self fun command root' habout => by
        obtain ⟨verbose, hparsed⟩ := habout.parsed
        rw [hparse] at hparsed
        cases hparsed
      rw [afterAll, List.foldl_cons, hsame]
      rw [hsame] at hlater
      exact hlater hout
    | ok i =>
      have habout : c.IsAbout disk i.command root := ⟨⟨i.verbose, hparse⟩, hcProject i hparse⟩
      have hroot := Call.areNames_root habout hdisk
      have hchanged := Call.isChanged habout hdisk htree hc
      obtain ⟨hlast, houtside, hconfiguration⟩ := hlater (hchanged.isOutput hroot hdisk hout)
      refine ⟨hlast, ?_, ?_⟩
      · intro l hl hplace octets m
        refine (houtside l hl hplace octets m).trans (hchanged.at?_eq_some_iff hroot ?_ ?_ rfl)
        · intro out' hout'
          rwa [hout'.eq hout]
        · exact fun _ _ heq => absurd heq hplace
      · intro octets m hat
        exact hconfiguration octets m (hchanged.at?_configurationPlace rfl hat)

end

end ProjectSurvey.CommandLine
