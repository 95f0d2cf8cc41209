import ProjectSurvey.CommandLine.Run
import ProjectSurvey.Proofs.Survey.Frame

/-!
# What commands leave behind

A command prints, and prints leave the disk as it is (`Work.KeepsDisk`). Of the commands that survey
a project only `analyze` writes on its own: **it makes the directory for output and puts the
snapshot there, and the disk grows nowhere else** (`keep_grows`).
-/

namespace ProjectSurvey

namespace Work

/-! ### Operations that leave the disk as it is -/

/-- Whether an operation leaves every workspace as it is, whatever it says and prints. -/
def KeepsDisk {α : Type} (x : Work α) : Prop :=
  ∀ w : Workspace, w.IsWith w.disk (x.run w).2

section

variable {α β : Type} {x : Work α} {f : α → Work β} {w : Workspace}

/-- What keeps the disk comes to its result there and leaves the disk as it was. -/
theorem KeepsDisk.yields (hx : KeepsDisk x) (w : Workspace) : Yields x w (x.run w).1 w.disk :=
  ⟨(x.run w).2, rfl, hx w⟩

/-- A result keeps the disk. -/
theorem keepsDisk_pure (a : α) : KeepsDisk (pure a) := fun _ => ⟨rfl, rfl, rfl, rfl⟩

/-- A failure keeps the disk. -/
theorem keepsDisk_throw (e : Failure) : KeepsDisk (throw e : Work α) :=
  fun _ => ⟨rfl, rfl, rfl, rfl⟩

/-- Looking at the workspace keeps the disk. -/
theorem keepsDisk_get : KeepsDisk get := fun _ => ⟨rfl, rfl, rfl, rfl⟩

/-- Printing a line keeps the disk. -/
theorem keepsDisk_print (line : String) : KeepsDisk (print line) := fun _ => ⟨rfl, rfl, rfl, rfl⟩

/-- A result or a failure that is known keeps the disk. -/
theorem keepsDisk_ofExcept (r : Except Failure α) : KeepsDisk (ofExcept r) := by
  cases r with
  | ok a => exact keepsDisk_pure a
  | error e => exact keepsDisk_throw e

/-- What holds of a disk holds of the disk that an operation without effects on it leaves. -/
theorem KeepsDisk.keeps {P : Entry → Prop} (hx : KeepsDisk x) (h : P w.disk) :
    P (x.run w).2.disk := by
  rw [(hx w).disk]
  exact h

/-- What keeps the disk, and then goes on with what keeps it, keeps it. -/
theorem KeepsDisk.bind (hx : KeepsDisk x) (hf : ∀ a, KeepsDisk (f a)) : KeepsDisk (x >>= f) := by
  intro w
  have hw := hx w
  rw [run_bind]
  rcases hrun : x.run w with ⟨r, w'⟩
  rw [hrun] at hw
  cases r with
  | error e => exact hw
  | ok a =>
    have hw' := hw.trans (hf a w')
    rw [hw.disk] at hw'
    exact hw'

/-- What holds of the disk that an operation leaves, be it the last one or not, holds in the end if
the others keep it. -/
theorem disk_bind {P : Entry → Prop} (hx : P (x.run w).2.disk)
    (hf : ∀ a w', x.run w = (.ok a, w') → P w'.disk → P ((f a).run w').2.disk) :
    P ((x >>= f).run w).2.disk := by
  rw [run_bind]
  rcases hrun : x.run w with ⟨r, w'⟩
  rw [hrun] at hx
  cases r with
  | error e => exact hx
  | ok a => exact hf a w' hrun hx

/-- After a failure nothing more is done. -/
theorem run_bind_of_error {e : Failure} (hx : (x.run w).1 = .error e) :
    ((x >>= f).run w).2 = (x.run w).2 := by
  rw [run_bind]
  rcases hrun : x.run w with ⟨r, w'⟩
  rw [hrun] at hx
  cases hx
  rfl

/-- A choice between what keeps the disk keeps it. -/
theorem keepsDisk_ite {c : Prop} [Decidable c] {y : Work α} (hx : KeepsDisk x) (hy : KeepsDisk y) :
    KeepsDisk (if c then x else y) := by
  split
  · exact hx
  · exact hy

/-- A loop whose rounds keep the disk keeps it. -/
theorem keepsDisk_forIn {l : List α} {f : α → PUnit → Work (ForInStep PUnit)}
    (hf : ∀ a u, KeepsDisk (f a u)) (u : PUnit) : KeepsDisk (forIn l u f) := by
  induction l generalizing u with
  | nil => exact keepsDisk_pure _
  | cons a l ih =>
    rw [List.forIn_cons]
    refine (hf a u).bind ?_
    intro r
    cases r with
    | done u => exact keepsDisk_pure u
    | yield u => exact ih u

/-- Doing for each what keeps the disk keeps it. -/
theorem keepsDisk_mapM {l : List α} {f : α → Work β} (hf : ∀ a, KeepsDisk (f a)) :
    KeepsDisk (l.mapM f) := by
  induction l with
  | nil => exact keepsDisk_pure _
  | cons a l ih =>
    rw [List.mapM_cons]
    refine (hf a).bind ?_
    intro b
    refine ih.bind ?_
    intro bs
    exact keepsDisk_pure _

/-- Finding out what a path stands for keeps the disk. -/
theorem keepsDisk_locate (path : String) : KeepsDisk (locate path) := by
  unfold locate absolute
  refine keepsDisk_get.bind ?_
  intro w
  refine (keepsDisk_get.bind fun _ => keepsDisk_pure _).bind ?_
  intro path
  cases w.disk.resolve path with
  | ok l => exact keepsDisk_pure l
  | error f => exact keepsDisk_throw _

/-- Finding a home directory keeps the disk. -/
theorem keepsDisk_fromHome (path : String) : KeepsDisk (fromHome path) := by
  unfold fromHome
  split
  · split
    · split
      · exact (keepsDisk_throw _).bind fun _ => keepsDisk_get.bind fun w => by
          split
          · exact keepsDisk_pure _
          · exact keepsDisk_throw _
      · exact keepsDisk_get.bind fun w => by
          split
          · exact keepsDisk_pure _
          · exact keepsDisk_throw _
    · exact keepsDisk_pure path
  · exact keepsDisk_pure path

/-- Finding the project keeps the disk. -/
theorem keepsDisk_locateProject (path : String) : KeepsDisk (locateProject path) :=
  (keepsDisk_fromHome path).bind keepsDisk_locate

/-- A location to which no link leads is what its path stands for. -/
theorem locateProject_text {root : Location} (hroot : Path.AreNames root)
    (hstraight : w.disk.IsStraight root) :
    Yields (locateProject root.text) w (.ok root) w.disk := by
  have hhome : Yields (fromHome root.text) w (.ok root.text) w.disk := by
    unfold fromHome
    rw [Path.isAbsolute_text]
    exact yields_pure _ w
  refine hhome.bind ?_
  intro w' hw'
  unfold locate absolute
  apply yields_get_bind
  refine Yields.bind (yields_get_bind (yields_pure _ w')) ?_
  intro w'' hw''
  rw [Path.join_text, hw'.disk, Entry.resolve_text hroot hstraight, ← hw'.disk, ← hw''.disk]
  exact yields_pure root w''

end

end Work

namespace CommandLine

open Work

/-! ### Printing -/

/-- Showing values in a row keeps the disk. -/
theorem keepsDisk_textsInRow (ds : List Datum) : KeepsDisk (textsInRow ds) := by
  unfold textsInRow
  refine (keepsDisk_mapM ?_).bind fun _ => keepsDisk_pure _
  intro d
  cases d with
  | text s => exact keepsDisk_pure s
  | _ => exact keepsDisk_throw _

/-- Printing values in a row keeps the disk. -/
theorem keepsDisk_printRow (front : String) (ds : List Datum) : KeepsDisk (do
    let row ← textsInRow ds
    print (front ++ row)) :=
  (keepsDisk_textsInRow ds).bind fun row => keepsDisk_print (front ++ row)

/-- Printing a line for each keeps the disk. -/
theorem keepsDisk_printEach {α : Type} (l : List α) (text : α → String) :
    KeepsDisk (forIn l PUnit.unit fun a _ => do
      print (text a)
      pure (ForInStep.yield PUnit.unit)) :=
  keepsDisk_forIn (fun a _ => (keepsDisk_print (text a)).bind fun _ => keepsDisk_pure _) _

/-- Printing the gist of a snapshot keeps the disk. -/
theorem keepsDisk_printGist (s : Snapshot) : KeepsDisk (printGist s) := by
  unfold printGist
  refine (keepsDisk_print _).bind fun _ => ?_
  have hrest : KeepsDisk (do
      print ("Files: " ++ Document.shown s.figures.totalFiles ++ "  Lines: " ++
        Document.shown s.figures.totalLines ++ "  Complexity: " ++
        Document.shown s.figures.complexity)
      print ("Quality score: " ++ Document.shown s.score ++ "/100 (" ++
        Document.shownAdvice s.counsel.qualityLevel ++ ")")
      print ("Security findings: " ++ number s.security.length)
      if !s.header.skipped.isEmpty then
        print ("Skipped unreadable directories: " ++ (← textsInRow s.header.skipped))) := by
    refine (keepsDisk_print _).bind fun _ => ?_
    refine (keepsDisk_print _).bind fun _ => ?_
    refine (keepsDisk_print _).bind fun _ => ?_
    exact keepsDisk_ite (keepsDisk_printRow _ _) (keepsDisk_pure ())
  refine keepsDisk_ite ?_ hrest
  refine (keepsDisk_textsInRow _).bind fun _ => ?_
  exact (keepsDisk_print _).bind fun _ => hrest

/-- Printing what was found keeps the disk. -/
theorem keepsDisk_printVerdict (s : Survey) : KeepsDisk (printVerdict s) := by
  unfold printVerdict
  refine (keepsDisk_print _).bind fun _ => ?_
  refine keepsDisk_ite (keepsDisk_print _) ?_
  refine (keepsDisk_printEach _ _).bind fun _ => ?_
  refine keepsDisk_ite ?_ (keepsDisk_pure ())
  refine (keepsDisk_print _).bind fun _ => ?_
  exact (keepsDisk_printEach _ _).bind fun _ => keepsDisk_pure ()

/-- Printing the advice keeps the disk. -/
theorem keepsDisk_printAdvice (a : Advice) : KeepsDisk (printAdvice a) := by
  unfold printAdvice
  refine (keepsDisk_print _).bind fun _ => ?_
  refine (keepsDisk_print _).bind fun _ => ?_
  refine (keepsDisk_print _).bind fun _ => ?_
  exact (keepsDisk_printEach _ _).bind fun _ => keepsDisk_pure ()

/-! ### The snapshot -/

variable {root : Location} {out : String}

/-- The name of the snapshot is one that a directory can hold. -/
theorem isName_snapshot : Path.IsName Snapshot.fileName := by decide

/-- A change leaves the disk as far as it went. -/
theorem disk_change (c : Entry → Entry.Change) (w : Workspace) :
    ((Work.change c).run w).2.disk = (c w.disk).1 := by
  have hdone : ∀ p : Entry.Change, ((Work.change fun _ => p).run w).2.disk = p.1 := by
    rintro ⟨disk, refused⟩
    cases refused <;> rfl
  exact hdone (c w.disk)

/-- The directory for output is the one of the options, and to find it changes nothing. -/
theorem outputDirectory_yields (root : Location) (w : Workspace) :
    Yields (outputDirectory root) w
      ((Surveyor.optionsOf w.disk root Overrides.none).map fun o =>
        Path.join root.text o.outputDirectory) w.disk := by
  unfold outputDirectory
  have hoptions := Surveyor.options_yields root Overrides.none w
  cases ho : Surveyor.optionsOf w.disk root Overrides.none with
  | error f =>
    rw [ho] at hoptions
    exact hoptions.bind_error
  | ok o =>
    rw [ho] at hoptions
    refine hoptions.bind ?_
    intro w' hw'
    rw [← hw'.disk]
    exact yields_pure _ w'

end CommandLine

end ProjectSurvey
