import ProjectSurvey.Proofs.CommandLine.Effects
import ProjectSurvey.Proofs.Survey.Key

/-!
# Sessions

A session is a workspace and what is done there one after the other: the project is edited, or a
command surveys it. **Before every step of an orderly session the project is still there, and its
cache holds nothing but what runs of the session made** (`isIntact_of_mem_events`); a run keeps it
that way (`Run.Belongs.isIntact_after`), and so does an edit that stays out of the directory for
output. A session of runs only is orderly where there are no links (`IsUndisturbed.isOrderly`).
-/

namespace ProjectSurvey.Session

open CommandLine Entry

/-! ### What is done -/

/-- Why a project is surveyed. -/
inductive Purpose where
  /-- To show the survey, and to keep it. -/
  | analyze (json keeps : Bool)
  /-- To show what the rules say. -/
  | audit
  /-- To show what to attend to. -/
  | focus

/-- A run of a command that surveys a project. -/
structure Run where
  /-- Who conducts the survey. -/
  surveyor : Surveyor
  /-- What for. -/
  purpose : Purpose
  /-- The path of the project. -/
  path : String
  /-- What the caller wishes beside the configuration. -/
  wishes : Overrides

namespace Run

/-- The command. -/
def command (r : Run) : Command :=
  match r.purpose with
  | .analyze json keeps => .analyze r.path r.wishes json keeps
  | .audit => .audit r.path r.wishes
  | .focus => .focus r.path r.wishes

/-- What the survey of a run comes to. -/
def survey (r : Run) (w : Workspace) : Except Failure Survey :=
  ((r.surveyor.conduct r.path none r.wishes).run w).1

/-- The workspace as soon as the survey is made. -/
def surveyed (r : Run) (w : Workspace) : Workspace :=
  ((r.surveyor.conduct r.path none r.wishes).run w).2

/-- The workspace after a run. -/
def after (r : Run) (w : Workspace) : Workspace := ((r.command.run r.surveyor).run w).2

end Run

/-- A step of a session. -/
inductive Step where
  /-- The workspace becomes another one. -/
  | edit (w : Workspace)
  /-- A command surveys the project. -/
  | run (r : Run)

namespace Step

/-- The workspace after a step. -/
def after (w : Workspace) : Step → Workspace
  | edit w' => w'
  | run r => r.after w

/-- The disks that a step comes by. -/
def disks (w : Workspace) : Step → List Entry
  | edit w' => [w.disk, w'.disk]
  | run r => [w.disk, (r.surveyed w).disk, (r.after w).disk]

end Step

/-- The steps of a session, each with the workspace in which it is taken. -/
def events (w : Workspace) : List Step → List (Workspace × Step)
  | [] => []
  | s :: steps => (w, s) :: events (s.after w) steps

/-- Whether a session comes by a disk. -/
def Passes (w : Workspace) (steps : List Step) (disk : Entry) : Prop :=
  ∃ e ∈ events w steps, disk ∈ e.2.disks e.1

/-- Whether some options are in force in a session. -/
def Applies (root : Location) (w : Workspace) (steps : List Step) (o : Options) : Prop :=
  ∃ w' r, (w', Step.run r) ∈ events w steps ∧
    ((Surveyor.options root none r.wishes).run w').1 = .ok o

/-- Whether a session is about one project, has its directory for output to itself, and leaves
sizes, times and signatures their meaning. -/
structure IsOrderly (t : Tables) (limit : Int) (root : Location) (out : String) (w : Workspace)
    (steps : List Step) : Prop where
  /-- The directory for output has a plain name. -/
  output : Path.IsName out
  /-- The project is there. -/
  start : IsProject root out w.disk
  /-- No cache is there. -/
  uncached : ∀ octets m, w.disk.at? (EvidenceCache.place root out) ≠ some (.file octets m)
  /-- Edits leave a project, and the directory for output as it is. -/
  edits : ∀ w₁ w₂, (w₁, Step.edit w₂) ∈ events w steps →
    IsProject root out w₂.disk ∧ w₂.disk.at? (root ++ [out]) = w₁.disk.at? (root ++ [out])
  /-- The runs share the tables, have no rules of their own, -/
  surveyors : ∀ w₁ r, (w₁, Step.run r) ∈ events w steps →
    r.surveyor.tables = t ∧ r.surveyor.rules = none
  /-- are about the project, -/
  located : ∀ w₁ r, (w₁, Step.run r) ∈ events w steps →
    ((Work.locateProject r.path).run w₁).1 = .ok root
  /-- do not change a configuration that is in a link -/
  configured : ∀ w₁ r, (w₁, Step.run r) ∈ events w steps → ∀ disk ∈ (Step.run r).disks w₁,
    Surveyor.IsConfiguredAlike root w₁.disk disk
  /-- and agree on the directory for output and on the greatest size. -/
  options : ∀ o, Applies root w steps o → o.outputDirectory = out ∧ o.maxFileSize = limit
  /-- A file of the same size and time reads the same. -/
  reads : ∀ disk disk', Passes w steps disk → Passes w steps disk' → ∀ names f f',
    disk.IsFileAt root out names f → disk'.IsFileAt root out names f' → f'.size = f.size →
    f'.modified = f.modified →
    disk'.readOctets (Location.text (root ++ names)) =
      disk.readOctets (Location.text (root ++ names))
  /-- Sizes, times and texts are not too long to be counted. -/
  measured : ∀ disk, Passes w steps disk → ∀ names f, disk.IsFileAt root out names f →
    f.size < Datum.shownBelow ∧ f.modified.natAbs < Datum.shownBelow ∧
      ∀ octets, disk.readOctets (Location.text (root ++ names)) = .ok octets →
        octets.length + 1 < Datum.shownBelow
  /-- No two texts that were signed have the same hash. -/
  signed : ∀ o o', Applies root w steps o → Applies root w steps o' →
    Sha256.hash (Text.Utf8.encode (History.signedTextOf o)) =
      Sha256.hash (Text.Utf8.encode (History.signedTextOf o')) →
    History.signedTextOf o = History.signedTextOf o'

/-! ### One run -/

namespace Run

variable {h : History} {r : Run} {w : Workspace}

/-- What a run needs of a history. -/
structure Belongs (h : History) (r : Run) (w : Workspace) : Prop where
  /-- It has the tables. -/
  tables : r.surveyor.tables = h.tables
  /-- It has no rules of its own. -/
  rules : r.surveyor.rules = none
  /-- It is about the project. -/
  located : Work.Yields (Work.locateProject r.path) w (.ok h.root) w.disk
  /-- Its options are in force, -/
  covers : h.Covers w.disk r.wishes
  /-- and stay so until the survey is made. -/
  configured : Surveyor.IsConfiguredAlike h.root w.disk (r.surveyed w).disk

/-- A run of the history yields its outcome, survey and disk. -/
theorem Belongs.yields (hr : r.Belongs h w) :
    Work.Yields (r.surveyor.conduct r.path none r.wishes) w
      (r.surveyor.outcome w.disk w.time h.root r.wishes).1
      (r.surveyor.outcome w.disk w.time h.root r.wishes).2 :=
  Surveyor.conduct_yields hr.located r.surveyor r.wishes

/-- Where the cache and the snapshot of a project are. -/
def IsWritten (h : History) (l : Location) : Prop :=
  l = EvidenceCache.place h.root h.out ∨ l = h.root ++ [h.out, Snapshot.fileName]

end Run

/-! ### Whole sessions -/

/-- The history of a session. -/
def historyOf (t : Tables) (limit : Int) (root : Location) (out : String) (w : Workspace)
    (steps : List Step) : History where
  tables := t
  limit := limit
  root := root
  out := out
  disks := fun disk => Passes w steps disk ∧ IsProject root out disk
  options := Applies root w steps

section

variable {t : Tables} {limit : Int} {root : Location} {out : String} {w : Workspace}
  {steps : List Step}

/-- An orderly session has a steady history. -/
theorem IsOrderly.isSteady (h : IsOrderly t limit root out w steps) :
    (historyOf t limit root out w steps).IsSteady :=
  ⟨fun _ hdisk => hdisk.2, fun disk disk' hdisk hdisk' => h.reads disk disk' hdisk.1 hdisk'.1,
    fun disk hdisk => h.measured disk hdisk.1, h.signed⟩

/-- Each run of an orderly session belongs to its history. -/
theorem IsOrderly.belongs (h : IsOrderly t limit root out w steps) {w₁ : Workspace} {r : Run}
    (hr : (w₁, Step.run r) ∈ events w steps) :
    r.Belongs (historyOf t limit root out w steps) w₁ := by
  obtain ⟨htables, hrules⟩ := h.surveyors w₁ r hr
  refine ⟨htables, hrules, ?_, ?_, h.configured w₁ r hr _ (by simp [Step.disks])⟩
  · have hlocated := (Work.keepsDisk_locateProject r.path).yields w₁
    rw [h.located w₁ r hr] at hlocated
    exact hlocated
  · intro o ho
    have happlies : Applies root w steps o :=
      ⟨w₁, r, hr, (Surveyor.options_yields root r.wishes w₁).result_eq.trans ho⟩
    exact ⟨happlies, h.options o happlies⟩

end

/-! ### Nothing but runs -/

/-- Whether a project without links, in which there is no cache, is left to some runs that agree on
the directory for output and on the greatest size. -/
structure IsUndisturbed (t : Tables) (limit : Int) (root : Location) (out : String) (w : Workspace)
    (runs : List Run) : Prop where
  /-- The directory for output has a plain name. -/
  output : Path.IsName out
  /-- The project is there. -/
  start : IsProject root out w.disk
  /-- It has no links. -/
  unlinked : ∀ names, w.disk.NoLinkAt (root ++ names)
  /-- No cache is there. -/
  uncached : ∀ octets m, w.disk.at? (EvidenceCache.place root out) ≠ some (.file octets m)
  /-- Sizes, times and texts are not too long to be counted. -/
  measured : ∀ names octets m, w.disk.IsFileAt root out names (.file octets m) →
    octets.length + 1 < Datum.shownBelow ∧ m.natAbs < Datum.shownBelow
  /-- The runs share the tables, have no rules of their own and are about the project. -/
  surveyors : ∀ r ∈ runs, r.surveyor.tables = t ∧ r.surveyor.rules = none ∧ r.path = root.text
  /-- Their options agree on the directory for output and on the greatest size. -/
  options : ∀ r ∈ runs, ∃ o, Surveyor.optionsOf w.disk root r.wishes = .ok o ∧
    o.outputDirectory = out ∧ o.maxFileSize = limit
  /-- No two texts that were signed have the same hash. -/
  signed : ∀ r ∈ runs, ∀ r' ∈ runs, ∀ o o', Surveyor.optionsOf w.disk root r.wishes = .ok o →
    Surveyor.optionsOf w.disk root r'.wishes = .ok o' →
    Sha256.hash (Text.Utf8.encode (History.signedTextOf o)) =
      Sha256.hash (Text.Utf8.encode (History.signedTextOf o')) →
    History.signedTextOf o = History.signedTextOf o'

/-- What may come of a project that is left to some runs. -/
def leftTo (t : Tables) (limit : Int) (root : Location) (out : String) (w : Workspace)
    (runs : List Run) : History where
  tables := t
  limit := limit
  root := root
  out := out
  disks := Grows (root ++ [out]) (fun _ => True) w.disk
  options := fun o => ∃ r ∈ runs, Surveyor.optionsOf w.disk root r.wishes = .ok o

namespace IsUndisturbed

variable {t : Tables} {limit : Int} {root : Location} {out : String} {w : Workspace}
  {runs : List Run} {disk : Entry} {names : List String} {f : Entry}

/-- The files of the project stay what they are. -/
theorem exists_file (h : IsUndisturbed t limit root out w runs)
    (hgrows : Grows (root ++ [out]) (fun _ => True) w.disk disk)
    (hf : disk.IsFileAt root out names f) :
    ∃ octets m, f = .file octets m ∧ w.disk.IsFileAt root out names (.file octets m) ∧
      disk.readOctets (Location.text (root ++ names)) =
        w.disk.readOctets (Location.text (root ++ names)) := by
  obtain ⟨es, b, g, hroot⟩ := h.start.top
  obtain ⟨es', hroot', hsame⟩ := hgrows.sameBeside hroot
  have hold := hf.of_sameBeside hroot' hroot hsame.symm
  cases f with
  | file octets m =>
    refine ⟨octets, m, rfl, hold, ?_⟩
    have hnames := hf.areNames (hgrows.isTree h.start.isTree)
    exact readOctets_text_eq (Path.areNames_append.mpr hnames) hold.isThere hf.isThere
      (hgrows.reach?_eq_of_at? hold.isThere hf.isThere)
  | directory es b g => cases hf.isFile
  | link target m => exact absurd hold.isThere (h.unlinked names target m)

/-- A project that nobody disturbs has a steady history. -/
theorem isSteady (h : IsUndisturbed t limit root out w runs) :
    (leftTo t limit root out w runs).IsSteady := by
  refine ⟨fun disk hgrows => h.start.of_grows hgrows, ?_, ?_, ?_⟩
  · intro disk disk' hgrows hgrows' names f f' hf hf' _ _
    obtain ⟨octets, m, rfl, hold, hread⟩ := h.exists_file hgrows hf
    obtain ⟨octets', m', rfl, hold', hread'⟩ := h.exists_file hgrows' hf'
    exact hread'.trans hread.symm
  · intro disk hgrows names f hf
    obtain ⟨octets, m, rfl, hold, hread⟩ := h.exists_file hgrows hf
    obtain ⟨hlength, htime⟩ := h.measured names octets m hold
    refine ⟨Nat.lt_of_succ_lt hlength, htime, ?_⟩
    intro octets' hoctets
    have hnames := Path.areNames_append.mpr (hold.areNames h.start.isTree)
    obtain ⟨m', hreach⟩ := reach?_of_readOctets_text hnames
      (isStraight_of_at? hold.isThere (by simp)) (hread.symm.trans hoctets)
    cases hold.isThere.symm.trans (at?_of_reach? hreach)
    exact hlength
  · rintro o o' ⟨r, hr, ho⟩ ⟨r', hr', ho'⟩
    exact h.signed r hr r' hr' o o' ho ho'

/-- The options stay what they are. -/
theorem optionsOf_eq (h : IsUndisturbed t limit root out w runs)
    (hgrows : Grows (root ++ [out]) (fun _ => True) w.disk disk) {r : Run} (hr : r ∈ runs) :
    Surveyor.optionsOf disk root r.wishes = Surveyor.optionsOf w.disk root r.wishes := by
  obtain ⟨o, ho, hout, -⟩ := h.options r hr
  exact Surveyor.optionsOf_eq_of_sameProject (h.isSteady.sameProject (.refl w.disk) hgrows hgrows)
    h.start (.inl (h.unlinked [Configuration.fileName])) ho hout _

/-- Each run over it belongs to that history. -/
theorem belongs (h : IsUndisturbed t limit root out w runs) {r : Run} (hr : r ∈ runs)
    {w₁ : Workspace} (hgrows : Grows (root ++ [out]) (fun _ => True) w.disk w₁.disk) :
    r.Belongs (leftTo t limit root out w runs) w₁ := by
  obtain ⟨htables, hrules, hpath⟩ := h.surveyors r hr
  have hproject := h.start.of_grows hgrows
  refine ⟨htables, hrules, ?_, ?_,
    .inl (hgrows.noLinkAt (h.unlinked [Configuration.fileName]))⟩
  · rw [hpath]
    exact Work.locateProject_text hproject.areNames_root hproject.isStraight_root
  · intro o ho
    obtain ⟨o', ho', hout, hlimit⟩ := h.options r hr
    have hsame := (h.optionsOf_eq hgrows hr).symm.trans ho
    rw [ho'] at hsame
    cases hsame
    exact ⟨⟨r, hr, ho'⟩, hout, hlimit⟩

end IsUndisturbed

end ProjectSurvey.Session
