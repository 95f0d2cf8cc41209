import ProjectSurvey.Proofs.Snapshot.RoundTrip
import ProjectSurvey.Proofs.Survey.Frame
import ProjectSurvey.Snapshot.Load

/-!
# Saving surveys

Saving a snapshot makes the directories around its file and writes its text (`Snapshot.save`).
**Where there is room, what is saved of a survey is loaded as the same survey, and saved again it
gives the same text; a survey without a text leaves every file as it is** (`load_saved`).
-/

namespace ProjectSurvey

namespace Snapshot

open Entry Json Work

variable {w : Workspace} {front : Location} {n : String}

/-- How saving goes on once the directories are made. -/
theorem save_run {s : Snapshot} (hl : Path.AreNames (front ++ [n])) {disk : Entry}
    (hmake : w.disk.makeDirectories front.text = (disk, none)) :
    (s.save front.text n).run w =
      ((Work.ofExcept s.text?) >>= fun text =>
        Work.change fun disk => disk.writeText w.time (front ++ [n]).text text).run
          { w with disk } := by
  obtain ⟨hfront, hn⟩ := Path.areNames_append.mp hl
  unfold save
  rw [run_bind, run_get]
  dsimp only
  rw [run_bind, change_run, hmake, Surveyor.join_text_name hfront (Path.areNames_cons.mp hn).1]

/-- **A snapshot with a text is saved** where there is room, and there is room afterwards. -/
theorem save_yields {s : Snapshot} (hl : Path.AreNames (front ++ [n]))
    (hplace : w.disk.HasRoom front n)
    {text : List Char} (htext : s.text? = .ok text) :
    ∃ disk, Yields (s.save front.text n) w (.ok ()) disk ∧ disk.HasRoom front n ∧
      disk.reach? (front ++ [n]) = some (.file (Text.Utf8.encode text) w.time) := by
  obtain ⟨disk, hmake, -, hroom, es, b, hdir⟩ := hplace.makeDirectories_eq hl
  obtain ⟨hwrite, hroom'⟩ := hroom.writeText_eq hl hdir w.time text
  refine ⟨_, ⟨{ w with disk := disk.put (front ++ [n]) _ }, ?_, rfl, rfl, rfl, rfl⟩, hroom',
    reach?_put_self hdir n _⟩
  rw [save_run hl hmake, htext, run_bind]
  show (Work.change _).run _ = _
  rw [change_run, hwrite]

/-- **A snapshot without a text is not saved**, and no file comes about or changes. -/
theorem save_yields_of_error {s : Snapshot} (hl : Path.AreNames (front ++ [n]))
    (hplace : w.disk.HasRoom front n) {f : Failure} (htext : s.text? = .error f) :
    ∃ disk, Yields (s.save front.text n) w (.error f) disk ∧ ∀ k octets m,
      disk.at? k = some (.file octets m) ↔ w.disk.at? k = some (.file octets m) := by
  obtain ⟨disk, hmake, hfiles, -, -⟩ := hplace.makeDirectories_eq hl
  refine ⟨disk, ⟨{ w with disk }, ?_, rfl, rfl, rfl, rfl⟩, fun k octets m => hfiles k _ rfl⟩
  rw [save_run hl hmake, htext, run_bind]
  rfl

/-- A text of visible characters in a file is read as it is. -/
theorem load_of_reach? {disk : Entry} {l : Location} (hl : Path.AreNames l)
    (hcheck : checkPath l.text = .ok ()) {text : List Char} (hkept : ∀ c ∈ text, Text.IsKept c)
    {time : Int} (hfile : disk.reach? l = some (.file (Text.Utf8.encode text) time)) :
    load disk l.text = ofText text := by
  have hread : disk.readOctets l.text = .ok (Text.Utf8.encode text) := by
    rw [readOctets_text_of_file hl hfile, hcheck]
    rfl
  unfold load
  rw [readText_of_isKept hkept hread]

/-- **What is saved of a survey is loaded as the same survey**, the order of its mappings apart, and
saved again it gives the same text. A survey that goes too far down or holds an integer that is too
long is not saved, and no file comes about or changes. -/
theorem load_saved {r : Survey} (h : r.IsTyped)
    (hmodified : ∀ f ∈ r.tree.allFiles, IsRestored f.modified)
    (hl : Path.AreNames (front ++ [n])) (hplace : w.disk.HasRoom front n) :
    (steps (ofSurvey r).toDatum ≤ room → (ofSurvey r).toDatum.isShowable = true →
      ∃ text disk areas nodes histogram,
        (ofSurvey r).text? = .ok text ∧
        Yields ((ofSurvey r).save front.text n) w (.ok ()) disk ∧
        disk.reach? (front ++ [n]) = some (.file (Text.Utf8.encode text) w.time) ∧
        areas.Perm r.layout.directories ∧ nodes.Perm r.graph.nodes ∧
        histogram.Perm r.metrics.histogram ∧
        load disk (front ++ [n]).text =
          .ok (some (ofSurvey (r.withMappings areas nodes histogram))) ∧
        (ofSurvey (r.withMappings areas nodes histogram)).text? = .ok text ∧
        ∀ w', w'.disk = disk → ∃ disk',
          Yields ((ofSurvey (r.withMappings areas nodes histogram)).save front.text n) w' (.ok ())
            disk' ∧
          disk'.reach? (front ++ [n]) = some (.file (Text.Utf8.encode text) w'.time)) ∧
    (room < steps (ofSurvey r).toDatum ∨ (ofSurvey r).toDatum.isShowable = false →
      ∃ f disk, (f = .tooDeep ∧ room < steps (ofSurvey r).toDatum ∨
          f = .invalid Failure.unshowableText ∧ (ofSurvey r).toDatum.isShowable = false) ∧
        Yields ((ofSurvey r).save front.text n) w (.error f) disk ∧ ∀ k octets m,
          disk.at? k = some (.file octets m) ↔ w.disk.at? k = some (.file octets m)) := by
  constructor
  · intro hroom hshow
    have htext := text?_eq_ok_iff.mpr ⟨hroom, hshow, rfl⟩
    obtain ⟨hkept, hread⟩ := ofText_of_text? h hmodified htext
    obtain ⟨disk, hsaved, hplace', hfile⟩ := save_yields hl hplace htext
    have hcheck : checkPath (front ++ [n]).text = .ok () := by
      rw [checkPath_text hl, if_neg (Nat.not_lt.mpr hplace.path)]
    refine ⟨_, disk, _, _, _, htext, hsaved, hfile, sortMembers_perm _, sortMembers_perm _,
      sortMembers_perm _, (load_of_reach? hl hcheck hkept hfile).trans hread,
      text?_inOrder htext, ?_⟩
    rintro w' rfl
    obtain ⟨disk', hsaved', -, hfile'⟩ := save_yields hl hplace' (text?_inOrder htext)
    exact ⟨disk', hsaved', hfile'⟩
  · intro hfault
    by_cases hroom : room < steps (ofSurvey r).toDatum
    · have htext : (ofSurvey r).text? = .error .tooDeep := by rw [text?_eq, if_pos hroom]
      obtain ⟨disk, hsaved, hfiles⟩ := save_yields_of_error hl hplace htext
      exact ⟨_, disk, .inl ⟨rfl, hroom⟩, hsaved, hfiles⟩
    · have hshow := hfault.resolve_left hroom
      have htext : (ofSurvey r).text? = .error (.invalid Failure.unshowableText) := by
        rw [text?_eq, if_neg hroom, hshow, if_neg Bool.false_ne_true]
      obtain ⟨disk, hsaved, hfiles⟩ := save_yields_of_error hl hplace htext
      exact ⟨_, disk, .inr ⟨rfl, hshow⟩, hsaved, hfiles⟩

/-- A survey of a tree and a number of lines, with two nodes and a finding. -/
def sampleSurvey (tree : Directory) (lines : Int) : Survey where
  header := ⟨"p", "/p", "2024-01-01T00:00:00+00:00", "1.0", []⟩
  profile := .generic
  tree := tree
  layout := ⟨[], [], ["snake_case"]⟩
  dependencies := ⟨["left-pad"], [], []⟩
  graph := ⟨[("left-pad", ⟨"external", none, [], [], some "1.0"⟩),
    ("a.py", ⟨"source", some "python", ["f"], [], none⟩)], []⟩
  metrics := ⟨1, lines, [(".py", 1)], .low⟩
  verdict := ⟨90, [⟨.text "eval", .text "security", .text "error", .text "\"eval\" in a.py",
    .text "a.py", .int 1⟩], ["Do without \"eval\""]⟩
  security := []
  advice := ⟨[], "early", "low", [], "excellent", []⟩

/-- The survey of the example is typed. -/
theorem isTyped_sampleSurvey (tree : Directory) (lines : Int) :
    (sampleSurvey tree lines).IsTyped := by
  refine ⟨List.nodup_nil, show ["left-pad", "a.py"].Nodup by decide, List.nodup_singleton _, ?_,
    List.forall_mem_nil _⟩
  intro f hf
  rw [List.mem_singleton.mp hf]
  exact ⟨_, _, _, _, some "a.py", some 1, rfl⟩

/-- A directory in which directories nest. -/
def nestedDirectory : Nat → Directory
  | 0 => .node "a" "a" "" [] [] 0 0 true
  | n + 1 => .node "a" "a" "" [nestedDirectory n] [] 0 0 true

/-- Directories nested so deep take three steps each. -/
theorem steps_nestedDirectory (n : Nat) :
    3 * n ≤ steps (Folder.ofDirectory (nestedDirectory n)).toDatum := by
  induction n with
  | zero => exact Nat.zero_le _
  | succ n ih =>
    rw [nestedDirectory, Folder.ofDirectory, Folder.toDatum, Folder.ofDirectories,
      Folder.ofDirectories, Folder.toData, Folder.toData]
    refine Nat.le_trans ?_ (steps_le_of_mem (p := ("directories",
      .list [(Folder.ofDirectory (nestedDirectory n)).toDatum])) (by simp))
    dsimp only
    rw [steps]
    have hle := steps_le_stepsOf
      (List.mem_singleton_self (Folder.ofDirectory (nestedDirectory n)).toDatum)
    omega

/-- Directories that nest deeply and an integer that is too long keep a survey from being saved. -/
theorem text?_sampleSurvey :
    ((sampleSurvey (nestedDirectory 330) 0).IsTyped ∧
      (ofSurvey (sampleSurvey (nestedDirectory 330) 0)).text? = .error .tooDeep) ∧
    (sampleSurvey (nestedDirectory 0) Datum.shownBelow).IsTyped ∧
      (ofSurvey (sampleSurvey (nestedDirectory 0) Datum.shownBelow)).text? =
        .error (.invalid Failure.unshowableText) := by
  refine ⟨⟨isTyped_sampleSurvey _ _, ?_⟩, isTyped_sampleSurvey _ _, ?_⟩
  · have hdeep := steps_nestedDirectory 330
    have hsteps := steps_tree_lt (sampleSurvey (nestedDirectory 330) 0)
    have hroom : room < steps (ofSurvey (sampleSurvey (nestedDirectory 330) 0)).toDatum :=
      Nat.lt_of_lt_of_le (Nat.lt_of_lt_of_le (by decide) hdeep) (Nat.le_of_lt hsteps)
    rw [text?_eq, if_pos hroom]
  · have hroom : ¬ room <
        steps (ofSurvey (sampleSurvey (nestedDirectory 0) Datum.shownBelow)).toDatum := by
      decide
    have hshow : (ofSurvey (sampleSurvey (nestedDirectory 0) Datum.shownBelow)).toDatum.isShowable =
        false := by decide +kernel
    rw [text?_eq, if_neg hroom, hshow]
    rfl

/-- A file that was changed one and a half seconds after the epoch. -/
def sampleRecord : FileRecord :=
  ⟨"a.py", 6, ".py", ⟨"python", none, ["source"]⟩, .ofDigits false [1, 5] (-1), 1500000000⟩

/-- The time of its file is restored by reading. -/
theorem isRestored_sampleRecord : IsRestored sampleRecord.modified := by
  have htext : sampleRecord.modified.text writtenReals = ['1', '.', '5'] := by rfl
  unfold IsRestored
  rw [htext]
  show scalar ['1', '.', '5'] = .ok (.real (.ofDigits false [1, 5] (-1)), [])
  rfl

/-- The root of a project with one file. -/
def sampleTree : Directory := .node "p" "" "" [] [sampleRecord] 1 6 true

/-- A workspace with a project without a directory for output. -/
def sampleWorkspace : Workspace := ⟨.ofEntries [("p", .ofEntries [])], [], [], 1, [], []⟩

/-- A survey of one file with a fraction of a second in its time is saved and loaded. -/
theorem load_saved_sampleSurvey :
    ∃ text disk nodes,
      Yields ((ofSurvey (sampleSurvey sampleTree 1)).save "/p/.devassist" "analysis.json")
        sampleWorkspace (.ok ()) disk ∧
      disk.at? ["p", ".devassist", "analysis.json"] = some (.file (Text.Utf8.encode text) 1) ∧
      nodes.Perm (sampleSurvey sampleTree 1).graph.nodes ∧
      load disk "/p/.devassist/analysis.json" =
        .ok (some (ofSurvey ((sampleSurvey sampleTree 1).withMappings [] nodes [(".py", 1)]))) := by
  have hl : Path.AreNames (["p", ".devassist"] ++ ["analysis.json"]) := by
    simp only [Path.areNames_append, Path.areNames_cons, Path.areNames_nil]
    decide
  have hplace : sampleWorkspace.disk.HasRoom ["p", ".devassist"] "analysis.json" := by
    refine ⟨by decide, ?_, ?_, fun x hx => by cases hx⟩
    · simp only [List.cons_append, List.nil_append, List.forall_mem_cons]
      exact ⟨by decide, by decide, by decide, by simp⟩
    · have hp : sampleWorkspace.disk.IsOpen ["p"] := isOpen_of_reach? rfl
      refine hp.concat (n := ".devassist") ?_
      intro x hx
      cases hx
  have hmodified : ∀ f ∈ (sampleSurvey sampleTree 1).tree.allFiles, IsRestored f.modified := by
    intro f hf
    have hfiles : (sampleSurvey sampleTree 1).tree.allFiles = [sampleRecord] := rfl
    rw [hfiles] at hf
    rw [List.mem_singleton.mp hf]
    exact isRestored_sampleRecord
  obtain ⟨text, disk, areas, nodes, histogram, -, hsaved, hfile, hareas, hnodes, hhistogram,
    hload, -⟩ :=
    (load_saved (isTyped_sampleSurvey sampleTree 1) hmodified hl hplace).1 (by decide)
      (by decide +kernel)
  obtain rfl := List.perm_nil.mp hareas
  obtain rfl := List.perm_singleton.mp hhistogram
  exact ⟨text, disk, nodes, hsaved, at?_of_reach? hfile, hnodes, hload⟩

end Snapshot

end ProjectSurvey
