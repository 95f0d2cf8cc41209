import ProjectSurvey.CommandLine.Run
import ProjectSurvey.Disk.Exchange
import Std.Time.DateTime.Timestamp

/-!
# The program

What is between `CommandLine.execute` and the system. The files of a project are read into a disk,
the command line is run on it, and the steps from the one disk to the other are done: **nothing is
decided here**. Links are known by the path at their end, and one that leads nowhere as a link to
itself.
-/

namespace ProjectSurvey.Program

/-- The time of the system's clock, in nanoseconds. -/
def clock : IO Int := return (← Std.Time.Timestamp.now).toNanosecondsSinceUnixEpoch.val

/-- A time of the system in nanoseconds. -/
def nanoseconds (t : IO.FS.SystemTime) : Int := t.sec * 1000000000 + t.nsec.toNat

/-- The location of a path when all links are followed; nothing if it leads nowhere. -/
def real? (path : String) : IO (Option Location) := do
  try return some (Path.components (← IO.FS.realPath path).toString)
  catch _ => return none

/-- What is at a real location: a directory with everything below it or, if `whole` does not hold,
as an empty one. -/
partial def entryAt (whole : Bool) (l : Location) : IO Entry := do
  let path ← IO.FS.realPath l.text
  let facts ← path.metadata
  match facts.type with
  | .dir =>
    if !whole then return .ofEntries []
    let names ← try pure (some (← path.readDir)) catch _ => pure none
    let some names := names | return .directory [] .denied true
    let mut entries := []
    let mut searchable := true
    for d in names do
      let name := d.fileName
      let known ← try pure (some (← d.path.symlinkMetadata)) catch _ => pure none
      match known with
      | none => searchable := false
      | some known =>
        let e ← match known.type with
          | .symlink => do
            let target := (← real? (l.child name).text).getD (l.child name)
            pure (.link target.text (nanoseconds known.modified))
          | _ => entryAt whole (l.child name)
        entries := (name, e) :: entries
    return .directory entries.reverse .granted searchable
  | .file =>
    let octets ← try pure (← IO.FS.readBinFile path).toList catch _ => pure []
    return .file octets (nanoseconds facts.modified)
  | _ => return .file [] (nanoseconds facts.modified)

/-- The disk with what an absolute path leads to, and the links on the way there. -/
def bring (whole : Bool) (disk : Entry) (path : String) : IO Entry := do
  let mut disk := disk
  let mut here : Location := []
  for name in Path.components path do
    if name = ".." then here := here.dropLast
    else
      let next := here.child name
      match ← real? next.text with
      | none => return disk
      | some l =>
        if l ≠ next then disk := disk.plant next (.link l.text 0)
        if (disk.at? l).isNone then disk := disk.plant l (← entryAt false l)
        here := l
  if whole then return disk.plant here (← entryAt true here) else return disk

/-- The disk with what the links in an entry lead to. -/
def bringTargets (disk : Entry) (paths : List String) : IO Entry :=
  paths.foldlM (fun disk path =>
    if (disk.at? (Path.components path)).isSome then pure disk else bring false disk path) disk

/-- A workspace with all that a command looks at: its project, what it names, and the directory for
output that the project asks for. -/
def workspaceFor (c : CommandLine.Command) (w : Workspace) : IO Workspace := do
  let absolute (path : String) : String := Path.join w.directory.text path
  let named := (c.project :: c.otherPaths).map absolute
  let disk ← named.foldlM (bring true) (← bring false w.disk w.directory.text)
  let seen := { w with disk }
  let output : Work String := do CommandLine.outputDirectory (← Work.locateProject c.project)
  let disk ← match (output.run seen).1 with
    | .ok path => bring true disk path
    | .error _ => pure disk
  return { w with disk := ← bringTargets disk disk.targets }

/-- Does a step in the store of files. -/
def perform : Entry.Edit → IO Unit
  | .remove l => do IO.FS.removeDirAll (← IO.FS.realPath l.text)
  | .makeDirectory l => IO.FS.createDirAll l.text
  | .write l octets => IO.FS.writeBinFile l.text (ByteArray.mk octets.toArray)

/-- Says how a command line ended; the result is the status for the system. -/
def finish : CommandLine.Ending → IO UInt32
  | .done => return 0
  | .misused .helpAsked => do
    IO.println usage
    return 0
  | .misused .wrongUse => do
    IO.eprintln usage
    return 2
  | .refused text => do
    IO.eprint text
    return 1
  | .broken _ => do
    IO.eprintln "The command broke down."
    return 1
where
  /-- How the program is used. -/
  usage : String :=
    "usage: devassist [-h] [-v] \x7b" ++ ",".intercalate (CommandLine.Command.forms.map (·.name)) ++
      "\x7d ..."

end ProjectSurvey.Program

open ProjectSurvey ProjectSurvey.Program in
/-- Runs the command line in the current directory. -/
def main (args : List String) : IO UInt32 := do
  let now ← clock
  let homes := ((← IO.getEnv "HOME").map fun h => ("", h)).toList
  let empty : Workspace :=
    ⟨.ofEntries [], ((← real? ".").getD []), homes, now, [], []⟩
  let start ← match CommandLine.Command.parse args with
    | .ok i => workspaceFor i.command empty
    | .error _ => pure empty
  let surveyor : Surveyor := ⟨Tables.default, none, Moment.ofNanoseconds now⟩
  let (ending, w) := CommandLine.execute surveyor args start
  (Entry.edits [] (some start.disk) w.disk).forM perform
  w.printed.forM IO.println
  (w.notices.map CommandLine.logLine).forM IO.eprintln
  finish ending
