import ProjectSurvey.Json.Reader
import ProjectSurvey.Snapshot.Extent
import ProjectSurvey.Workspace

/-!
# Snapshots on the disk

The snapshot in a file. **A file that is not there, is no JSON or has not the parts of a snapshot
counts as no snapshot**; text that is no UTF-8, containers that nest too deeply and integers that
are too long are faults of their own, and so is a value in the place of a table. Saving makes the
directories around the file first and the text next: **a snapshot without a text leaves the file as
it is**.
-/

namespace ProjectSurvey.Snapshot

/-- Whether a misfit means no more than that there is no snapshot. -/
def Misfit.meansAbsent : Misfit → Bool
  | noTable => false
  | _ => true

/-- The name of the file that holds the snapshot of a project. -/
def fileName : String := "analysis.json"

/-- The snapshot that a text holds, if it holds one. -/
def ofText (cs : List Char) : Except Failure (Option Snapshot) :=
  match Json.parse cs with
  | .error .malformed => .ok none
  | .error f => .error (.unread f)
  | .ok (.table members) =>
    match ofDatum (.table members) with
    | .ok s => .ok (some s)
    | .error m => if m.meansAbsent then .ok none else .error (.misfit m)
  | .ok _ => .ok none

/-- The snapshot that the file at a path holds, if it holds one. -/
def load (disk : Entry) (path : String) : Except Failure (Option Snapshot) :=
  match disk.readText path with
  | .error (.refused .zero) => .error (.refused .zero path)
  | .error (.refused _) => .ok none
  | .error (.undecodable f) => .error (.undecodable f)
  | .ok cs => ofText cs

/-- Saves a snapshot in a file of a directory. -/
def save (s : Snapshot) (directory name : String) : Work Unit := do
  let time := (← get).time
  Work.change fun disk => disk.makeDirectories directory
  let text ← Work.ofExcept s.text?
  Work.change fun disk => disk.writeText time (Path.join directory name) text

end ProjectSurvey.Snapshot
