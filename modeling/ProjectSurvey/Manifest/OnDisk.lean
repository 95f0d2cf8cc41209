import ProjectSurvey.Disk.Access
import ProjectSurvey.Failure
import ProjectSurvey.Manifest.Data

/-!
# The manifests of a project

Every known manifest among the files at the root. **A manifest that cannot be read is there with
nothing in it**, beside the reason; the others do not suffer from it.
-/

namespace ProjectSurvey

/-- A fault in words. -/
def ManifestFault.reason : ManifestFault → String
  | .json _ => "no JSON"
  | .toml _ => "no TOML"
  | .xml => "no XML"
  | .noObject name => name ++ " must contain an object"
  | .unshowable => Failure.unshowableText

namespace Manifest

/-- A manifest that was looked for: what it declares, and why it was not read if it was not. -/
structure Found where
  /-- What it declares. -/
  manifest : Manifest
  /-- Why it was not read. -/
  unread : Option String

/-- The manifest of a name in the directory at a path; nothing if the name is that of no
manifest. -/
def found? (disk : Entry) (root name : String) : Option Found :=
  (reader? name).map fun read =>
    match disk.readText (Path.join root name) with
    | .error (.refused f) => ⟨blank name, some (Failure.refusalText f (Path.join root name))⟩
    | .error (.undecodable f) => ⟨blank name, some (Failure.undecodableText f)⟩
    | .ok cs =>
      match read cs with
      | .ok m => ⟨m, none⟩
      | .error f => ⟨blank name, some f.reason⟩

/-- The manifests among the files at the root, with their names. -/
def foundAmong (disk : Entry) (root : String) (rootFiles : List String) :
    List (String × Found) :=
  rootFiles.filterMap fun name => (found? disk root name).map fun f => (name, f)

end Manifest

end ProjectSurvey
