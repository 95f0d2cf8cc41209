import ProjectSurvey.Disk.Access
import ProjectSurvey.Failure
import ProjectSurvey.FileReport
import ProjectSurvey.Walk

/-!
# Reports on files

The report on a file of a project, links followed. **The file need not be in the project**: one that
is elsewhere is shown with its absolute path. Octets that are no UTF-8 are left out of its text. The
facts about the file are collected as on a walk, but from what the links lead to.
-/

namespace ProjectSurvey.FileReport

/-- The path of a location as it is shown in a project: from the root of the project if it is
there. -/
def shownPath (root l : Location) : String :=
  match Location.below? root l with
  | some names => "/".intercalate names
  | none => l.text

/-- How many characters are looked at when the file is classified. -/
def sampleLength : Nat := 4096

/-- The facts about a file at a location that holds a text. -/
def recordAt (t : Tables) (root l : Location) (size : Nat) (modified : Int) (text : List Char) :
    FileRecord where
  path := shownPath root l
  size := size
  extension := Text.lowered (Path.extension l.name)
  kind := classify t (shownPath root l) (some (text.take sampleLength))
  modified := Walk.seconds modified
  modifiedNs := modified

/-- The report on the file at a path in a project, which may have at most `limit` octets. -/
def ofFile (t : Tables) (rules : List Rule) (limit : Int) (disk : Entry) (root : Location)
    (path : String) : Except Failure FileReport :=
  match disk.resolve (Path.join root.text path) with
  | .error f => .error (Failure.ofUnresolved f)
  | .ok l =>
    match disk.seek l.text with
    | .error f => .error (.refused f l.text)
    | .ok (some (.file octets modified)) =>
      if limit < octets.length then
        .error (.invalid ("File exceeds " ++ String.ofList (Text.decimalInt limit) ++ " bytes: " ++
          path))
      else
        let text := Text.unifyLineEnds (Text.Utf8.decodeForgiving octets)
        .ok (ofRecord rules (recordAt t root l octets.length modified text) text)
    | .ok (some _) => .error (.isDirectory ("Path is a directory: " ++ path))
    | .ok none => .error (.notFound ("File not found: " ++ path))

end ProjectSurvey.FileReport
