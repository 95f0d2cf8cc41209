import ProjectSurvey.Failure

/-!
# Loading a configuration

From a path to the configuration that goes with it. **Links are followed before the file is read**,
so the name in a failure is that of the file which holds the text, whatever the configuration was
asked for by.
-/

namespace ProjectSurvey.Configuration

/-- The configuration for an absolute path, which is empty if there is no file. **Only a file that
is there is ever to blame**: where the system refuses to say whether it is, that is no fault of
its. -/
def load (disk : Entry) (path : String) : Except Failure Configuration :=
  match filePath disk path with
  | .error f => .error (.refused f path)
  | .ok file =>
    match disk.resolve file with
    | .error f => .error (Failure.ofUnresolved f)
    | .ok l =>
      match disk.existsAt l.text with
      | .error f => .error (.refused f l.text)
      | .ok false => .ok empty
      | .ok true =>
        match ofFile disk l with
        | .error f => .error (.configuration l.name f)
        | .ok c => .ok c

end ProjectSurvey.Configuration
