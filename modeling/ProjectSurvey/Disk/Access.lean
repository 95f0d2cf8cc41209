import ProjectSurvey.Disk.Lookup
import ProjectSurvey.Text.Lines
import ProjectSurvey.Text.Utf8

/-!
# Reading from the disk

Whether a path leads somewhere, and the octets and texts of files. Every path here is absolute and
its links are followed. **A question about a path is answered with no where the path leads
nowhere**; only a name that is too long is refused.
-/

namespace ProjectSurvey

/-- Why a text was not read from the disk. -/
inductive TextFault where
  /-- The system refuses. -/
  | refused (f : AccessFault)
  /-- The octets are no UTF-8. -/
  | undecodable (f : Text.Utf8.Fault)
  deriving DecidableEq

namespace Entry

/-- The entry that a path leads to; nothing where it leads nowhere. -/
def seek (disk : Entry) (path : String) : Except AccessFault (Option Entry) :=
  match disk.locate true path with
  | .ok (_, e) => .ok (some e)
  | .error f => if f.meansAbsent then .ok none else .error f

/-- Whether a path leads to an entry. -/
def existsAt (disk : Entry) (path : String) : Except AccessFault Bool :=
  (disk.seek path).map Option.isSome

/-- Whether a path leads to a directory. -/
def directoryAt (disk : Entry) (path : String) : Except AccessFault Bool :=
  (disk.seek path).map fun e => (e.map isDirectory).getD false

/-- The octets of the file that a path leads to. -/
def readOctets (disk : Entry) (path : String) : Except AccessFault (List UInt8) :=
  match disk.locate true path with
  | .ok (_, file octets _) => .ok octets
  | .ok (_, _) => .error .isDirectory
  | .error f => .error f

/-- The text of the file that a path leads to, with line ends made one. -/
def readText (disk : Entry) (path : String) : Except TextFault (List Char) :=
  match disk.readOctets path with
  | .error f => .error (.refused f)
  | .ok octets =>
    match Text.Utf8.decode? octets with
    | some cs => .ok (Text.unifyLineEnds cs)
    | none => .error (.undecodable (Text.Utf8.fault octets))

/-- The text of the file that a path leads to, if it is no longer than `limit` octets and can be
read. -/
def readWithin (disk : Entry) (limit : Int) (path : String) : Option (List Char) :=
  match disk.readOctets path with
  | .error _ => none
  | .ok octets =>
    if limit < octets.length then none
    else (Text.Utf8.decode? octets).map Text.unifyLineEnds

end Entry

end ProjectSurvey
