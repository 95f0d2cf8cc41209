import ProjectSurvey.Disk.Lookup
import ProjectSurvey.Text.Utf8

/-!
# Changing the disk

Making directories, writing files and removing whole trees by absolute path. **A directory is made
and a file is written as a whole or not at all**, except that directories made on the way to a
refused one stay. A tree is removed entry by entry, and only as far as the rights to its directories
go (`Entry.leftover`). Whoever may search a directory may change what is in it.
-/

namespace ProjectSurvey.Entry

/-- What a change comes to: a disk and, if the change was refused, the cause and the path. -/
abbrev Change := Entry × Option (AccessFault × String)

/-! ## Making directories and writing files -/

/-- Makes one directory, whose own directory must be there. -/
def makeDirectory (disk : Entry) (path : List String) : Except AccessFault Entry :=
  match path.getLast?, Entry.checkPath (Location.text path) with
  | none, _ => .error .occupied
  | some _, .error f => .error f
  | some name, .ok _ =>
    match disk.follow true linkLimit [] path.dropLast with
    | .error f => .error f
    | .ok (l, directory es _ searchable) =>
      if !searchable then .error .denied
      else if name = ".." then .error .occupied
      else
        match es.lookup name with
        | some _ => .error .occupied
        | none =>
          if nameLimit < name.utf8ByteSize then .error .longName
          else .ok (disk.put (l.child name) (ofEntries []))
    | .ok _ => .error .noDirectory

/-- Makes a directory unless one is there. -/
def ensureDirectory (disk : Entry) (path : List String) : Change :=
  match disk.makeDirectory path with
  | .ok disk => (disk, none)
  | .error f =>
    match disk.follow true linkLimit [] path with
    | .ok (_, directory ..) => (disk, none)
    | _ => (disk, some (f, Location.text path))

/-- Makes a directory with all directories around it, given its names from the last one on. -/
def makeAll (disk : Entry) : (reversed : List String) → Change
  | [] => disk.ensureDirectory []
  | name :: around =>
    let path := (name :: around).reverse
    match disk.makeDirectory path with
    | .ok disk => (disk, none)
    | .error .missing =>
      match makeAll disk around with
      | (disk, none) => disk.ensureDirectory path
      | refused => refused
    | .error _ => disk.ensureDirectory path

/-- Makes a directory with all directories around it, unless it is there. -/
def makeDirectories (disk : Entry) (path : String) : Change :=
  disk.makeAll (Path.components path).reverse

/-- Writes a text into a file, which is made if it is not there; links are followed. -/
def writeText (disk : Entry) (time : Int) (path : String) (text : List Char) : Change :=
  match disk.locate true path with
  | .ok (l, file ..) => (disk.put l (file (Text.Utf8.encode text) time), none)
  | .ok _ => (disk, some (.isDirectory, path))
  | .error .missing =>
    match disk.resolve path with
    | .error _ => (disk, some (.tooManyLinks, path))
    | .ok l =>
      match disk.at? l.dropLast with
      | some (directory ..) => (disk.put l (file (Text.Utf8.encode text) time), none)
      | some _ => (disk, some (.noDirectory, path))
      | none => (disk, some (.missing, path))
  | .error f => (disk, some (f, path))

/-! ## Removing -/

mutual

/-- What is left of an entry at a location when it is removed with everything below it, and what is
said to be refused; nothing if all of it goes. A directory is opened as `shown`. -/
def leftover (l : Location) (shown : String) : Entry → Option (Entry × String)
  | directory es listing searchable =>
    match listing with
    | .granted => (leftoverIn l searchable es).map fun (es, refused) =>
        (directory es listing searchable, refused)
    | .denied => some (directory es listing searchable, shown)
    | .failing => some (directory es listing searchable, l.text)
  | _ => none

/-- What is left of the entries of a directory at a location when they are removed one after the
other, up to the first that is refused; nothing if all of them go. -/
def leftoverIn (l : Location) (searchable : Bool) :
    List (String × Entry) → Option (List (String × Entry) × String)
  | [] => none
  | (n, e) :: es =>
    if searchable then
      match leftover (l.child n) n e with
      | none => leftoverIn l searchable es
      | some (e, refused) => some ((n, e) :: es, refused)
    else some ((n, e) :: es, n)

end

/-- Removes a directory with everything below it. What was removed before something is refused stays
removed. -/
def removeDirectory (disk : Entry) (path : String) : Change :=
  match disk.locate false path with
  | .ok (l, directory es listing searchable) =>
    match leftover l path (directory es listing searchable) with
    | none => (disk.remove l, none)
    | some (left, refused) => (disk.put l left, some (.denied, refused))
  | .ok _ => (disk, some (.noDirectory, path))
  | .error f => (disk, some (f, path))

end ProjectSurvey.Entry
