import ProjectSurvey.Classification
import ProjectSurvey.DirectoryTree
import ProjectSurvey.Disk.Access
import ProjectSurvey.Failure
import ProjectSurvey.Ignore

/-!
# Walking a project

From a directory on the disk to the files that count. A directory is entered unless its name is
passed over, the ignore rules leave it out or it lies too deep; **links are never followed on the
way**, a link counts as a file. A subdirectory that cannot be listed has no contents; only a root
that cannot be listed makes the walk fail. A path that is too long for the system leaves a file out
and keeps a directory from being listed, and so does a directory around it that may not be searched
(`Walk.seen`): its files are left out although it is listed, and its subdirectories are not listed.

A walk is the list of the directories it comes to (`Walk.Scope.listings`), each with its files. The
files, the tree and the directories that were skipped are made of that list (`Scan.ofListings`).
-/

namespace ProjectSurvey

/-- How a project is walked. -/
structure WalkSettings where
  /-- Directory names to pass over. -/
  ignoreDirectories : List String
  /-- How many levels of directories are listed. -/
  maxDepth : Int
  /-- Patterns of paths to pass over. -/
  excludePatterns : List String
  /-- Whether the ignore file of the project counts. -/
  useGitignore : Bool
  /-- The greatest size of a file whose beginning is looked at. -/
  maxFileSize : Int

/-- What a walk found. -/
structure Scan where
  /-- Where the project is. -/
  root : Location
  /-- The files that count, in the order of the walk. -/
  files : List FileRecord
  /-- The same files as a tree. -/
  tree : Directory
  /-- The directories that could not be listed, in the order of the walk. -/
  skipped : List String

namespace Scan

/-- What a walk found that came to the given directories one after the other. -/
def ofListings (t : Tables) (root : Location) (listings : List Listing) : Scan :=
  { root
    files := listings.flatMap Listing.files
    tree := Directory.ofListings t root.name listings
    skipped := (listings.filter fun l => !l.readable).map Listing.path }

/-- The names of the files at the root. -/
def rootFiles (s : Scan) : List String := s.tree.files.map FileRecord.path

end Scan

namespace Walk

/-- The name of the ignore file. -/
def ignoreFile : String := ".gitignore"

/-- Files that systems leave behind, which never count. -/
def systemFiles : List String := [".DS_Store", "Thumbs.db", "desktop.ini"]

/-- How many octets of a file are looked at to tell what it is for. -/
def sampleSize : Nat := 4096

/-- The path of a name in a directory, the root being the empty path. -/
def pathIn (directory name : String) : String :=
  if directory = "" then name else directory ++ "/" ++ name

/-! ## One file -/

/-- A time in nanoseconds as seconds. -/
def seconds (time : Int) : Binary64 :=
  Binary64.add (Binary64.ofInt (time / 1000000000))
    (Binary64.mul (Binary64.ofDecimal false 1 (-9)) (Binary64.ofInt (time % 1000000000)))

/-- The beginning of the file that a path leads to, octets that are no UTF-8 left out. -/
def sample? (disk : Entry) (path : String) : Option (List Char) :=
  match disk.readOctets path with
  | .ok octets => some (Text.Utf8.decodeForgiving (octets.take sampleSize))
  | .error _ => none

/-- The facts about a file, or a link, at a path below the root. -/
def record (t : Tables) (maxFileSize : Int) (disk : Entry) (root : Location)
    (path : String) (e : Entry) : FileRecord :=
  let looksInside := t.isCountable (languageOf t path) && decide ((e.size : Int) ≤ maxFileSize)
  { path
    size := e.size
    extension := Text.lowered (Path.extension (Path.lastSegment path))
    kind := classify t path
      (if looksInside then sample? disk (Path.join root.text path) else none)
    modified := seconds e.modified
    modifiedNs := e.modified }

/-! ## What is seen -/

/-- A directory that shows nothing. -/
def closed : Entry := .directory [] .denied false

mutual

/-- What is seen of an entry. The names in a directory that may not be searched are told, and which
of them are those of directories; but nothing is known about its files, and nothing in its
directories is seen. -/
def seen : Entry → Entry
  | .directory es listing true => .directory (seenIn es) listing true
  | .directory es listing false =>
    .directory ((es.filter fun p => p.2.isDirectory).map fun p => (p.1, closed)) listing false
  | e => e

/-- What is seen of the entries of a directory that may be searched. -/
def seenIn : List (String × Entry) → List (String × Entry)
  | [] => []
  | (n, e) :: es => (n, seen e) :: seenIn es

end

/-! ## Directories -/

/-- What every step of a walk needs. -/
structure Scope where
  /-- The lookup tables. -/
  tables : Tables
  /-- How the project is walked. -/
  settings : WalkSettings
  /-- The disk. -/
  disk : Entry
  /-- Where the project is. -/
  root : Location
  /-- The ignore rules. -/
  rules : List IgnoreRule

namespace Scope

/-- Whether a directory of the given name and path is entered. -/
def enters (s : Scope) (name path : String) : Bool :=
  !s.settings.ignoreDirectories.contains name && !isIgnored path true s.rules

/-- Whether the system takes a path below the root. -/
def isTaken (s : Scope) (path : String) : Bool :=
  (Entry.checkPath (if path = "" then s.root.text else Path.join s.root.text path)).isOk

/-- Whether a file of the given name and path counts. -/
def counts (s : Scope) (name path : String) : Bool :=
  !systemFiles.contains name && !isIgnored path false s.rules && s.isTaken path

/-- What is in a directory of the given path, by name; nothing if it cannot be listed. -/
def contents? (s : Scope) (path : String) : Entry → Option (List (String × Entry))
  | .directory entries .granted _ =>
    if s.isTaken path then some (entries.mergeSort fun a b => decide (a.1 ≤ b.1)) else none
  | _ => none

/-- The files that count among the entries of a directory. -/
def filesIn (s : Scope) (path : String) (entries : List (String × Entry)) : List FileRecord :=
  (entries.filter fun (name, e) => !e.isDirectory && s.counts name (pathIn path name)).map
    fun (name, e) => record s.tables s.settings.maxFileSize s.disk s.root (pathIn path name) e

/-- The directories that are entered among the entries of a directory. -/
def directoriesIn (s : Scope) (path : String) (entries : List (String × Entry)) :
    List (String × Entry) :=
  entries.filter fun (name, e) => e.isDirectory && s.enters name (pathIn path name)

/-- The directories that a walk comes to from one on, each before those in it, `levels` levels of
directories below it being listed. -/
def listings (s : Scope) : (levels : Nat) → (path : String) → Entry → List Listing
  | levels, path, e =>
    match s.contents? path e with
    | none => [⟨path, [], false⟩]
    | some entries =>
      ⟨path, s.filesIn path entries, true⟩ ::
        match levels with
        | 0 => []
        | levels + 1 =>
          (s.directoriesIn path entries).flatMap fun (n, d) =>
            listings s levels (pathIn path n) d

end Scope

/-! ## The root -/

/-- Checks that a project can be walked; `shown` is what messages call it. -/
def checkRoot (disk : Entry) (root : Location) (shown : String) : Except Failure Unit :=
  match disk.seek root.text with
  | .error f => .error (.refused f root.text)
  | .ok none => .error (.notFound ("Project path not found: " ++ shown))
  | .ok (some (.directory _ listing searchable)) =>
    if listing ≠ .denied && searchable then .ok ()
    else .error (.notGranted ("Project path is not readable: " ++ shown))
  | .ok (some _) => .error (.notDirectory ("Project path is not a directory: " ++ shown))

/-- The ignore rules of a project: those of its ignore file, if that counts and can be read, and
then the patterns to pass over. -/
def rules (s : WalkSettings) (disk : Entry) (root : Location) : List IgnoreRule :=
  let fromFile :=
    if s.useGitignore then
      match disk.readText (Path.join root.text ignoreFile) with
      | .ok cs => IgnoreRule.ofLines (Text.lines cs)
      | .error _ => []
    else []
  fromFile ++ IgnoreRule.ofLines (s.excludePatterns.map String.toList)

/-- How many levels of directories a tree may have below its root. -/
def levelLimit : Nat := 492

/-- The walk of the project at a location under the given ignore rules. -/
def scanUnder (t : Tables) (s : WalkSettings) (disk : Entry) (root : Location)
    (rules : List IgnoreRule) : Except Failure Scan := do
  checkRoot disk root root.text
  let scope : Scope := ⟨t, s, disk, root, rules⟩
  match disk.at? root with
  | none => .error (.refused .denied root.text)
  | some top =>
    if (scope.contents? "" top).isNone then .error (.refused .denied root.text)
    else
      let scan := Scan.ofListings t root (scope.listings (s.maxDepth - 1).toNat "" (seen top))
      if levelLimit < scan.tree.levels then .error .tooDeep else .ok scan

/-- The walk of the project at a location. -/
def scan (t : Tables) (s : WalkSettings) (disk : Entry) (root : Location) :
    Except Failure Scan :=
  scanUnder t s disk root (rules s disk root)

/-- Why a directory below the root could not be listed. -/
def refusal (root : Location) (path : String) : AccessFault :=
  match Entry.checkPath (Path.join root.text path) with
  | .error f => f
  | .ok _ => .denied

end Walk

end ProjectSurvey
