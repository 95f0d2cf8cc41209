import ProjectSurvey.FileRecord
import ProjectSurvey.Path
import ProjectSurvey.Tables

/-!
# Making directory trees

`Directory.make` is the one way in which directory nodes come about: it adds up what is below, so
**the counts and sizes of every tree made here are right by construction** (`fileCount_make`,
`size_make`). `Directory.ofListings` arranges directories that were listed one after the other as a
tree.
-/

namespace ProjectSurvey

/-- A directory by itself: its path below the root, the files in it and whether it could be
listed. -/
structure Listing where
  /-- The path below the root, empty for the root. -/
  path : String
  /-- The files directly inside. -/
  files : List FileRecord
  /-- Whether the directory could be listed. -/
  readable : Bool

namespace Directory

/-- What the root of a project is for. -/
def rootPurpose : String := "project root"

/-- A directory with the given contents; the root is the one with the empty path. -/
def make (t : Tables) (name path : String) (directories : List Directory)
    (files : List FileRecord) (readable : Bool) : Directory :=
  node name path (if path = "" then rootPurpose else t.purposeFor name) directories files
    (files.length + (directories.map fileCount).sum)
    ((files.map FileRecord.size).sum + (directories.map size).sum) readable

/-- A directory counts the files in it and those that its subdirectories count. -/
theorem fileCount_make (t : Tables) (name path : String) (directories : List Directory)
    (files : List FileRecord) (readable : Bool) :
    (make t name path directories files readable).fileCount =
      files.length + (directories.map fileCount).sum := rfl

/-- The size of a directory is that of the files in it and of its subdirectories. -/
theorem size_make (t : Tables) (name path : String) (directories : List Directory)
    (files : List FileRecord) (readable : Bool) :
    (make t name path directories files readable).size =
      (files.map FileRecord.size).sum + (directories.map size).sum := rfl

/-- A directory of a listing with those of the others that are in it or below it, at most `levels`
deep. The others stand beside the path of the directory they are in. -/
def arrange (t : Tables) (rootName : String) (others : List (String × Listing)) :
    (levels : Nat) → Listing → Directory
  | levels, l =>
    let name := if l.path = "" then rootName else Path.lastSegment l.path
    match levels with
    | 0 => make t name l.path [] l.files l.readable
    | levels + 1 =>
      let children := (others.filter fun o => o.1 == l.path).map Prod.snd
      make t name l.path
        ((children.mergeSort fun a b => decide (a.path ≤ b.path)).map
          (arrange t rootName others levels)) l.files l.readable

/-- The tree of some directories; a root that is not among them is empty. -/
def ofListings (t : Tables) (rootName : String) (listings : List Listing) : Directory :=
  let others := (listings.filter fun l => l.path ≠ "").map fun l => (Path.parent l.path, l)
  arrange t rootName others listings.length
    ((listings.find? fun l => l.path == "").getD ⟨"", [], true⟩)

end Directory

end ProjectSurvey
