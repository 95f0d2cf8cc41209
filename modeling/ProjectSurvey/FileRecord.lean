import ProjectSurvey.Number.Binary64

/-!
# Files and directories as facts

What a walk reports: a `FileRecord` per file, with the kind of file it is taken for, and the tree of
`Directory` nodes that holds them. **A directory carries the count and the size of everything below
it**, so that a reader of the tree need not add up; `Directory.allFiles` lists the files depth
first, a directory's own files before those of its subdirectories.
-/

namespace ProjectSurvey

/-- What a file is taken for. -/
structure FileKind where
  /-- Its language, or `unknown`. -/
  language : String
  /-- The framework that its content hints at. -/
  frameworkHint : Option String
  /-- What it is for, each tag once. -/
  purposeTags : List String
  deriving DecidableEq

namespace FileKind

/-- The kind of a file of which nothing is known. -/
def unknown : FileKind := ⟨"unknown", none, []⟩

/-- Whether the file holds tests. -/
def isTest (k : FileKind) : Bool := k.purposeTags.contains "test"

end FileKind

/-- The facts about one file. -/
structure FileRecord where
  /-- Its path below the project root. -/
  path : String
  /-- Its size in octets. -/
  size : Nat
  /-- Its lower-case extension, the dot included. -/
  extension : String
  /-- What it is taken for. -/
  kind : FileKind
  /-- When it was last changed, in seconds. -/
  modified : Binary64
  /-- When it was last changed, in nanoseconds. -/
  modifiedNs : Int
  deriving DecidableEq

/-- The language of a file. -/
def FileRecord.language (r : FileRecord) : String := r.kind.language

/-- A directory with everything below it. -/
inductive Directory where
  /-- The name of the directory, its path below the root (empty for the root), what it is for, its
  subdirectories, its own files, the number and the total size of the files below it, and whether
  it could be listed. -/
  | node (name path purpose : String) (directories : List Directory) (files : List FileRecord)
      (fileCount size : Nat) (readable : Bool)

namespace Directory

/-- The last component of the path. -/
def name : Directory → String
  | node n _ _ _ _ _ _ _ => n

/-- The path below the root. -/
def path : Directory → String
  | node _ p _ _ _ _ _ _ => p

/-- What the directory is for. -/
def purpose : Directory → String
  | node _ _ p _ _ _ _ _ => p

/-- The subdirectories. -/
def directories : Directory → List Directory
  | node _ _ _ d _ _ _ _ => d

/-- The files directly inside. -/
def files : Directory → List FileRecord
  | node _ _ _ _ f _ _ _ => f

/-- The number of files below. -/
def fileCount : Directory → Nat
  | node _ _ _ _ _ c _ _ => c

/-- The total size of the files below. -/
def size : Directory → Nat
  | node _ _ _ _ _ _ s _ => s

/-- Whether the directory could be listed. -/
def readable : Directory → Bool
  | node _ _ _ _ _ _ _ r => r

mutual

/-- All files of the subtree, depth first. -/
def allFiles : Directory → List FileRecord
  | node _ _ _ ds fs _ _ _ => fs ++ allFilesOf ds

/-- All files of several subtrees. -/
def allFilesOf : List Directory → List FileRecord
  | [] => []
  | d :: ds => allFiles d ++ allFilesOf ds

end

mutual

/-- The names of all directories below. -/
def namesBelow : Directory → List String
  | node _ _ _ ds _ _ _ _ => namesOf ds

/-- The names of some directories and of all below them. -/
def namesOf : List Directory → List String
  | [] => []
  | d :: ds => d.name :: (namesBelow d ++ namesOf ds)

end

mutual

/-- How many levels of directories are below. -/
def levels : Directory → Nat
  | node _ _ _ ds _ _ _ _ => levelsOf ds

/-- How many levels some directories and those below them make up. -/
def levelsOf : List Directory → Nat
  | [] => 0
  | d :: ds => max (levels d + 1) (levelsOf ds)

end

end Directory

end ProjectSurvey
