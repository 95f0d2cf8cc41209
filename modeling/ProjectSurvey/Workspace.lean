import ProjectSurvey.Disk.Change
import ProjectSurvey.Failure

/-!
# Workspaces

What the operations on a project work in: the disk, the directory in which they were called, the
time, and what they say. **Nothing that was done is undone when an operation fails**: `Work` keeps
the workspace beside the failure. Notices are kept as what they are about; `Notice.text` gives the
words.
-/

namespace ProjectSurvey

/-- What an operation says beside its result. -/
inductive Notice where
  /-- An analysis begins. -/
  | analysing (root : String)
  /-- An analysis is complete: the kind of project, the source files and the score. -/
  | analysed (kind : String) (files score : Int)
  /-- Documents were written into a directory. -/
  | documented (count : Nat) (directory : String)
  /-- The configuration is put aside. -/
  | configurationIgnored (reason : String)
  /-- A setting is put aside. -/
  | settingIgnored (s : OutOfRange)
  /-- A directory could not be listed. -/
  | directorySkipped (path reason : String)
  /-- A manifest was not read. -/
  | manifestUnread (name reason : String)
  /-- The evidence cache was not written. -/
  | cacheUnwritten (reason : String)
  deriving DecidableEq

namespace Notice

/-- Whether a notice reports something that went wrong. -/
def isWarning : Notice → Bool
  | analysing _ => false
  | analysed .. => false
  | documented .. => false
  | _ => true

/-- A notice in words. -/
def text : Notice → String
  | analysing root => "Analyzing " ++ root
  | analysed kind files score =>
    "Analysis complete: " ++ kind ++ " project, " ++ String.ofList (Text.decimalInt files) ++
      " files, score " ++ String.ofList (Text.decimalInt score)
  | documented count directory =>
    "Wrote " ++ String.ofList (Text.decimal count) ++ " documents to " ++ directory
  | configurationIgnored reason => "Ignoring invalid configuration: " ++ reason
  | settingIgnored s =>
    "Ignoring " ++ s.key ++ "=" ++ String.ofList (Text.decimalInt s.value) ++ " in " ++
      Configuration.fileName ++ " (must be at least " ++
      String.ofList (Text.decimalInt s.minimum) ++ ")"
  | directorySkipped path reason => "Skipping unreadable directory " ++ path ++ ": " ++ reason
  | manifestUnread name reason => "Could not parse " ++ name ++ ": " ++ reason
  | cacheUnwritten reason => "Could not write evidence cache: " ++ reason

end Notice

/-- What operations on a project work in. -/
structure Workspace where
  /-- The disk. -/
  disk : Entry
  /-- Where the operations were called. -/
  directory : Location
  /-- The home directories of users; that of the caller has the empty name. -/
  homes : List (String × String)
  /-- When files are written, in nanoseconds. -/
  time : Int
  /-- What was said. -/
  notices : List Notice
  /-- The lines that were printed. -/
  printed : List String

/-- An operation in a workspace, which may fail and keeps what it did. -/
abbrev Work := ExceptT Failure (StateM Workspace)

namespace Work

/-- Says something. -/
def say (n : Notice) : Work Unit := modify fun w => { w with notices := w.notices ++ [n] }

/-- Prints a line. -/
def print (line : String) : Work Unit := modify fun w => { w with printed := w.printed ++ [line] }

/-- The result of something that may fail. -/
def ofExcept {α : Type} : Except Failure α → Work α
  | .ok a => pure a
  | .error f => throw f

/-- Changes the disk as far as the change went, and fails if it was refused. -/
def change (c : Entry → Entry.Change) : Work Unit := do
  let (disk, refused) := c (← get).disk
  modify fun w => { w with disk }
  match refused with
  | none => pure ()
  | some (f, path) => throw (.refused f path)

/-- A path, seen from where the operation was called, as an absolute one. -/
def absolute (path : String) : Work String := do
  return Path.join (← get).directory.text path

/-- The location that a path stands for. -/
def locate (path : String) : Work Location := do
  match (← get).disk.resolve (← absolute path) with
  | .ok l => pure l
  | .error f => throw (Failure.ofUnresolved f)

/-- A path with the home directory in the place of a first component that asks for it by a tilde and
the name of a user. -/
def fromHome (path : String) : Work String := do
  match Path.isAbsolute path, Path.components path with
  | false, first :: rest =>
    match first.toList with
    | '~' :: user =>
      if Path.holdsZero first then throw (Failure.refused .zero path)
      match (← get).homes.lookup (String.ofList user) with
      | some home => return Path.join home (Path.ofSegments rest)
      | none => throw Failure.homeless
    | _ => return path
  | _, _ => return path

/-- The location of the project that a path stands for. -/
def locateProject (path : String) : Work Location := do locate (← fromHome path)

end Work

end ProjectSurvey
