import ProjectSurvey.Disk.Change

/-!
# Exchange with a store of files

How a disk comes to be like a real store of files, and what has to be done there afterwards. `plant`
puts in what was found at a location, `targets` says which paths the links in it lead to, and
`edits` lists the steps from one disk to a later one. **Only directories and files are ever
edited**: no change of `Disk.Change` makes a link, and a link that is gone went with a directory
around it or is a step of its own.
-/

namespace ProjectSurvey.Entry

/-- The disk with an entry at a location, whose directories are made where they are not there. -/
def plant (disk : Entry) (l : Location) (e : Entry) : Entry :=
  match l with
  | [] => e
  | _ => (disk.makeDirectories (Location.text l.dropLast)).1.put l e

mutual

/-- The paths that the links in an entry and below it lead to. -/
def targets : Entry → List String
  | file .. => []
  | link target _ => [target]
  | directory es _ _ => targetsOf es

/-- The paths that the links in some entries lead to. -/
def targetsOf : List (String × Entry) → List String
  | [] => []
  | (_, e) :: es => targets e ++ targetsOf es

end

/-- A step that changes a store of files. -/
inductive Edit where
  /-- Remove what is at a location, with everything below it. -/
  | remove (l : Location)
  /-- Make a directory. -/
  | makeDirectory (l : Location)
  /-- Give a file its octets. -/
  | write (l : Location) (octets : List UInt8)
  deriving DecidableEq

/-- The steps that remove, from what is at a location, the names that are no longer there. -/
def removals (l : Location) (before : Option Entry) (after : List (String × Entry)) : List Edit :=
  ((before.map entries).getD []).filterMap fun (n, _) =>
    if (after.lookup n).isNone then some (.remove (l.child n)) else none

mutual

/-- The steps that make what is at a location what it is to be. -/
def edits (l : Location) (before : Option Entry) : (after : Entry) → List Edit
  | file octets _ =>
    match before with
    | some (file old _) => if old = octets then [] else [.write l octets]
    | _ => [.write l octets]
  | link .. => []
  | directory es _ _ =>
    let made : List Edit := match before with
      | some (directory ..) => []
      | _ => [.makeDirectory l]
    made ++ removals l before es ++ editsIn l before es

/-- The steps for some entries of a directory. -/
def editsIn (l : Location) (before : Option Entry) : (after : List (String × Entry)) → List Edit
  | [] => []
  | (n, e) :: es =>
    edits (l.child n) (before.bind (child? n)) e ++ editsIn l before es

end

end ProjectSurvey.Entry
