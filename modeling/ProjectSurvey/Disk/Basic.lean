/-!
# The disk

A tree of files, symbolic links and directories. A `Location` is a list of names from the root; it
never passes a link, so **one location stands for one entry**. Reading and changing entries by
location is here, following links is in `Disk.Lookup`.

Two rights go with a directory. Without the right to list it, its names are not told; without the
right to search it, none of its names leads anywhere. `Entry.at?` says what is at a location,
`Entry.reach?` what a way along its names finds there.
-/

namespace ProjectSurvey

/-- Whether the names in a directory can be listed. -/
inductive ListRight where
  /-- They can. -/
  | granted
  /-- The right to list them is missing. -/
  | denied
  /-- The right is there, and yet listing them is refused. -/
  | failing
  deriving DecidableEq

/-- What a name on the disk stands for. -/
inductive Entry where
  /-- A file: its octets and when it was last changed, in nanoseconds. -/
  | file (octets : List UInt8) (modified : Int)
  /-- A symbolic link: the path it leads to and when it was made, in nanoseconds. -/
  | link (target : String) (modified : Int)
  /-- A directory: what is in it, whether it can be listed, and whether it may be searched. -/
  | directory (entries : List (String × Entry)) (listing : ListRight) (searchable : Bool)
  deriving Inhabited

/-- Names from the root of the disk on. -/
abbrev Location := List String

namespace Location

/-- The path of a location. -/
def text (l : Location) : String := "/" ++ "/".intercalate l

/-- The last name. -/
def name (l : Location) : String := l.getLastD ""

/-- The location of a name in a directory. -/
def child (l : Location) (name : String) : Location := l ++ [name]

/-- The names of one location behind those of another, if it is there or below. -/
def below? : (top l : Location) → Option (List String)
  | [], l => some l
  | _ :: _, [] => none
  | a :: top, b :: l => if a = b then below? top l else none

end Location

namespace Entry

/-- A directory to which nothing is denied. -/
def ofEntries (entries : List (String × Entry)) : Entry := directory entries .granted true

/-- What is in a directory. -/
def entries : Entry → List (String × Entry)
  | directory es _ _ => es
  | _ => []

/-- Whether an entry is a directory. -/
def isDirectory : Entry → Bool
  | directory .. => true
  | _ => false

/-- Whether an entry is a directory that may be searched. -/
def isSearchable : Entry → Bool
  | directory _ _ searchable => searchable
  | _ => false

/-- The entry of a name in a directory. -/
def child? (name : String) (e : Entry) : Option Entry := e.entries.lookup name

/-- The entry at a location. -/
def at? (e : Entry) : Location → Option Entry
  | [] => some e
  | n :: l =>
    match e.child? n with
    | some c => at? c l
    | none => none

/-- The entry that a way along names finds at a location: nothing behind a directory that may not be
searched. -/
def reach? (e : Entry) : Location → Option Entry
  | [] => some e
  | n :: l =>
    if e.isSearchable then
      match e.child? n with
      | some c => reach? c l
      | none => none
    else none

/-- How many octets an entry has: those of a file, or of the path in a link. -/
def size : Entry → Nat
  | file octets _ => octets.length
  | link target _ => target.utf8ByteSize
  | directory .. => 0

/-- When an entry was last changed; of directories nothing is known. -/
def modified : Entry → Int
  | file _ m => m
  | link _ m => m
  | directory .. => 0

mutual

/-- The number of links in an entry and below it. -/
def linkCount : Entry → Nat
  | file .. => 0
  | link .. => 1
  | directory es _ _ => linkCountOf es

/-- The number of links in some entries. -/
def linkCountOf : List (String × Entry) → Nat
  | [] => 0
  | (_, e) :: es => linkCount e + linkCountOf es

end

/-- The names of a directory with a new entry for one of them. -/
def putName (name : String) (e : Entry) : List (String × Entry) → List (String × Entry)
  | [] => [(name, e)]
  | (n, x) :: es => if n = name then (n, e) :: es else (n, x) :: putName name e es

/-- The disk with an entry put at a location, whose directory must be there. -/
def put : Entry → Location → Entry → Entry
  | _, [], new => new
  | directory es listing searchable, n :: l, new =>
    match l, es.lookup n with
    | [], _ => directory (putName n new es) listing searchable
    | _ :: _, some c => directory (putName n (put c l new) es) listing searchable
    | _ :: _, none => directory es listing searchable
  | e, _, _ => e

/-- The disk without the entry at a location. -/
def remove : Entry → Location → Entry
  | directory es listing searchable, [n] =>
    directory (es.filter fun p => p.1 ≠ n) listing searchable
  | directory es listing searchable, n :: m :: l =>
    match es.lookup n with
    | some c => directory (putName n (remove c (m :: l)) es) listing searchable
    | none => directory es listing searchable
  | e, _ => e

/-- After an entry was put there, its name stands for it, and every other name stands for what it
did. -/
theorem lookup_putName (name name' : String) (e : Entry) (es : List (String × Entry)) :
    (putName name e es).lookup name' = if name' = name then some e else es.lookup name' := by
  induction es with
  | nil =>
    rw [putName, List.lookup_cons, List.lookup_nil]
    by_cases h : name' = name
    · simp [h]
    · simp [h, beq_eq_false_iff_ne.mpr h]
  | cons p es ih =>
    obtain ⟨n, x⟩ := p
    rw [putName]
    by_cases hn : n = name
    · subst hn
      rw [if_pos rfl, List.lookup_cons, List.lookup_cons]
      by_cases h : name' = n
      · simp [h]
      · simp [h, beq_eq_false_iff_ne.mpr h]
    · rw [if_neg hn, List.lookup_cons, List.lookup_cons, ih]
      by_cases h : name' = n
      · subst h
        simp [hn]
      · simp [beq_eq_false_iff_ne.mpr h]

end Entry

end ProjectSurvey
