import ProjectSurvey.Text.Chars

/-!
# Paths

Paths as text, their components separated by slashes. **Two notions of a suffix live here**:
`suffix` is what follows the last dot of a name unless that dot is its first or last character;
`extension` skips every leading dot first and keeps a final one. They differ on `a.` and on
`..x`. `normalise` evaluates `.` and `..` without looking at any directory.
-/

namespace ProjectSurvey.Path

/-- The pieces between slashes. -/
def segments (path : String) : List String :=
  (Text.pieces '/' path.toList).map String.ofList

/-- The segments joined by slashes. -/
def ofSegments (segments : List String) : String := "/".intercalate segments

/-- The components: the segments that are neither empty nor a single dot. -/
def components (path : String) : List String :=
  (segments path).filter fun s => s ≠ "" && s ≠ "."

/-- Whether a path starts at the root of the file system. -/
def isAbsolute (path : String) : Bool := path.toList.head? == some '/'

/-- Whether a path holds the zero character, which no system call takes. -/
def holdsZero (path : String) : Bool := path.toList.contains (Char.ofNat 0)

/-- The last component. -/
def name (path : String) : String := (components path).getLastD ""

/-- What follows the last slash. -/
def lastSegment (path : String) : String := String.ofList (Text.afterLast '/' path.toList)

/-- What precedes the last slash; empty if there is none. -/
def parent (path : String) : String :=
  match Text.beforeLast? '/' path.toList with
  | some front => String.ofList front
  | none => ""

/-- The place of the last dot of a name, as the text before it and the text from it on. -/
def atLastDot? (name : List Char) : Option (List Char × List Char) :=
  (Text.beforeLast? '.' name).map fun front => (front, name.drop front.length)

/-- What follows the last dot of a name, the dot included, unless the dot begins or ends it. -/
def suffix (name : String) : String :=
  match atLastDot? name.toList with
  | some (front, back) =>
    if front.isEmpty || back.length ≤ 1 then "" else String.ofList back
  | none => ""

/-- A name without its `suffix`. -/
def stem (name : String) : String :=
  match atLastDot? name.toList with
  | some (front, back) =>
    if front.isEmpty || back.length ≤ 1 then name else String.ofList front
  | none => name

/-- A name split at its last dot, if a character other than a dot stands before that. -/
def splitExtension (name : String) : String × String :=
  match atLastDot? name.toList with
  | some (front, back) =>
    if front.all (· == '.') then (name, "") else (String.ofList front, String.ofList back)
  | none => (name, "")

/-- What follows the last dot of a name, the dot included, leading dots apart. -/
def extension (name : String) : String := (splitExtension name).2

/-! ## Joining and evaluating -/

/-- The directory part of a path: what precedes its last component, without final slashes unless
nothing else is left. -/
def directory (path : String) : String :=
  match Text.beforeLast? '/' path.toList with
  | none => ""
  | some front =>
    let trimmed := Text.trimRight (· == '/') front
    String.ofList (if trimmed.isEmpty then front ++ ['/'] else trimmed)

/-- A path seen from a directory; one that starts at the root stays as it is. -/
def join (directory path : String) : String :=
  if isAbsolute path then path
  else if directory = "" ∨ directory.toList.getLast? = some '/' then directory ++ path
  else directory ++ "/" ++ path

/-- One component of a walk that has come to `seen` (last component first): empty and dot
components stay, two dots go up, and what cannot be gone up is kept unless the walk started at
the root. -/
def walkStep (rooted : Bool) (seen : List String) (c : String) : List String :=
  if c = "" ∨ c = "." then seen
  else if c ≠ ".." then c :: seen
  else
    match seen with
    | [] => if rooted then [] else [".."]
    | s :: rest => if s = ".." then ".." :: seen else rest

/-- The slashes that a path keeps in front: none, two if it has exactly two, or one. -/
def leading (path : List Char) : List Char :=
  match path with
  | '/' :: '/' :: '/' :: _ => ['/']
  | '/' :: '/' :: _ => ['/', '/']
  | '/' :: _ => ['/']
  | _ => []

/-- A path with its dots evaluated. -/
def normalise (path : String) : String :=
  let front := leading path.toList
  let seen := (segments path).foldl (walkStep (!front.isEmpty)) []
  let text := String.ofList front ++ ofSegments seen.reverse
  if text = "" then "." else text

/-- A path without empty and dot components; two dots stay. -/
def tidy (path : String) : String :=
  let text := String.ofList (leading path.toList) ++ ofSegments (components path)
  if text = "" then "." else text

end ProjectSurvey.Path
