import ProjectSurvey.Disk.Basic
import ProjectSurvey.Path

/-!
# Finding entries by path

From a path to an entry and its location, following links. **Two ways of following live here**:
`Entry.locate` gives up where the path leads nowhere or a directory may not be searched,
`Entry.resolve` goes on with the remaining names as they are and gives up only where links lead in a
circle; a link in a directory that may not be searched is none to it. Both pass `..` only after the
links in front of it.
-/

namespace ProjectSurvey

/-- Why the system refuses to do something with a path. -/
inductive AccessFault where
  /-- There is no such entry. -/
  | missing
  /-- Something on the way is no directory. -/
  | noDirectory
  /-- Too many links have to be followed. -/
  | tooManyLinks
  /-- A name is too long. -/
  | longName
  /-- Access is denied. -/
  | denied
  /-- It is a directory. -/
  | isDirectory
  /-- Something else is there already. -/
  | occupied
  /-- The path holds the zero character, which no system call takes. -/
  | zero
  deriving DecidableEq

namespace AccessFault

/-- The number by which the system knows the cause; what never comes before the system has none. -/
def number : AccessFault → Nat
  | missing => 2
  | noDirectory => 20
  | tooManyLinks => 40
  | longName => 36
  | denied => 13
  | isDirectory => 21
  | occupied => 17
  | zero => 0

/-- Whether the cause means no more than that nothing is there. -/
def meansAbsent : AccessFault → Bool
  | missing => true
  | noDirectory => true
  | tooManyLinks => true
  | zero => true
  | _ => false

end AccessFault

/-- How many octets a path may have. -/
def pathLimit : Nat := 4095

/-- How many octets a name may have. -/
def nameLimit : Nat := 255

/-- How many links are followed on one way. -/
def linkLimit : Nat := 40

namespace Entry

/-! ## Following every link -/

/-- What a way along names comes to. -/
inductive Way where
  /-- An entry at a location. -/
  | found (l : Location) (e : Entry)
  /-- A link in the directory at a location, and the names behind it. -/
  | link (l : Location) (target : String) (rest : List String)
  /-- Nowhere. -/
  | lost (f : AccessFault)

/-- The way along names from an entry at a location, up to the first link that is to be followed; a
link at the end only if `last` holds. -/
def way (disk : Entry) (last : Bool) : Location → Entry → List String → Way
  | l, e, [] => .found l e
  | l, e, n :: rest =>
    match e with
    | directory es _ searchable =>
      if !searchable then .lost .denied
      else if n = ".." then way disk last l.dropLast ((disk.at? l.dropLast).getD disk) rest
      else
        match es.lookup n with
        | none => .lost (if nameLimit < n.utf8ByteSize then .longName else .missing)
        | some (Entry.link t m) =>
          if rest.isEmpty && !last then .found (l.child n) (Entry.link t m) else .link l t rest
        | some c => way disk last (l.child n) c rest
    | _ => .lost .noDirectory

/-- The entry at the end of a way that follows `links` links at most. -/
def follow (disk : Entry) (last : Bool) :
    (links : Nat) → Location → List String → Except AccessFault (Location × Entry)
  | links, l, names =>
    match way disk last l ((disk.at? l).getD disk) names with
    | .found l e => .ok (l, e)
    | .lost f => .error f
    | .link l t rest =>
      match links with
      | 0 => .error .tooManyLinks
      | links + 1 =>
        follow disk last links (if Path.isAbsolute t then [] else l) (Path.components t ++ rest)

/-- Refuses a path that the system takes for none. -/
def checkPath (path : String) : Except AccessFault Unit :=
  if Path.holdsZero path then .error .zero
  else if pathLimit < path.utf8ByteSize then .error .longName
  else .ok ()

/-- The entry of an absolute path and its location; a link at the end is followed if `last`
holds. -/
def locate (disk : Entry) (last : Bool) (path : String) :
    Except AccessFault (Location × Entry) :=
  (checkPath path).bind fun _ => follow disk last linkLimit [] (Path.components path)

/-! ## Resolving as far as possible -/

/-- The location of names from a location on, `link` giving the location of a link. An error holds
the names at which links lead in a circle, and those behind them. -/
def resolveWith (disk : Entry)
    (link : Location → String → Except (List String) Location) :
    Location → List String → Except (List String) Location
  | l, [] => .ok l
  | l, n :: rest =>
    if n = ".." then resolveWith disk link l.dropLast rest
    else
      match disk.reach? (l.child n) with
      | some (Entry.link t _) =>
        match link (l.child n) t with
        | .ok l => resolveWith disk link l rest
        | .error names => .error (names ++ rest)
      | _ => resolveWith disk link (l.child n) rest

/-- The location of names from a location on, the links in `active` being followed already. -/
def resolveFrom (disk : Entry) :
    (links : Nat) → (active : List Location) → Location → List String →
      Except (List String) Location
  | 0, _, l, names => .error (l ++ names)
  | links + 1, active, l, names =>
    resolveWith disk (fun link target =>
      if active.contains link then .error link
      else resolveFrom disk links (link :: active)
        (if Path.isAbsolute target then [] else link.dropLast) (Path.components target)) l names

/-- Why a path stands for no location. -/
inductive Unresolved where
  /-- Links lead in a circle at a path. -/
  | circle (path : String)
  /-- The path holds the zero character. -/
  | zero (path : String)

/-- The location that an absolute path stands for, be there an entry or not. Where links lead in a
circle, the names from there on are taken as they are; the path that comes out is a fault if it is
still one of links without end. -/
def resolve (disk : Entry) (path : String) : Except Unresolved Location :=
  if Path.holdsZero path then .error (.zero path)
  else
    match resolveFrom disk (disk.linkCount + 2) [] [] (Path.components path) with
    | .ok l => .ok l
    | .error names =>
      let path := Path.normalise (Location.text names)
      match disk.locate true path with
      | .error .tooManyLinks => .error (.circle path)
      | _ => .ok (Path.components path)

end Entry

end ProjectSurvey
