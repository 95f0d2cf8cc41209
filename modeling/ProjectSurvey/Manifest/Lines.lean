import ProjectSurvey.Manifest
import ProjectSurvey.Pattern.Basic
import ProjectSurvey.Text.Lines

/-!
# Manifests made of lines

Requirement lists, `go.mod`, `Gemfile` and Gradle scripts: each line declares at most one package
and nothing is ever refused. **What a line does not declare in the expected shape is passed over.**
`Requirement.ofText?` is also the reader of the requirement texts inside other manifests.
-/

namespace ProjectSurvey

open Pattern

/-- The version of a package of which none is stated. -/
def anyVersion : String := "*"

/-- A version as stated, or any if that is empty. -/
def versionOr (cs : List Char) : String := if cs.isEmpty then anyVersion else String.ofList cs

namespace Requirement

/-- What begins a line that names no package. -/
def otherStarts : List String := ["-", "git+", "http:", "https:"]

/-- A package name, its extras, and the rest of the line. -/
def shape : Pattern :=
  group 1 (char CharSet.alnum ++ many (CharSet.or CharSet.alnum (CharSet.anyOf "._-"))) ++
    opt (lit "[" ++ many (CharSet.noneOf "]") ++ lit "]") ++ blanks ++
    group 2 (many CharSet.inLine) ++ textEnd

/-- The package of a requirement and its version, comments and conditions left out; the language
itself is no package. -/
def ofText? (cs : List Char) : Option (String × String) :=
  let line := Text.strip (Text.before ";" (Text.before "#" cs))
  if line.isEmpty || Text.startsWithAny otherStarts line then none
  else
    match shape.atStart? line with
    | none => none
    | some m =>
      let name := String.ofList (m.groupText 1)
      if Text.lowered name = "python" then none
      else some (name, versionOr (Text.strip (m.groupText 2)))

end Requirement

namespace Manifest

/-- A list of requirements. -/
def ofRequirements (cs : List Char) : Manifest :=
  { blank "requirements.txt" with
    production := Assoc.ofPairs ((Text.lines cs).filterMap Requirement.ofText?) }

/-! ## Go -/

/-- The step over a line of `go.mod`: whether a block of requirements is open, and the packages. -/
def goStep : Bool × Assoc String String → List Char → Bool × Assoc String String
  | (inBlock, found), raw =>
    let line := Text.strip (Text.before "//" raw)
    if line.isEmpty then (inBlock, found)
    else if (Text.after? "require (".toList line).isSome then (true, found)
    else if inBlock && line == [')'] then (false, found)
    else
      match Text.after? "require ".toList line, inBlock with
      | some rest, _ => (inBlock, declared found rest)
      | none, true => (inBlock, declared found line)
      | none, false => (inBlock, found)
where
  /-- The packages with the one that a line declares, if it has two words. -/
  declared (found : Assoc String String) (line : List Char) : Assoc String String :=
    match Text.words line with
    | name :: version :: _ => Assoc.insert (String.ofList name) (String.ofList version) found
    | _ => found

/-- A module file of Go. -/
def ofGoMod (cs : List Char) : Manifest :=
  { blank "go.mod" with production := ((Text.lines cs).foldl goStep (false, [])).2 }

/-! ## Ruby -/

/-- A text in quotes of either kind, remembered under a number. -/
def gemText (n : Nat) : Pattern :=
  char (CharSet.anyOf "'\"") ++ group n (plus (CharSet.noneOf "'\"")) ++ char (CharSet.anyOf "'\"")

/-- A line that declares a package, and perhaps its version. -/
def gemLine : Pattern :=
  blanks ++ lit "gem" ++ gap ++ gemText 1 ++ opt (blanks ++ lit "," ++ blanks ++ gemText 2)

/-- Whether a line opens a group for development. -/
def opensGemGroup (line : List Char) : Bool :=
  (Text.after? "group".toList line).isSome &&
    (Text.occursIn "development" line || Text.occursIn "test" line)

/-- The step over a line of a `Gemfile`: whether a group for development is open, and what is
declared so far. -/
def gemStep : Bool × Manifest → List Char → Bool × Manifest
  | (inGroup, m), raw =>
    let line := Text.strip raw
    if opensGemGroup line then (true, m)
    else if line == "end".toList then (false, m)
    else
      match gemLine.atStart? raw with
      | none => (inGroup, m)
      | some found =>
        let name := String.ofList (found.groupText 1)
        let version := versionOr (found.groupText 2)
        if inGroup then (inGroup, { m with development := Assoc.insert name version m.development })
        else (inGroup, { m with production := Assoc.insert name version m.production })

/-- A `Gemfile`. -/
def ofGemfile (cs : List Char) : Manifest :=
  ((Text.lines cs).foldl gemStep (false, blank "Gemfile")).2

/-! ## Gradle -/

/-- The characters of a coordinate. -/
def coordinateChars : CharSet := CharSet.or CharSet.word (CharSet.anyOf "-.")

/-- A quoted coordinate: group and name, and perhaps a version. -/
def gradleCoordinate : Pattern :=
  char (CharSet.anyOf "'\"") ++
    group 1 (plus coordinateChars ++ lit ":" ++ plus coordinateChars) ++
    opt (lit ":" ++ group 2 (plus coordinateChars)) ++ char (CharSet.anyOf "'\"")

/-- The configurations that serve tests. -/
def gradleTestStarts : List String :=
  ["testImplementation", "testCompile", "androidTestImplementation"]

/-- The configurations that serve the product. -/
def gradleStarts : List String :=
  ["implementation", "api", "compile", "runtimeOnly", "compileOnly"]

/-- The step over a line of a Gradle script. -/
def gradleStep (m : Manifest) (raw : List Char) : Manifest :=
  let line := Text.strip raw
  if line.isEmpty || (Text.after? "//".toList line).isSome then m
  else
    match gradleCoordinate.find? line with
    | none => m
    | some found =>
      let name := String.ofList (found.groupText 1)
      let version := versionOr (found.groupText 2)
      if Text.startsWithAny gradleTestStarts line then
        { m with development := Assoc.insert name version m.development }
      else if Text.startsWithAny gradleStarts line then
        { m with production := Assoc.insert name version m.production }
      else m

/-- A Gradle script of the given name. -/
def ofGradle (name : String) (cs : List Char) : Manifest :=
  (Text.lines cs).foldl gradleStep (blank name)

end Manifest

end ProjectSurvey
