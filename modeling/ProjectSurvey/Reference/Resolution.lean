import ProjectSurvey.Path
import ProjectSurvey.Tables

/-!
# Resolving references

From a reference that is a path to the file it means: the path is evaluated from the directory of
the file that holds it, or from the project root when it starts with a slash, and then looked up
among the known files under a few spellings. **A reference that leaves the root resolves to
nothing**, and of several spellings the first known one wins.
-/

namespace ProjectSurvey.Reference

/-- Whether a reference is a path and no module or package name. -/
def isPath (reference : String) : Bool :=
  match reference.toList with
  | '.' :: _ => true
  | '/' :: _ => true
  | _ => false

/-- The path that a reference means, evaluated; none if it leaves the root. -/
def basePath? (source reference : String) : Option String :=
  let joined :=
    if Path.isAbsolute reference then
      String.ofList (Text.trimLeft (· == '/') reference.toList)
    else Path.join (Path.directory source) reference
  let path := Path.normalise joined
  if path = ".." ∨ "../".toList.isPrefixOf path.toList then none else some path

/-- The spellings under which a path is looked up, in order. -/
def candidates (base : String) (profile : Option ResolutionProfile) : List String :=
  let atRoot : Bool := base = "" || base = "."
  let own := if atRoot then [] else [base]
  match profile with
  | none => own
  | some p =>
    own ++ (if atRoot then [] else p.extensions.map (base ++ ·)) ++
      p.indexNames.flatMap fun index =>
        p.extensions.map fun ext => (if atRoot then index else base ++ "/" ++ index) ++ ext

/-- The first spelling of a path that is known. -/
def lookUp (base : String) (known : List String) (profile : Option ResolutionProfile) :
    Option String :=
  (candidates base profile).find? fun c => known.contains c

/-- The file that a reference of `source` means. -/
def resolve (source reference : String) (known : List String)
    (profile : Option ResolutionProfile) : Option String :=
  (basePath? source reference).bind fun base => lookUp base known profile

end ProjectSurvey.Reference
