import ProjectSurvey.Text.Blank
import ProjectSurvey.Text.Glob
import ProjectSurvey.Text.Chars

/-!
# Ignore rules

Patterns that leave files and directories out. A rule with a slash, or one that starts with a
slash, is matched against the whole path from the root, and also covers everything below the path
it spells; any other rule is matched against each component. **The last rule that matches decides**,
and a rule that starts with an exclamation mark takes a path back in. A star also matches slashes.
-/

namespace ProjectSurvey

/-- One ignore rule. -/
structure IgnoreRule where
  /-- The shell pattern, without the slashes at its ends. -/
  pattern : String
  /-- Whether the rule is about directories only. -/
  directoryOnly : Bool
  /-- Whether the rule started with a slash. -/
  anchored : Bool
  /-- Whether a match takes the path back in. -/
  negate : Bool
  /-- Whether the pattern holds a slash. -/
  hasSlash : Bool
  deriving DecidableEq

namespace IgnoreRule

/-- The rule of one pattern; none if the pattern is blank. -/
def ofPattern? (text : List Char) (negate : Bool) : Option IgnoreRule :=
  let text := Text.strip text
  if text.isEmpty then none
  else
    let directoryOnly := text.getLast? == some '/'
    let text := if directoryOnly then Text.trimRight (· == '/') text else text
    let anchored := text.head? == some '/'
    let text := if anchored then Text.trimLeft (· == '/') text else text
    some ⟨String.ofList text, directoryOnly, anchored, negate, text.contains '/'⟩

/-- The rule of one line; none for a blank line and for a comment. -/
def ofLine? (line : List Char) : Option IgnoreRule :=
  match Text.strip line with
  | [] => none
  | '#' :: _ => none
  | '!' :: rest => ofPattern? rest true
  | cs => ofPattern? cs false

/-- The rules of several lines. -/
def ofLines (lines : List (List Char)) : List IgnoreRule := lines.filterMap ofLine?

/-- Whether a rule matches a path. -/
def covers (r : IgnoreRule) (path : String) (isDirectory : Bool) : Bool :=
  if r.pattern = "" then false
  else if r.directoryOnly && !isDirectory then false
  else if r.anchored || r.hasSlash then
    Text.Glob.isMatch r.pattern path || (r.pattern ++ "/").toList.isPrefixOf path.toList
  else (Text.pieces '/' path.toList).any fun c => Text.Glob.isMatch r.pattern (String.ofList c)

end IgnoreRule

/-- Whether the rules leave a path out. -/
def isIgnored (path : String) (isDirectory : Bool) (rules : List IgnoreRule) : Bool :=
  rules.foldl (fun ignored r => if r.covers path isDirectory then !r.negate else ignored) false

end ProjectSurvey
