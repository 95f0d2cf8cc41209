import ProjectSurvey.Rule.Builtin
import ProjectSurvey.Text.Lower

/-!
# Rule tables with plugins

The rules of a run: the built-in ones and those that plugins provide, without the disabled ones. Ids
are compared without regard to case, and **the first rule of an id stays**, so no plugin replaces a
built-in rule. The first plugin that does not provide rules stops the discovery.
-/

namespace ProjectSurvey

/-- What a call of a plugin returns. -/
inductive Produced where
  /-- A single rule. -/
  | rule (r : Rule)
  /-- A sequence, whose members that are no rules are none. -/
  | items (rs : List (Option Rule))
  /-- Something else. -/
  | other

/-- What loading a plugin gives. -/
inductive Loaded where
  /-- A rule. -/
  | rule (r : Rule)
  /-- Something that can be called, with what the call returns. -/
  | callable (p : Produced)
  /-- Something else. -/
  | other

/-- A plugin, which may fail to load. -/
structure Plugin where
  /-- Its name. -/
  name : String
  /-- What loading it gives, or the text of the failure. -/
  load : Except String Loaded

/-- Why no rule table could be made. -/
inductive DiscoveryFault where
  /-- A plugin failed to load. -/
  | notLoaded (name reason : String)
  /-- A plugin provides no rules. -/
  | noRules (name : String)
  deriving DecidableEq

namespace DiscoveryFault

/-- The fault in words. -/
def message : DiscoveryFault → String
  | notLoaded name reason => "Failed to load rule entry point '" ++ name ++ "': " ++ reason
  | noRules name =>
    "Rule entry point '" ++ name ++ "' must provide a ContentRule or ProjectRule"

end DiscoveryFault

namespace Plugin

/-- The rules that a loaded plugin stands for. -/
def rulesOf? : Loaded → Option (List Rule)
  | .rule r => some [r]
  | .callable (.rule r) => some [r]
  | .callable (.items rs) => rs.mapM fun r => r
  | .callable .other => none
  | .other => none

/-- The rules of a plugin. -/
def rules (p : Plugin) : Except DiscoveryFault (List Rule) :=
  match p.load with
  | .error reason => .error (.notLoaded p.name reason)
  | .ok loaded =>
    match rulesOf? loaded with
    | some rs => .ok rs
    | none => .error (.noRules p.name)

end Plugin

namespace Rule

/-- The name under which rules are compared. -/
def key (r : Rule) : String := Text.lowered r.id

/-- The first rule of each id, without those whose id is in `banned`. -/
def firstOfEach : (banned : List String) → List Rule → List Rule
  | _, [] => []
  | banned, r :: rs =>
    if banned.contains r.key then firstOfEach banned rs
    else r :: firstOfEach (r.key :: banned) rs

/-- The rules of a run, given those that plugins provide. -/
def table (disabled : List String) (oversizedLines : Int) (provided : List Rule) : List Rule :=
  firstOfEach (disabled.map Text.lowered) (builtin oversizedLines ++ provided)

/-- The rules of a run with plugins. -/
def discover (disabled : List String) (oversizedLines : Int) (plugins : List Plugin) :
    Except DiscoveryFault (List Rule) :=
  (plugins.mapM Plugin.rules).map fun provided =>
    table disabled oversizedLines provided.flatten

end Rule

end ProjectSurvey
