import ProjectSurvey.CommandLine.Arguments
import ProjectSurvey.Configuration

/-!
# Commands

What a command line asks for. **Every command has its own options**, and `--verbose` may stand in
front of the command or behind it. `Command.parse` reads a command line; what is not meant by any
command is a `Misuse`.
-/

namespace ProjectSurvey.CommandLine

/-- What a command line asks for. -/
inductive Command where
  /-- Prepare a project: the directory for output and a first configuration. -/
  | init (path : String)
  /-- Show the last survey that was kept. -/
  | status (path : String)
  /-- Survey a project, show it, as JSON if `json` holds, and keep it if `keeps` holds. -/
  | analyze (path : String) (wishes : Overrides) (json keeps : Bool)
  /-- Write the documents of a project, into a directory if one is given. -/
  | docs (path : String) (wishes : Overrides) (output : Option String)
  /-- Show what the rules say. -/
  | audit (path : String) (wishes : Overrides)
  /-- Show what to attend to. -/
  | focus (path : String) (wishes : Overrides)
  /-- Remove the directory for output. -/
  | clean (path : String)
  /-- Report on one file, as JSON if `json` holds. -/
  | file (file root : String) (json : Bool)

/-- A command and how much it is to say. -/
structure Invocation where
  /-- The command. -/
  command : Command
  /-- Whether everything is to be said. -/
  verbose : Bool

/-! ## Options -/

namespace OptionSpec

/-- Asks for help. -/
def help : OptionSpec := ⟨["-h", "--help"], .help⟩

/-- Asks for everything to be said. -/
def verbose : OptionSpec := ⟨["-v", "--verbose"], .flag⟩

/-- An option that is there or not. -/
def flag (name : String) : OptionSpec := ⟨[name], .flag⟩

/-- An option with a value. -/
def valued (name : String) : OptionSpec := ⟨[name], .valued⟩

/-- The options of every command. -/
def general : List OptionSpec := [help, verbose]

/-- The options of commands that survey a project. -/
def surveying : List OptionSpec := [⟨["--depth"], .integer⟩, valued "--ignore", flag "--no-cache"]

end OptionSpec

namespace Command

/-- The path that a command is about: the operand, or the directory in which it was called. -/
def pathOf (a : Arguments) : String :=
  match a.operand with
  | some (some path) => path
  | _ => "."

/-- What is wished for a survey. -/
def wishesOf (a : Arguments) : Overrides where
  maxDepth := (a.value? "--depth").bind fun v => Text.integer? v.toList
  ignore := a.values "--ignore"
  ignoreOnly := none
  cache := some (!a.has "--no-cache")

/-- A command by its name: its own options, and what its arguments ask for. -/
structure Form where
  /-- Its name. -/
  name : String
  /-- Its own options. -/
  options : List OptionSpec
  /-- What its arguments ask for. -/
  build : Arguments → Except Misuse Command

/-- The commands. -/
def forms : List Form := [
  ⟨"init", [], fun a => .ok (.init (pathOf a))⟩,
  ⟨"status", [], fun a => .ok (.status (pathOf a))⟩,
  ⟨"analyze", OptionSpec.surveying ++ [.flag "--json", .flag "--no-save"], fun a =>
    .ok (.analyze (pathOf a) (wishesOf a) (a.has "--json") (!a.has "--no-save"))⟩,
  ⟨"docs", OptionSpec.surveying ++ [.valued "--output"], fun a =>
    .ok (.docs (pathOf a) (wishesOf a) (a.value? "--output"))⟩,
  ⟨"audit", OptionSpec.surveying, fun a => .ok (.audit (pathOf a) (wishesOf a))⟩,
  ⟨"focus", OptionSpec.surveying, fun a => .ok (.focus (pathOf a) (wishesOf a))⟩,
  ⟨"clean", [], fun a => .ok (.clean (pathOf a))⟩,
  ⟨"file", [.valued "--root", .flag "--json"], fun a =>
    match a.operand with
    | some (some target) => .ok (.file target ((a.value? "--root").getD ".") (a.has "--json"))
    | _ => .error .wrongUse⟩]

/-- Whether a word is an option. -/
def isOption : Word → Bool
  | .option .. => true
  | .stranger => true
  | _ => false

/-- The command of a command line. -/
def parse (words : List String) : Except Misuse Invocation := do
  let front := (← looks OptionSpec.general words).takeWhile isOption
  let general ← Arguments.empty.read OptionSpec.general false front
  match words.drop front.length with
  | [] => .error .wrongUse
  | name :: rest =>
    match forms.find? fun f => f.name == name with
    | none => .error .wrongUse
    | some form =>
      let specs := OptionSpec.general ++ form.options
      let own ← Arguments.empty.read specs true (← looks specs rest)
      let command ← form.build own
      if general.leftOver || own.leftOver then .error .wrongUse
      else .ok ⟨command, general.has "--verbose" || own.has "--verbose"⟩

/-- The word for a command. -/
def name : Command → String
  | init _ => "init"
  | status _ => "status"
  | analyze .. => "analyze"
  | docs .. => "docs"
  | audit .. => "audit"
  | focus .. => "focus"
  | clean _ => "clean"
  | file .. => "file"

/-- The path of the project that a command is about. -/
def project : Command → String
  | init path => path
  | status path => path
  | analyze path .. => path
  | docs path .. => path
  | audit path _ => path
  | focus path _ => path
  | clean path => path
  | file _ root _ => root

/-- The paths that a command names beside its project. -/
def otherPaths : Command → List String
  | docs _ _ output => output.toList
  | file target root _ => [Path.join root target]
  | _ => []

end Command

end ProjectSurvey.CommandLine
