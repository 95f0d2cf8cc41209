import ProjectSurvey.Rule.ProjectChecks

/-!
# The built-in rules

The table of rules that come with the analysis, in the order in which they are evaluated: eight
about the project, nine about the text of files. **The order is part of the result**, because
findings and suggestions are reported in it. Only the rule on large files takes a parameter.
-/

namespace ProjectSurvey.Rule

/-- A project check that cannot break down. -/
def always (check : ProjectContext → List Sighting) (c : ProjectContext) :
    Option (List Sighting) := some (check c)

/-- Languages in which requests are answered and pages made. -/
def sourceLanguages : List String :=
  ["javascript", "typescript", "vue", "svelte", "python", "php"]

/-- Languages of scripts. -/
def scriptLanguages : List String := ["javascript", "typescript", "vue", "svelte"]

/-- Languages with asynchronous functions. -/
def asyncLanguages : List String := ["javascript", "typescript", "python"]

/-- The number of lines from which on a file is large, unless configured. -/
def defaultOversizedLines : Int := 500

/-- The built-in rules. -/
def builtin (oversizedLines : Int) : List Rule := [
  .project ⟨"missing-documentation", "quality", "warning", 10,
      "No README found at the project root",
      "Add a README describing setup, usage and architecture."⟩
    (always ProjectChecks.missingDocumentation),
  .project ⟨"missing-tests", "quality", "error", 20,
      "No test directory or test files found",
      "Add an automated test suite and run it in CI."⟩
    (always ProjectChecks.missingTests),
  .project ⟨"missing-lockfile", "quality", "warning", 10,
      "Dependency lockfile is missing",
      "Commit the package manager lockfile for reproducible installs."⟩
    (always ProjectChecks.missingLockfile),
  .project ⟨"missing-gitignore", "quality", "info", 0,
      "No .gitignore at the project root",
      "Add a .gitignore so build output and secrets stay out of version control."⟩
    (always ProjectChecks.missingGitignore),
  .project ⟨"high-complexity", "quality", "warning", 15,
      "Project size puts it in the high complexity bracket",
      "Split large areas into well-bounded modules or packages."⟩
    (always ProjectChecks.highComplexity),
  .project ⟨"env-file-committed", "security", "warning", 10,
      "Environment file present and not ignored",
      "Keep .env files out of version control and ship a .env.example instead."⟩
    (always ProjectChecks.envFileCommitted),
  .project ⟨"missing-security-middleware", "security", "info", 0,
      "Server framework without common security middleware",
      "Add security middleware such as helmet, cors and rate limiting."⟩
    (always ProjectChecks.missingSecurityMiddleware),
  .project ⟨"vulnerable-dependency", "security", "error", 20,
      "Dependency version with known vulnerabilities",
      "Upgrade vulnerable dependencies to a fixed release."⟩
    ProjectChecks.vulnerableDependency,
  .content ⟨"oversized-file", "quality", "warning", 10,
      "File is too large",
      "Split large files into smaller, focused modules."⟩
    [] false (Checks.oversizedFile oversizedLines),
  .content ⟨"input-validation", "security", "error", 25,
      "Request input used without validation",
      "Validate and sanitize all request input before use."⟩
    sourceLanguages true Checks.inputValidation,
  .content ⟨"sql-injection", "security", "error", 25,
      "SQL query built by string concatenation",
      "Use parameterized queries or an ORM instead of string-built SQL."⟩
    [] true Checks.sqlInjection,
  .content ⟨"xss-prevention", "security", "error", 20,
      "Unescaped output written to markup",
      "Escape or sanitize content before inserting it into HTML."⟩
    sourceLanguages true Checks.xssPrevention,
  .content ⟨"hardcoded-secret", "security", "error", 30,
      "Credential-like literal in source",
      "Load secrets from environment variables or a secret manager."⟩
    [] true Checks.hardcodedSecret,
  .content ⟨"code-injection", "security", "error", 30,
      "Dynamic code or shell execution",
      "Avoid eval and shell execution; pass arguments as lists."⟩
    [] true Checks.codeInjection,
  .content ⟨"sync-io", "performance", "warning", 10,
      "Synchronous filesystem I/O in request or async code",
      "Use fs.promises or async I/O in request handlers."⟩
    scriptLanguages true Checks.syncIo,
  .content ⟨"error-handling", "quality", "warning", 10,
      "Async code without error handling",
      "Wrap awaited calls in try/catch or attach rejection handlers."⟩
    asyncLanguages true Checks.errorHandling,
  .content ⟨"function-complexity", "quality", "warning", 10,
      "Functions are too complex",
      "Break complex functions into smaller units with early returns."⟩
    asyncLanguages true Checks.functionComplexity]

end ProjectSurvey.Rule
