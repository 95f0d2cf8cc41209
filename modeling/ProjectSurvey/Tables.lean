import ProjectSurvey.Data.Assoc
import ProjectSurvey.Text.Lower

/-!
# Lookup tables

What the analysis knows about languages, directories, package managers and packages, bundled in one
value, `Tables`. Every stage takes its tables as an argument; `Tables.default` are the usual ones.
**A table in which order matters is a list of pairs and is read from the front.**
-/

namespace ProjectSurvey

/-- The suffixes and index files tried, in order, when a reference is resolved. -/
structure ResolutionProfile where
  /-- What is appended to a path. -/
  extensions : List String
  /-- The names of the files that stand for their directory. -/
  indexNames : List String
  deriving DecidableEq

/-- A runtime and the manifests that reveal it. -/
structure Runtime where
  /-- The type of a project of this runtime. -/
  kind : String
  /-- Its primary language. -/
  language : String
  /-- The names of its manifests. -/
  manifests : List String

/-- A label and the names it stands for. -/
structure Labelled where
  /-- What is reported. -/
  label : String
  /-- What is looked for. -/
  names : List String

/-- Every table that the analysis consults. -/
structure Tables where
  /-- Languages by lower-case extension, the dot included. -/
  languageByExtension : Assoc String String
  /-- Languages of files known by their full name. -/
  languageByFilename : Assoc String String
  /-- Source languages, whose lines are counted. -/
  countableLanguages : List String
  /-- What directories of a lower-case name are for. -/
  directoryPurposes : Assoc String String
  /-- Architecture patterns with the top-level directories each requires. -/
  architecturePatterns : List Labelled
  /-- The runtimes in the order in which they are considered. -/
  runtimes : List Runtime
  /-- Per runtime, the frameworks with the dependencies that reveal them. -/
  frameworks : Assoc String (List Labelled)
  /-- Files that reveal a build tool, in the order in which they are considered. -/
  buildTools : List (String × String)
  /-- Per project type, the lockfiles it may keep. -/
  lockfiles : Assoc String (List String)
  /-- Packages that harden a project. -/
  securityPackages : List String
  /-- Per package, its first release without known vulnerabilities. -/
  vulnerableBelow : Assoc String String
  /-- Per language, how references are resolved. -/
  resolutionProfiles : Assoc String ResolutionProfile

namespace Tables

/-- What a directory is for when no table says more. -/
def genericPurpose : String := "generic directory"

/-- What a directory of the given name is for. -/
def purposeFor (t : Tables) (name : String) : String :=
  (Assoc.get? (Text.lowered name) t.directoryPurposes).getD genericPurpose

/-- Whether files of a language are source code. -/
def isCountable (t : Tables) (language : String) : Bool := t.countableLanguages.contains language

/-! ## The usual tables -/

/-- The extensions tried for references in scripts. -/
def scriptExtensions : List String := [".js", ".ts", ".jsx", ".tsx", ".vue", ".mjs", ".cjs"]

/-- Languages by extension. -/
def extensionLanguages : Assoc String String := [
    (".py", "python"), (".pyi", "python"), (".js", "javascript"), (".mjs", "javascript"),
    (".cjs", "javascript"), (".jsx", "javascript"), (".ts", "typescript"),
    (".tsx", "typescript"), (".vue", "vue"), (".svelte", "svelte"), (".java", "java"),
    (".kt", "kotlin"), (".kts", "kotlin"), (".go", "go"), (".rs", "rust"), (".rb", "ruby"),
    (".php", "php"), (".cs", "csharp"), (".c", "c"), (".h", "c"), (".cpp", "cpp"),
    (".cc", "cpp"), (".hpp", "cpp"), (".hh", "cpp"), (".swift", "swift"), (".scala", "scala"),
    (".sh", "shell"), (".bash", "shell"), (".ps1", "powershell"), (".html", "html"),
    (".htm", "html"), (".css", "css"), (".scss", "css"), (".sass", "css"), (".less", "css"),
    (".sql", "sql"), (".md", "markdown"), (".rst", "restructuredtext"), (".txt", "text"),
    (".json", "json"), (".yaml", "yaml"), (".yml", "yaml"), (".toml", "toml"), (".xml", "xml"),
    (".ini", "ini"), (".cfg", "ini"), (".png", "image"), (".jpg", "image"), (".jpeg", "image"),
    (".gif", "image"), (".svg", "image"), (".ico", "image"), (".webp", "image"),
    (".woff", "font"), (".woff2", "font"), (".ttf", "font"), (".eot", "font"),
    (".zip", "archive"), (".gz", "archive"), (".tar", "archive"), (".pdf", "document")]

/-- Languages by file name. -/
def filenameLanguages : Assoc String String := [
    ("Dockerfile", "dockerfile"), ("Makefile", "makefile"), ("Gemfile", "ruby"),
    ("Rakefile", "ruby"), ("Jenkinsfile", "groovy")]

/-- Languages whose lines are counted. -/
def sourceLanguages : List String := [
    "python", "javascript", "typescript", "vue", "svelte", "java", "kotlin", "go", "rust",
    "ruby", "php", "csharp", "c", "cpp", "swift", "scala"]

/-- What directories are for. -/
def purposes : Assoc String String := [
    ("src", "source code"), ("source", "source code"), ("app", "application code"),
    ("lib", "library code"), ("components", "UI components"), ("pages", "pages"),
    ("routes", "routing"), ("api", "API endpoints"), ("utils", "utility functions"),
    ("helpers", "helper functions"), ("hooks", "UI hooks"), ("services", "service layer"),
    ("models", "data models"), ("entities", "data models"), ("schemas", "data schemas"),
    ("views", "views"), ("templates", "templates"), ("controllers", "controllers"),
    ("middleware", "middleware"), ("database", "database access"), ("db", "database access"),
    ("migrations", "database migrations"), ("config", "configuration"),
    ("public", "static assets"), ("static", "static assets"), ("assets", "assets"),
    ("styles", "stylesheets"), ("css", "stylesheets"), ("scss", "stylesheets"),
    ("tests", "tests"), ("test", "tests"), ("__tests__", "tests"),
    ("spec", "test specifications"), ("e2e", "end-to-end tests"), ("docs", "documentation"),
    ("documentation", "documentation"), ("examples", "examples"), ("scripts", "scripts"),
    ("tools", "tooling"), ("bin", "executables"), ("types", "type definitions"),
    ("typings", "type definitions"), ("packages", "workspace packages"),
    ("apps", "workspace applications")]

/-- Architecture patterns; one label may have several signs. -/
def patterns : List Labelled := [
    ⟨"MVC", ["models", "views", "controllers"]⟩,
    ⟨"Component-Based", ["components"]⟩,
    ⟨"Layered", ["services", "models"]⟩,
    ⟨"Layered", ["api", "database"]⟩,
    ⟨"Next.js Structure", ["pages", "public"]⟩,
    ⟨"Microservices", ["services", "api"]⟩,
    ⟨"Monorepo", ["packages", "apps"]⟩]

/-- Runtimes and their manifests. -/
def knownRuntimes : List Runtime := [
    ⟨"go", "go", ["go.mod"]⟩,
    ⟨"rust", "rust", ["Cargo.toml"]⟩,
    ⟨"python", "python",
      ["pyproject.toml", "requirements.txt", "setup.py", "setup.cfg", "Pipfile"]⟩,
    ⟨"node", "javascript", ["package.json"]⟩,
    ⟨"java", "java", ["pom.xml", "build.gradle", "build.gradle.kts"]⟩,
    ⟨"php", "php", ["composer.json"]⟩,
    ⟨"ruby", "ruby", ["Gemfile"]⟩]

/-- Frameworks and the dependencies that reveal them. -/
def knownFrameworks : Assoc String (List Labelled) := [
    ("node", [
      ⟨"Next.js", ["next"]⟩,
      ⟨"React", ["react"]⟩,
      ⟨"Vue", ["vue"]⟩,
      ⟨"Nuxt", ["nuxt"]⟩,
      ⟨"Angular", ["angular", "@angular/core"]⟩,
      ⟨"Svelte", ["svelte"]⟩,
      ⟨"Express", ["express"]⟩,
      ⟨"Koa", ["koa"]⟩,
      ⟨"NestJS", ["nestjs", "@nestjs/core"]⟩,
      ⟨"Fastify", ["fastify"]⟩]),
    ("python", [
      ⟨"Django", ["django"]⟩,
      ⟨"Flask", ["flask"]⟩,
      ⟨"FastAPI", ["fastapi"]⟩]),
    ("java", [
      ⟨"Spring Boot", ["spring-boot", "springframework"]⟩]),
    ("php", [
      ⟨"Laravel", ["laravel/framework"]⟩,
      ⟨"Symfony", ["symfony/framework-bundle", "symfony/symfony"]⟩]),
    ("ruby", [
      ⟨"Rails", ["rails"]⟩]),
    ("rust", [
      ⟨"Actix", ["actix-web"]⟩,
      ⟨"Axum", ["axum"]⟩,
      ⟨"Rocket", ["rocket"]⟩]),
    ("go", [
      ⟨"Gin", ["github.com/gin-gonic/gin"]⟩,
      ⟨"Echo", ["github.com/labstack/echo/v4"]⟩])]

/-- Build tools by their files. -/
def knownBuildTools : List (String × String) := [
    ("webpack.config.js", "webpack"), ("webpack.config.ts", "webpack"),
    ("vite.config.js", "vite"), ("vite.config.ts", "vite"), ("rollup.config.js", "rollup"),
    ("gulpfile.js", "gulp"), ("Gruntfile.js", "grunt"), ("Makefile", "make"),
    ("CMakeLists.txt", "cmake")]

/-- Lockfiles by project type. -/
def knownLockfiles : Assoc String (List String) := [
    ("node", ["package-lock.json", "yarn.lock", "pnpm-lock.yaml", "bun.lockb"]),
    ("rust", ["Cargo.lock"]),
    ("go", ["go.sum"]),
    ("php", ["composer.lock"]),
    ("ruby", ["Gemfile.lock"])]

/-- Packages that harden a project. -/
def hardeningPackages : List String := [
    "helmet", "cors", "bcrypt", "bcryptjs", "jsonwebtoken", "express-rate-limit",
    "express-validator", "csurf", "django-cors-headers", "flask-talisman", "flask-wtf"]

/-- First releases without known vulnerabilities. -/
def fixedReleases : Assoc String String := [
    ("lodash", "4.17.21"), ("minimist", "1.2.6"), ("jquery", "3.5.0"), ("axios", "0.21.1"),
    ("node-fetch", "2.6.7")]

/-- How references are resolved, by language. -/
def profiles : Assoc String ResolutionProfile := [
    ("javascript", ⟨scriptExtensions, ["index"]⟩),
    ("typescript", ⟨scriptExtensions, ["index"]⟩),
    ("vue", ⟨scriptExtensions, ["index"]⟩),
    ("svelte", ⟨scriptExtensions ++ [".svelte"], ["index"]⟩),
    ("python", ⟨[".py", ".pyi"], ["__init__"]⟩),
    ("php", ⟨[".php"], ["index"]⟩),
    ("ruby", ⟨[".rb"], []⟩),
    ("c", ⟨[".h", ".c"], []⟩),
    ("cpp", ⟨[".h", ".hpp", ".cpp"], []⟩)]

/-- The usual tables. -/
def default : Tables where
  languageByExtension := extensionLanguages
  languageByFilename := filenameLanguages
  countableLanguages := sourceLanguages
  directoryPurposes := purposes
  architecturePatterns := patterns
  runtimes := knownRuntimes
  frameworks := knownFrameworks
  buildTools := knownBuildTools
  lockfiles := knownLockfiles
  securityPackages := hardeningPackages
  vulnerableBelow := fixedReleases
  resolutionProfiles := profiles

/-- Frameworks that answer requests. -/
def serverFrameworks : List String := ["Express", "Koa", "NestJS", "Fastify"]

end Tables

end ProjectSurvey
