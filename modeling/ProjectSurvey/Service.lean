import ProjectSurvey.Service.Address
import ProjectSurvey.Snapshot.Extent
import ProjectSurvey.Survey.Conduct

/-!
# The service

Surveys on request: a method, a path and a value in, a status and a value out. **A request is taken
leniently**: numbers and truth values may be written as texts, and members that are not known do not
matter, but a text must be a text. What an operation on a project refuses becomes a status; what
breaks down is passed on.
-/

namespace ProjectSurvey.Service

/-- What is asked for. -/
structure Request where
  /-- The method. -/
  method : String
  /-- The path. -/
  path : String
  /-- The value sent along. -/
  body : Option Datum

/-- What is answered. -/
structure Response where
  /-- The status. -/
  status : Nat
  /-- The value sent back. -/
  body : Option Datum

/-! ## Reading requests -/

/-- A survey that is asked for. -/
structure Order where
  /-- The path of the project. -/
  path : String
  /-- How deep to walk. -/
  maxDepth : Option Int
  /-- Directory names to pass over. -/
  ignore : List String
  /-- Whether to use the evidence cache. -/
  cache : Option Bool

/-- A text without a point and zeros, at least one, behind it. -/
def withoutZeros (cs : List Char) : List Char :=
  match cs.dropWhile (· ≠ '.') with
  | '.' :: '0' :: zeros => if zeros.all (· == '0') then cs.takeWhile (· ≠ '.') else cs
  | _ => cs

/-- The integer that a text of ASCII digits writes, of which zeros in front count for nothing. -/
def integerOfText? (s : String) : Option Int :=
  let (negative, digits) := match withoutZeros (Text.stripNumber s.toList) with
    | '-' :: r => (true, r)
    | '+' :: r => (false, r)
    | r => (false, r)
  let significant := (digits.filter (· != '_')).dropWhile (· == '0')
  if significant.length ≤ Text.digitLimit ∧ digits.all fun c => Text.isAsciiDigit c || c == '_' then
    (Text.digitsValue? digits).map fun n => if negative then -(n : Int) else n
  else none

/-- The integer that a double equals, if it fits into 64 bits with a sign. -/
def integerOfReal? (x : Binary64) : Option Int :=
  x.toInt?.bind fun n => if n.natAbs < 2 ^ (63 : Nat) then some n else none

/-- An integer: a number without a part behind the point, a truth value or a text that writes
one. -/
def integer? : Datum → Option Int
  | .int n => some n
  | .bool b => some (if b then 1 else 0)
  | .real x => integerOfReal? x
  | .text s => integerOfText? s
  | _ => none

/-- Texts that stand for true. -/
def trueWords : List String := ["1", "on", "t", "true", "y", "yes"]

/-- Texts that stand for false. -/
def falseWords : List String := ["0", "off", "f", "false", "n", "no"]

/-- A truth value: also one, zero and the words for them. -/
def truth? : Datum → Option Bool
  | .bool b => some b
  | .text s =>
    let word := s.toLower
    if trueWords.contains word then some true
    else if falseWords.contains word then some false
    else none
  | d => if d.equalsInt 1 then some true else if d.equalsInt 0 then some false else none

/-- A member that may be missing or null, read by `f`; nothing if `f` does not take it. -/
def optional? {α : Type} (d : Datum) (key : String) (f : Datum → Option α) : Option (Option α) :=
  match d.get? key with
  | none | some .null => some none
  | some v => (f v).map some

/-- A list of texts. -/
def texts? (d : Datum) : Option (List String) := d.list?.bind fun ds => ds.mapM Datum.text?

/-- The survey that a value asks for. -/
def order? (d : Datum) : Option Order := do
  let path ← (d.get? "path").bind Datum.text?
  let maxDepth ← optional? d "max_depth" integer?
  let ignore ← match d.get? "ignore" with
    | none => some []
    | some v => texts? v
  let cache ← optional? d "cache" truth?
  some { path, maxDepth, ignore, cache }

/-! ## Answers -/

/-- An answer that only says why. -/
def explained (status : Nat) (text : String) : Response :=
  ⟨status, some (.table [("detail", .text text)])⟩

/-- The answer to a failure; nothing if it is passed on. -/
def ofFailure? : Failure → Option Response
  | .notFound text => some (explained 404 text)
  | .notDirectory text => some (explained 400 text)
  | .notGranted text => some (explained 400 text)
  | .refused .missing path => some (explained 404 (Failure.refusalText .missing path))
  | .refused .noDirectory path => some (explained 400 (Failure.refusalText .noDirectory path))
  | .refused .denied path => some (explained 400 (Failure.refusalText .denied path))
  | f => f.invalidText?.map (explained 400)

/-- A finding as it is answered: its parts are texts and its line is an integer. A finding that was
kept by something else may say what has no place there. -/
def finding? (f : Finding) : Option Finding :=
  let said := [f.ruleId, f.category, f.severity, f.description]
  if said.all Datum.isText && (f.file.isText || f.file.isNull) then
    match f.line with
    | .null => some f
    | line => (integer? line).map fun n => { f with line := .int n }
  else none

/-- Findings as they are answered. -/
def findings (fs : List Finding) : Except Failure Datum :=
  match fs.mapM finding? with
  | some fs => .ok (.list (fs.map Finding.toDatum))
  | none => .error (.invalid "1 validation error for a finding")

/-- What the rules say, as a value. -/
def auditBody (s : Survey) : Except Failure Datum := do
  .ok (.table [("score", .int s.verdict.score), ("quality_level", .text s.advice.qualityLevel),
    ("findings", ← findings s.verdict.findings), ("security", ← findings s.security),
    ("suggestions", Datum.texts s.verdict.suggestions)])

/-- What is answered with a survey, by path. -/
def surveys : List (String × (Survey → Except Failure Datum)) := [
  ("/analyze", fun s => (Snapshot.ofSurvey s).layOut),
  ("/audit", auditBody),
  ("/focus", fun s => .ok (Snapshot.Counsel.ofAdvice s.advice).toDatum)]

/-- The paths of the pages that describe the service, of which none is a value. -/
def pages : List String := ["/openapi.json", "/docs", "/docs/oauth2-redirect", "/redoc"]

/-- Answers with a survey. -/
def answerSurvey (s : Surveyor) (body : Survey → Except Failure Datum) (sent : Option Datum) :
    Work Response := do
  match sent.bind order? with
  | none => pure ⟨422, none⟩
  | some o =>
    let wishes : Overrides :=
      { maxDepth := o.maxDepth, ignore := o.ignore, ignoreOnly := none, cache := o.cache }
    tryCatch (do
      let survey ← s.conduct o.path none wishes
      pure ⟨200, some (← Work.ofExcept (body survey))⟩) fun f =>
      match ofFailure? f with
      | some r => pure r
      | none => throw f

/-- Answers a request. -/
def respond (s : Surveyor) (r : Request) : Work Response := do
  let method := r.method.toUpper
  match Address.path? r.path with
  | none => pure (explained 404 "Not Found")
  | some path =>
    if path = "/health" then
      if method = "GET" then
        pure ⟨200, some (.table [("status", .text "ok"), ("version", .text Survey.version)])⟩
      else pure ⟨405, none⟩
    else if pages.contains path then
      pure ⟨if method = "GET" ∨ method = "HEAD" then 200 else 405, none⟩
    else
      match Assoc.get? path surveys with
      | none => pure (explained 404 "Not Found")
      | some body => if method = "POST" then answerSurvey s body r.body else pure ⟨405, none⟩

end ProjectSurvey.Service
