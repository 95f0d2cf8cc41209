import ProjectSurvey.Data.Calendar
import ProjectSurvey.Data.Datum

/-!
# Dates and times

Calendar dates, times of day and moments with or without an offset, as TOML writes them, and the
two ways in which they are shown.
-/

namespace ProjectSurvey.Toml

/-- A number. -/
def shown (n : Nat) : String := String.ofList (Text.decimal n)

/-- The parts of a date as arguments. -/
def dateArguments (d : Date) : List String := [shown d.year, shown d.month, shown d.day]

/-- The parts of a time as arguments; zeros at the end are left out. -/
def timeArguments (t : Time) : List String :=
  [shown t.hour, shown t.minute] ++
    (if t.micro ≠ 0 then [shown t.second, shown t.micro]
      else if t.second ≠ 0 then [shown t.second] else [])

/-- A distance from the zero meridian inside a container. -/
def offsetLiteral (d : Duration) : String :=
  if d = 0 then "datetime.timezone.utc" else "datetime.timezone(" ++ d.literal ++ ")"

/-- The value of a date. -/
def ofDate (d : Date) : Datum :=
  .moment d.text ("datetime.date(" ++ Text.commaJoin ", " (dateArguments d) ++ ")")

/-- The value of a time of day. -/
def ofTime (t : Time) : Datum :=
  .moment t.text ("datetime.time(" ++ Text.commaJoin ", " (timeArguments t) ++ ")")

/-- The value of a moment, with its distance from the zero meridian if it has one. -/
def ofMoment (d : Date) (t : Time) (offset : Option Duration) : Datum :=
  let zone := match offset with
    | some o => ["tzinfo=" ++ offsetLiteral o]
    | none => []
  .moment (d.text ++ " " ++ t.text ++ (offset.map Duration.offsetText).getD "")
    ("datetime.datetime(" ++
      Text.commaJoin ", " (dateArguments d ++ timeArguments t ++ zone) ++ ")")

end ProjectSurvey.Toml
