import ProjectSurvey.Text.Chars

/-!
# The calendar

Dates and times of day as numbers, and which of them exist: **the day must be one of the month and
the year one from 1 to 9999**. A moment is a date and a time, with its distance from the zero
meridian or without; it is shown with a letter T between the two. `Moment.ofNanoseconds` is what a
clock shows.
-/

namespace ProjectSurvey

/-- A calendar date. -/
structure Date where
  /-- The year, from 1 on. -/
  year : Nat
  /-- The month, from 1 on. -/
  month : Nat
  /-- The day, from 1 on. -/
  day : Nat

/-- A time of day. -/
structure Time where
  /-- The hour. -/
  hour : Nat
  /-- The minute. -/
  minute : Nat
  /-- The second. -/
  second : Nat
  /-- The millionths of a second. -/
  micro : Nat

/-- Whether a year has a day more. -/
def isLeap (year : Nat) : Bool := year % 4 == 0 && (year % 100 != 0 || year % 400 == 0)

/-- The number of days of a month. -/
def daysIn (year month : Nat) : Nat :=
  if month = 2 then (if isLeap year then 29 else 28)
  else if [4, 6, 9, 11].contains month then 30 else 31

/-- A length of time in millionths of a second. -/
abbrev Duration := Int

/-- A date, a time and by how much clocks there are ahead of the zero meridian. -/
structure Moment where
  /-- The date. -/
  date : Date
  /-- The time of day. -/
  time : Time
  /-- By how much clocks are ahead. -/
  offset : Option Duration

namespace Duration

/-- A number of seconds. -/
def ofSeconds (n : Int) : Duration := n * 1000000

/-- A number of minutes. -/
def ofMinutes (n : Int) : Duration := ofSeconds (n * 60)

end Duration

/-! ## What exists -/

/-- What is wrong with a moment. -/
inductive MomentFault where
  /-- There is no such year. -/
  | year (n : Nat)
  /-- There is no such month. -/
  | month
  /-- The month has no such day. -/
  | day
  /-- There is no such hour. -/
  | hour
  /-- There is no such minute. -/
  | minute
  /-- There is no such second. -/
  | second
  /-- The distance from the zero meridian is a day or more. -/
  | offset (distance : Duration)
  /-- The text does not write a moment. -/
  | shape (text : String)
  deriving DecidableEq

/-- What is wrong with a date, if anything. -/
def Date.fault? (d : Date) : Option MomentFault :=
  if d.year = 0 ∨ 9999 < d.year then some (.year d.year)
  else if d.month = 0 ∨ 12 < d.month then some .month
  else if d.day = 0 ∨ daysIn d.year d.month < d.day then some .day
  else none

/-- What is wrong with a time, if anything. -/
def Time.fault? (t : Time) : Option MomentFault :=
  if 24 ≤ t.hour then some .hour
  else if 60 ≤ t.minute then some .minute
  else if 60 ≤ t.second then some .second
  else none

/-- What is wrong with a distance from the zero meridian, if anything. -/
def Duration.offsetFault? (d : Duration) : Option MomentFault :=
  if d.natAbs < 86400000000 then none else some (.offset d)

/-- What is wrong with a moment, if anything; its distance from the zero meridian is looked at
first. -/
def Moment.fault? (m : Moment) : Option MomentFault :=
  (m.offset.bind Duration.offsetFault?).or (m.date.fault?.or m.time.fault?)

/-! ## Counting -/

/-- The date of a day, counted from 1 January 1970. Years are taken to begin in March here, so that
a leap day is the last day of its year, and are counted in rounds of 400, which are all equally
long. -/
def Date.ofDays (days : Int) : Date :=
  let fromMarch := (days + 719468).toNat
  let inRound := fromMarch % 146097
  let year := (inRound - inRound / 1460 + inRound / 36524 - inRound / 146096) / 365
  let inYear := inRound - (365 * year + year / 4 - year / 100)
  let march := (5 * inYear + 2) / 153
  { year := year + fromMarch / 146097 * 400 + (if march < 10 then 0 else 1)
    month := if march < 10 then march + 3 else march - 9
    day := inYear - (153 * march + 2) / 5 + 1 }

/-- The moment so many nanoseconds after the beginning of 1970, on the zero meridian. -/
def Moment.ofNanoseconds (n : Int) : Moment :=
  let seconds := n / 1000000000
  let inDay := (seconds % 86400).toNat
  { date := Date.ofDays (seconds / 86400)
    time := ⟨inDay / 3600, inDay / 60 % 60, inDay % 60, (n % 1000000000 / 1000).toNat⟩
    offset := some 0 }

/-! ## Texts -/

/-- A number with at least `width` digits. -/
def padded (width n : Nat) : String :=
  let ds := Text.decimal n
  String.ofList (List.replicate (width - ds.length) '0' ++ ds)

/-- A date as it is shown. -/
def Date.text (d : Date) : String :=
  padded 4 d.year ++ "-" ++ padded 2 d.month ++ "-" ++ padded 2 d.day

/-- A time as it is shown. -/
def Time.text (t : Time) : String :=
  padded 2 t.hour ++ ":" ++ padded 2 t.minute ++ ":" ++ padded 2 t.second ++
    (if t.micro = 0 then "" else "." ++ padded 6 t.micro)

/-- A distance from the zero meridian as it is shown; seconds are left out if there are none. -/
def Duration.offsetText (d : Duration) : String :=
  let seconds := d.natAbs / 1000000
  let micro := d.natAbs % 1000000
  (if d < 0 then "-" else "+") ++ padded 2 (seconds / 3600) ++ ":" ++
    padded 2 (seconds / 60 % 60) ++
    (if seconds % 60 = 0 ∧ micro = 0 then "" else ":" ++ padded 2 (seconds % 60)) ++
    (if micro = 0 then "" else "." ++ padded 6 micro)

/-- A moment as it is shown; the zero meridian is a letter Z. -/
def Moment.text (m : Moment) : String :=
  m.date.text ++ "T" ++ m.time.text ++
    ((m.offset.map Duration.offsetText).getD "").replace "+00:00" "Z"

/-- A length of time inside a container: whole days first, and of the rest what is not zero. -/
def Duration.literal (d : Duration) : String :=
  let part (name : String) (n : Int) : List String :=
    if n = 0 then [] else [name ++ "=" ++ String.ofList (Text.decimalInt n)]
  let parts := part "days" (d / 86400000000) ++ part "seconds" (d % 86400000000 / 1000000) ++
    part "microseconds" (d % 1000000)
  "datetime.timedelta(" ++ (if parts.isEmpty then "0" else Text.commaJoin ", " parts) ++ ")"

end ProjectSurvey
