import ProjectSurvey.Data.Calendar
import ProjectSurvey.Text.Utf8

/-!
# Reading moments

Reading the standard form of dates and times, such as `2024-01-02T03:04:05.5+00:00`. The parts may
be written with their signs between them or without, a date may be given by its week, and **any
character may stand between the date and the time**. `Moment.ofText` reads a text; it is read as
octets, and where nothing follows, a zero octet is seen.
-/

namespace ProjectSurvey

namespace Timestamp

/-- The character of an octet that is none. -/
def nul : Char := Char.ofNat 0

/-- The number that the next `count` digits write, and the rest. -/
def digits? (count : Nat) (cs : List Char) : Option (Nat × List Char) :=
  let ds := cs.take count
  if ds.length = count ∧ ds.all Char.isDigit then
    some ((Text.number? 10 ds).getD 0, cs.drop count)
  else none

/-! ## Times -/

/-- A time as it was read. -/
structure Clock where
  /-- The hour. -/
  hour : Nat
  /-- The minute. -/
  minute : Nat
  /-- The second. -/
  second : Nat
  /-- The millionths of a second. -/
  micro : Nat
  /-- Whether something follows that is no part of it. -/
  hasRest : Bool

/-- The part behind the point of a second, of which six digits count. What follows the text is
`next`. -/
def fraction? (next : Char) (cs : List Char) : Option (Nat × Bool) := do
  let count := min 6 cs.length
  let (n, rest) ← digits? count cs
  some (n * 10 ^ (6 - count), (rest.dropWhile Char.isDigit).headD next != nul)

/-- The parts of a time from the hour on, the ones before being `seen`; `colons` is whether they are
separated, once that is known. A single character behind a part ends the reading. -/
def parts? (next : Char) (colons : Option Bool) (seen : List Nat) :
    (left : Nat) → List Char → Option (List Nat × Nat × Bool)
  | 0, cs => (fraction? next cs).map fun (micro, hasRest) => (seen, micro, hasRest)
  | left + 1, cs => do
    let (n, rest) ← digits? 2 cs
    let seen := seen ++ [n]
    match rest with
    | [] => some (seen, 0, next != nul)
    | [c] => some (seen, 0, c != nul)
    | c :: behind =>
      let colons := colons.getD (c == ':')
      if colons && c == ':' then parts? next (some colons) seen left behind
      else if c == '.' || c == ',' then
        (fraction? next behind).map fun (micro, hasRest) => (seen, micro, hasRest)
      else if colons then none
      else parts? next (some colons) seen left rest

/-- The time of a text in front of the character `next`. -/
def clock? (next : Char) (cs : List Char) : Option Clock := do
  let (seen, micro, hasRest) ← parts? next none [] 3 cs
  some ⟨seen.getD 0 0, seen.getD 1 0, seen.getD 2 0, micro, hasRest⟩

/-- The distance from the zero meridian behind its sign. -/
def distance? (cs : List Char) : Option Duration := do
  let c ← clock? nul cs
  if c.hasRest then none
  else some (Duration.ofSeconds (c.hour * 3600 + c.minute * 60 + c.second : Nat) + c.micro)

/-- A time with the distance from the zero meridian, if one is given. -/
def time? (cs : List Char) : Option (Time × Option Duration) := do
  let front := cs.takeWhile fun c => c != '+' && c != '-' && c != 'Z'
  let c ← clock? ((cs.drop front.length).headD nul) front
  let time : Time := ⟨c.hour, c.minute, c.second, c.micro⟩
  match cs.drop front.length with
  | [] => if c.hasRest then none else some (time, none)
  | 'Z' :: rest => if rest.headD nul = nul then some (time, some 0) else none
  | '-' :: rest => do some (time, some (-(← distance? rest)))
  | _ :: rest => do some (time, some (← distance? rest))

/-! ## Dates -/

/-- Days from 1 January 1970 to the first of a year. -/
def daysToYear (year : Nat) : Int :=
  let before : Int := year - 1
  before * 365 + before / 4 - before / 100 + before / 400 - 719162

/-- Days from 1 January 1970 to the Monday of the first week of a year, which is the one with its
first Thursday. -/
def daysToWeeks (year : Nat) : Int :=
  let first := daysToYear year
  let weekday := (first + 3) % 7
  if weekday ≤ 3 then first - weekday else first - weekday + 7

/-- How many weeks a year has. -/
def weeksIn (year : Nat) : Nat := ((daysToWeeks (year + 1) - daysToWeeks year) / 7).toNat

/-- The date of a day of a week. -/
def ofWeek? (year week day : Nat) : Option Date :=
  if year = 0 ∨ week = 0 ∨ weeksIn year < week ∨ day = 0 ∨ 7 < day then none
  else some (Date.ofDays (daysToWeeks year + ((week - 1) * 7 + (day - 1) : Nat)))

/-- The date that a whole text writes: by month and day, or by week and perhaps day. -/
def date? (cs : List Char) : Option Date := do
  let (year, rest) ← digits? 4 cs
  let (spaced, rest) := match rest with
    | '-' :: rest => (true, rest)
    | rest => (false, rest)
  let sign? (rest : List Char) : Option (List Char) :=
    if spaced then Text.after? ['-'] rest else some rest
  match rest with
  | 'W' :: rest => do
    let (week, rest) ← digits? 2 rest
    if rest.isEmpty then ofWeek? year week 1
    else do
      let (day, rest) ← digits? 1 (← sign? rest)
      if rest.isEmpty then ofWeek? year week day else none
  | rest => do
    let (month, rest) ← digits? 2 rest
    let (day, rest) ← digits? 2 (← sign? rest)
    if rest.isEmpty then some ⟨year, month, day⟩ else none

/-- How long the date at the front of a text is; nothing if that cannot be told. -/
def dateLength? (cs : List Char) : Option Nat :=
  let at? (n : Nat) : Char := cs.getD n nul
  if cs.length = 7 then some 7
  else if at? 4 = '-' then
    if at? 5 = 'W' then
      if cs.length > 8 ∧ at? 8 = '-' then
        if cs.length = 9 then none
        else if (at? 10).isDigit then some 8
        else some 10
      else some 8
    else some 10
  else if at? 4 = 'W' then
    let run := 7 + ((cs.drop 7).takeWhile Char.isDigit).length
    if run < 9 then some run else if run % 2 = 0 then some 7 else some 8
  else some 8

/-- A text without the character between date and time. -/
def behindSeparator : List Char → List Char
  | [] => []
  | c :: cs =>
    let n := c.toNat
    cs.drop (if n < 0x80 then 0 else if n / 16 = 14 then 2 else if n / 16 = 15 then 3 else 1)

end Timestamp

/-- The moment that a text writes, without a look at whether it exists. -/
def Moment.written? (s : String) : Option Moment := do
  let cs := (Text.Utf8.encode s.toList).map fun b => Char.ofNat b.toNat
  let length ← Timestamp.dateLength? cs
  let date ← Timestamp.date? (cs.take length)
  if cs.length ≤ length then some ⟨date, ⟨0, 0, 0, 0⟩, none⟩
  else do
    let (time, offset) ← Timestamp.time? (Timestamp.behindSeparator (cs.drop length))
    some ⟨date, time, offset⟩

/-- The moment that a text writes. -/
def Moment.ofText (s : String) : Except MomentFault Moment :=
  match Moment.written? s with
  | none => .error (.shape s)
  | some m =>
    match m.fault? with
    | some f => .error f
    | none => .ok m

end ProjectSurvey
