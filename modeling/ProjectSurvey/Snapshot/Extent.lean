import ProjectSurvey.Failure
import ProjectSurvey.Json.Writer

/-!
# How far down snapshots go

Laying out a snapshot goes down into its parts step by step, directory in directory. **A snapshot
that goes further down than `room` is not laid out**; nothing is left out of it instead. Its text is
not made either if it holds an integer that is too long to be shown.
-/

namespace ProjectSurvey.Snapshot

mutual

/-- How many steps down it takes to lay a value out: one into a table, two into a list and three at
a value that holds no others. -/
def steps : Datum → Nat
  | .list items => 2 + stepsOf items
  | .table members => 1 + stepsOfMembers members
  | _ => 3

/-- The greatest number of steps among items. -/
def stepsOf : List Datum → Nat
  | [] => 0
  | d :: ds => max (steps d) (stepsOf ds)

/-- The greatest number of steps among members. -/
def stepsOfMembers : List (String × Datum) → Nat
  | [] => 0
  | (_, d) :: ms => max (steps d) (stepsOfMembers ms)

end

/-- How many steps down there is room for. -/
def room : Nat := 987

/-- A value, if there is room to lay it out. -/
def withinRoom (d : Datum) : Except Failure Datum :=
  if steps d ≤ room then .ok d else .error .tooDeep

/-- A snapshot as a value, if there is room to lay it out. -/
def layOut (s : Snapshot) : Except Failure Datum := withinRoom s.toDatum

/-- The text of a snapshot, if there is room to lay it out and its integers can be shown. -/
def text? (s : Snapshot) : Except Failure (List Char) :=
  s.layOut.bind fun d =>
    if d.isShowable then .ok (Json.pretty d) else .error (.invalid Failure.unshowableText)

end ProjectSurvey.Snapshot
