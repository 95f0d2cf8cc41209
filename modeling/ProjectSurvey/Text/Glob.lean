/-!
# Shell patterns

Matching a whole text against a pattern with `*`, `?` and bracketed sets. **A star matches every
character, the slash included**; an opening bracket without its partner stands for itself, and
upper and lower case differ. `Glob.parse` reads a pattern as a list of parts; `Glob.accepts` decides
part by part for all ends of the text at once, so its cost is the product of their lengths.
-/

namespace ProjectSurvey.Text

/-- One part of a shell pattern. -/
inductive GlobPart where
  /-- Any run of characters. -/
  | star
  /-- Any one character. -/
  | one
  /-- Exactly this character. -/
  | exact (c : Char)
  /-- One character inside one of the ranges, or outside all of them when `negated`. -/
  | set (negated : Bool) (ranges : List (Char × Char))
  deriving Repr

namespace Glob

/-- The text between an opening bracket and its partner, and what follows the partner. A closing
bracket directly after the opening one, or after its exclamation mark, is a member. -/
def bracket? (cs : List Char) : Option (List Char × List Char) :=
  let (bang, rest) := match cs with
    | '!' :: r => (['!'], r)
    | r => ([], r)
  let (first, rest) := match rest with
    | ']' :: r => ([']'], r)
    | r => ([], r)
  match rest.dropWhile (· != ']') with
  | [] => none
  | _ :: tail => some (bang ++ first ++ rest.takeWhile (· != ']'), tail)

/-- The parts of the text of a set between the hyphens of its ranges. The first `least` characters
of a part hold no such hyphen, and behind the hyphen of a range the next two do not. The fuel is the
text. -/
def chunks (least : Nat) : (fuel cs : List Char) → List (List Char)
  | [], cs => [cs]
  | _ :: fuel, cs =>
    let front := cs.take least ++ (cs.drop least).takeWhile (· != '-')
    match cs.drop front.length with
    | [] => [front]
    | _ :: rest => front :: chunks 2 fuel rest

/-- The parts with a hyphen in place of an empty last part, which is no end of a range. -/
def closeChunks : List (List Char) → List (List Char)
  | [] => []
  | [c, []] => [c ++ ['-']]
  | c :: cs => c :: closeChunks cs

/-- The parts without the ranges whose ends are in the wrong order, from the last range on; the
parts on either side become one. -/
def withoutEmpty : List (List Char) → List (List Char)
  | [] => []
  | c :: cs =>
    match withoutEmpty cs with
    | [] => [c]
    | d :: ds =>
      match c.getLast?, d with
      | some lo, hi :: tail => if hi < lo then (c.dropLast ++ tail) :: ds else c :: d :: ds
      | _, _ => c :: d :: ds

/-- The ranges that the parts of a set stand for, `c` being the first part; a hyphen behind no
character is a member. -/
def ranges (c : List Char) : List (List Char) → List (Char × Char)
  | [] => c.map fun a => (a, a)
  | d :: ds =>
    match c.getLast?, d with
    | some lo, hi :: tail => (c.dropLast.map fun a => (a, a)) ++ (lo, hi) :: ranges tail ds
    | _, _ => ('-', '-') :: ranges d ds

/-- The part that the text of a bracketed set stands for. Whether it begins with an exclamation mark
is seen after the empty ranges are gone: alone it stands for any character, and nothing at all for
none. -/
def setOf (text : List Char) : GlobPart :=
  match withoutEmpty (closeChunks (chunks (if text.head? = some '!' then 2 else 1) text text)) with
  | [['!']] => .one
  | ('!' :: c) :: cs => .set true (ranges c cs)
  | c :: cs => .set false (ranges c cs)
  | [] => .set false []

/-- The parts of a pattern. The fuel is the pattern itself. -/
def parse (pattern : List Char) : List GlobPart :=
  go pattern pattern
where
  /-- One part per round. -/
  go : (fuel cs : List Char) → List GlobPart
    | [], _ => []
    | _, [] => []
    | _ :: fuel, c :: cs =>
      match c with
      | '*' => .star :: go fuel cs
      | '?' => .one :: go fuel cs
      | '[' =>
        match bracket? cs with
        | none => .exact '[' :: go fuel cs
        | some (members, rest) => setOf members :: go fuel rest
      | c => .exact c :: go fuel cs

/-- Whether one part accepts the one character `c`; a star is no such part. -/
def partAccepts (c : Char) : GlobPart → Bool
  | .star => false
  | .one => true
  | .exact d => c == d
  | .set negated ranges => ranges.any (fun (lo, hi) => lo ≤ c && c ≤ hi) != negated

/-- For each end of a text, the longest first, whether the truth of it or of a shorter one holds. -/
def anyShorter (truths : List Bool) : List Bool :=
  truths.foldr (fun b shorter => (b || shorter.headD false) :: shorter) []

/-- For each end of a text, the longest first, whether the parts accept it as a whole. -/
def acceptedEnds : List GlobPart → List Char → List Bool
  | [], cs => cs.map (fun _ => false) ++ [true]
  | .star :: ps, cs => anyShorter (acceptedEnds ps cs)
  | p :: ps, cs =>
    (cs.zipWith (fun c b => partAccepts c p && b) ((acceptedEnds ps cs).drop 1)) ++ [false]

/-- Whether the parts accept a text as a whole. -/
def accepts (ps : List GlobPart) (cs : List Char) : Bool := (acceptedEnds ps cs).headD false

/-- Whether a pattern accepts a text as a whole. -/
def isMatch (pattern text : String) : Bool := accepts (parse pattern.toList) text.toList

end Glob

end ProjectSurvey.Text
