import ProjectSurvey.Text.Classes
import ProjectSurvey.Text.Lower

/-!
# Text patterns

A small language of patterns over characters with its matcher. A pattern is tried at a `Cursor`,
alternatives from left to right, repetitions as long as possible unless they are `manyShort`; the
first way to reach the end of the pattern is the match. A repetition that gives nothing back
(`every`) stands where fewer characters could not help what follows. **The matcher is total**: it is
structural in the pattern, a repetition of one-character sets is structural in the text, and the
repetition of a whole pattern carries the characters left as fuel, because each round must consume
one.

The matcher decides by the characters around the cursor alone; offsets only measure what lies
between two places. So where a text stands in a larger one matters only through the one character in
front of it.
-/

namespace ProjectSurvey

/-- A set of characters. -/
abbrev CharSet := Char → Bool

namespace CharSet

/-- Exactly one character. -/
def only (c : Char) : CharSet := fun x => x == c

/-- The characters of a list. -/
def among (cs : List Char) : CharSet := fun x => cs.contains x

/-- The characters of a string. -/
@[inline] def anyOf (s : String) : CharSet := among s.toList

/-- Everything but the characters of a list. -/
def outside (cs : List Char) : CharSet := fun x => !(cs.contains x)

/-- Everything but the characters of a string. -/
@[inline] def noneOf (s : String) : CharSet := outside s.toList

/-- The characters from `lo` to `hi`. -/
def span (lo hi : Char) : CharSet := fun x => lo ≤ x && x ≤ hi

/-- Members of either set. -/
def or (a b : CharSet) : CharSet := fun x => a x || b x

/-- Members of both sets. -/
def and (a b : CharSet) : CharSet := fun x => a x && b x

/-- Characters outside a set. -/
def not (a : CharSet) : CharSet := fun x => !(a x)

/-- Word characters. -/
def word : CharSet := Text.isWord

/-- White space. -/
def blank : CharSet := Text.isBlank

/-- Decimal digits of every script. -/
def digit : CharSet := Text.isDecimal

/-- Every character. -/
def all : CharSet := fun _ => true

/-- Every character but the line feed. -/
def inLine : CharSet := fun x => x != '\n'

/-- ASCII letters and digits. -/
def alnum : CharSet := Text.isAsciiAlnum

/-- ASCII letters. -/
def letter : CharSet := Text.isAsciiLetter

/-- The lower-case ASCII letter `c` in every guise: its capital, and the three letters outside
ASCII that fold to one (dotted and dotless i, long s, the kelvin sign). -/
def anyCase (c : Char) : CharSet := fun x =>
  Text.lowerChar x == c || (c == 'i' && (x.toNat == 0x131 || x.toNat == 0x130)) ||
    (c == 's' && x.toNat == 0x17f)

end CharSet

/-! ## Patterns -/

/-- A pattern. -/
inductive Pattern where
  /-- Matches without consuming anything. -/
  | empty
  /-- One character of a set. -/
  | char (s : CharSet)
  /-- One pattern after another. -/
  | seq (a b : Pattern)
  /-- The first pattern or, failing that, the second. -/
  | either (a b : Pattern)
  /-- Any number of characters of a set, as many as possible. -/
  | many (s : CharSet)
  /-- Any number of characters of a set, as few as possible. -/
  | manyShort (s : CharSet)
  /-- All characters of a set that follow, none of them given back. -/
  | every (s : CharSet)
  /-- Any number of rounds of a pattern, as many as possible; each round consumes something. -/
  | rounds (a : Pattern)
  /-- A pattern whose text is remembered under a number. -/
  | group (n : Nat) (a : Pattern)
  /-- The text remembered under a number, once more. -/
  | again (n : Nat)
  /-- The border between a word character and something else. -/
  | wordEdge
  /-- The start of the text or a place after a line feed. -/
  | lineStart
  /-- The start of the text. -/
  | textStart
  /-- The end of the text, or a final line feed. -/
  | textEnd
  /-- A place not followed by a character of a set. -/
  | notBefore (s : CharSet)
  /-- A place not preceded by a character of a set. -/
  | notAfter (s : CharSet)

namespace Pattern

instance : Append Pattern := ⟨seq⟩

instance : OrOp Pattern := ⟨either⟩

/-- Exactly the characters of a string. -/
def lit (s : String) : Pattern := s.toList.foldr (fun c p => seq (char (CharSet.only c)) p) empty

/-- The characters of a lower-case string in any case. -/
def litAnyCase (s : String) : Pattern :=
  s.toList.foldr (fun c p => seq (char (CharSet.anyCase c)) p) empty

/-- The first pattern that fits. -/
def firstOf : List Pattern → Pattern
  | [] => char fun _ => false
  | [p] => p
  | p :: q :: ps => either p (firstOf (q :: ps))

/-- The first of several words that fits. -/
def oneOf (ws : List String) : Pattern := firstOf (ws.map lit)

/-- A pattern or nothing. -/
def opt (p : Pattern) : Pattern := either p empty

/-- One or more characters of a set. -/
def plus (s : CharSet) : Pattern := seq (char s) (many s)

/-- Exactly `n` characters of a set. -/
def times (n : Nat) (s : CharSet) : Pattern :=
  (List.replicate n (char s)).foldr seq empty

/-- All characters of a set that follow, of which there is one at least. -/
def stretch (s : CharSet) : Pattern := seq (char s) (every s)

/-- All blanks that follow. -/
def blanks : Pattern := every CharSet.blank

/-- All blanks that follow, of which there is one at least. -/
def gap : Pattern := stretch CharSet.blank

/-! ## Matching at one place -/

end Pattern

/-- A place in a text. -/
structure Cursor where
  /-- The character in front of the place. -/
  prev : Option Char
  /-- What follows the place. -/
  rest : List Char
  /-- How many characters stand in front of the place. -/
  offset : Nat

namespace Cursor

/-- The start of a text. -/
def start (cs : List Char) : Cursor := ⟨none, cs, 0⟩

/-- The place one character on. -/
def advance (c : Cursor) (x : Char) (cs : List Char) : Cursor :=
  ⟨some x, cs, c.offset + 1⟩

/-- The text between two places. -/
def upTo (a b : Cursor) : List Char := a.rest.take (b.offset - a.offset)

/-- Whether a word character stands in front. -/
def wordBefore (c : Cursor) : Bool :=
  match c.prev with
  | some x => Text.isWord x
  | none => false

/-- Whether a word character follows. -/
def wordAfter (c : Cursor) : Bool :=
  match c.rest with
  | x :: _ => Text.isWord x
  | [] => false

/-- The places reached by consuming characters of a set, the farthest first. -/
def reach (s : CharSet) : List Char → Cursor → List Cursor → List Cursor
  | [], c, acc => c :: acc
  | x :: cs, c, acc => if s x then reach s cs (c.advance x cs) (c :: acc) else c :: acc

/-- The first place that no character of a set follows. -/
def past (s : CharSet) : List Char → Cursor → Cursor
  | [], c => c
  | x :: cs, c => if s x then past s cs (c.advance x cs) else c

end Cursor

/-- The texts remembered so far, the latest first: number, place of its start, length. -/
abbrev Marks := List (Nat × List Char × Nat)

/-- A matcher in progress: where it stands and what it remembers. -/
structure MatchState where
  /-- Where the matcher stands. -/
  place : Cursor
  /-- The texts of the groups passed. -/
  marks : Marks

/-- The text remembered under a number. -/
def Marks.text? (marks : Marks) (n : Nat) : Option (List Char) :=
  (marks.lookup n).map fun (cs, len) => cs.take len

namespace Pattern

/-- What comes after a pattern: it may still fail. -/
abbrev Next := MatchState → Option MatchState

/-- Consumes the characters of a given text. -/
def consume (text : List Char) (k : Next) (st : MatchState) : Option MatchState :=
  match text, st.place.rest with
  | [], _ => k st
  | _ :: _, [] => none
  | t :: ts, x :: cs =>
    if t == x then consume ts k { st with place := st.place.advance x cs } else none

/-- As few characters of a set as let `k` succeed. -/
def fewest (s : CharSet) (k : Next) (marks : Marks) : List Char → Cursor → Option MatchState
  | [], c => k ⟨c, marks⟩
  | x :: cs, c =>
    match k ⟨c, marks⟩ with
    | some r => some r
    | none => if s x then fewest s k marks cs (c.advance x cs) else none

/-- As many rounds of `step` as possible before `k`; every round must consume a character. The fuel
is the text in front of which the rounds begin. -/
def repeated (step : Next → Next) (k : Next) : (fuel : List Char) → Next
  | [], st => k st
  | _ :: fuel, st =>
    match step (fun st' =>
        if st.place.offset < st'.place.offset then repeated step k fuel st' else none) st with
    | some r => some r
    | none => k st

/-- Matches a pattern from `st` on and goes on with `k`. -/
def run : Pattern → Next → Next
  | empty, k, st => k st
  | char s, k, st =>
    match st.place.rest with
    | x :: cs => if s x then k { st with place := st.place.advance x cs } else none
    | [] => none
  | seq a b, k, st => run a (run b k) st
  | either a b, k, st =>
    match run a k st with
    | some r => some r
    | none => run b k st
  | many s, k, st =>
    (Cursor.reach s st.place.rest st.place []).findSome? fun c => k ⟨c, st.marks⟩
  | manyShort s, k, st => fewest s k st.marks st.place.rest st.place
  | every s, k, st => k { st with place := Cursor.past s st.place.rest st.place }
  | rounds a, k, st => repeated (run a) k st.place.rest st
  | group n a, k, st =>
    run a (fun st' =>
      k { st' with marks :=
            (n, st.place.rest, st'.place.offset - st.place.offset) :: st'.marks }) st
  | again n, k, st =>
    match st.marks.text? n with
    | some text => consume text k st
    | none => none
  | wordEdge, k, st => if st.place.wordBefore != st.place.wordAfter then k st else none
  | lineStart, k, st =>
    if st.place.prev.isNone || st.place.prev == some '\n' then k st else none
  | textStart, k, st => if st.place.prev.isNone then k st else none
  | textEnd, k, st =>
    match st.place.rest with
    | [] => k st
    | ['\n'] => k st
    | _ => none
  | notBefore s, k, st =>
    match st.place.rest with
    | x :: _ => if s x then none else k st
    | [] => k st
  | notAfter s, k, st =>
    match st.place.prev with
    | some x => if s x then none else k st
    | none => k st

end Pattern

/-! ## Matches in a text -/

/-- A match of a pattern. -/
structure Match where
  /-- Where it starts. -/
  start : Cursor
  /-- Where it ends. -/
  stop : Cursor
  /-- What its groups remember. -/
  marks : Marks

namespace Match

/-- The text matched. -/
def text (m : Match) : List Char := m.start.upTo m.stop

/-- The text of a group; `none` if the match went round it. -/
def group? (m : Match) (n : Nat) : Option (List Char) := m.marks.text? n

/-- The text of a group, empty if the match went round it. -/
def groupText (m : Match) (n : Nat) : List Char := (m.group? n).getD []

/-- The text of the first group of the given numbers that holds a character. -/
def firstGroup (m : Match) (ns : List Nat) : List Char :=
  ((ns.filterMap m.group?).find? fun t => !t.isEmpty).getD []

/-- The number of the line of `text` on which the match starts: one plus the line feeds before. -/
def line (m : Match) (text : List Char) : Nat := (text.take m.start.offset).count '\n' + 1

end Match

namespace Pattern

/-- The match at a given place. -/
def matchAt? (p : Pattern) (c : Cursor) : Option Match :=
  (p.run some ⟨c, []⟩).map fun st => ⟨c, st.place, st.marks⟩

/-- The match at the start of a text. -/
def atStart? (p : Pattern) (text : List Char) : Option Match := p.matchAt? (Cursor.start text)

/-- The first match at or after a place. -/
def firstFrom? (p : Pattern) : List Char → Cursor → Option Match
  | [], c => p.matchAt? c
  | x :: cs, c =>
    match p.matchAt? c with
    | some m => some m
    | none => firstFrom? p cs (c.advance x cs)

/-- The first match in a text. -/
def find? (p : Pattern) (text : List Char) : Option Match :=
  p.firstFrom? text (Cursor.start text)

/-- Whether a pattern matches somewhere in a text. -/
def occurs (p : Pattern) (text : List Char) : Bool := (p.find? text).isSome

/-- The matches at or after a place that do not overlap, from left to right: no match starts
before the offset `resume`. `acc` holds those found, last one first. -/
def allFrom (p : Pattern) (resume : Nat) (acc : List Match) : List Char → Cursor → List Match
  | [], c =>
    if c.offset < resume then acc.reverse
    else match p.matchAt? c with
      | some m => (m :: acc).reverse
      | none => acc.reverse
  | x :: cs, c =>
    if c.offset < resume then allFrom p resume acc cs (c.advance x cs)
    else match p.matchAt? c with
      | some m =>
        allFrom p (max m.stop.offset (c.offset + 1)) (m :: acc) cs (c.advance x cs)
      | none => allFrom p resume acc cs (c.advance x cs)

/-- All matches in a text that do not overlap, from left to right. -/
def findAll (p : Pattern) (text : List Char) : List Match :=
  p.allFrom 0 [] text (Cursor.start text)

/-- How many matches a text has. -/
def count (p : Pattern) (text : List Char) : Nat := (p.findAll text).length

end Pattern

end ProjectSurvey
