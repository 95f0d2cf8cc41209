import ProjectSurvey.Number.Basic
import Std.Data.HashSet

/-!
# Lists of characters

The operations on `List Char` that the readers, the matchers and the printers share: fields
between separators, replacement, what follows a given beginning. **Every function is structural
or a fold**, so that a long text costs no stack. `pieces` never returns the empty list, and
joining the pieces of a text gives the text back (`join_pieces`). `distinct` keeps what was met in a
set; `distinct_eq_foldl` says its result without one.
-/

namespace ProjectSurvey.Text

/-! ## Fields between separators -/

/-- The step of `pieces`, from the right: a separator opens a new piece. -/
def pieceStep (sep : Char) (c : Char) : List (List Char) → List (List Char)
  | [] => if c = sep then [[], []] else [[c]]
  | p :: ps => if c = sep then [] :: p :: ps else (c :: p) :: ps

/-- The pieces of a text between the occurrences of `sep`; one more than there are occurrences. -/
def pieces (sep : Char) (cs : List Char) : List (List Char) :=
  cs.foldr (pieceStep sep) [[]]

/-- The pieces in order, `sep` between neighbours. -/
def join (sep : List Char) : List (List Char) → List Char
  | [] => []
  | [p] => p
  | p :: q :: ps => p ++ sep ++ join sep (q :: ps)

/-- The empty text has one piece, the empty one. -/
@[simp] theorem pieces_nil (sep : Char) : pieces sep [] = [[]] := rfl

/-- The pieces of a text come from those of its rest. -/
theorem pieces_cons (sep c : Char) (cs : List Char) :
    pieces sep (c :: cs) = pieceStep sep c (pieces sep cs) := rfl

/-- Every text has a piece. -/
theorem pieces_ne_nil (sep : Char) (cs : List Char) : pieces sep cs ≠ [] := by
  cases cs with
  | nil => simp
  | cons c cs =>
    rw [pieces_cons]
    cases pieces sep cs <;> simp only [pieceStep] <;> split <;> simp

/-- Joining the pieces of a text gives the text back. -/
theorem join_pieces (sep : Char) (cs : List Char) : join [sep] (pieces sep cs) = cs := by
  induction cs with
  | nil => rfl
  | cons c cs ih =>
    rw [pieces_cons]
    cases h : pieces sep cs with
    | nil => exact absurd h (pieces_ne_nil sep cs)
    | cons p ps =>
      rw [h] at ih
      by_cases hc : c = sep
      · simp [pieceStep, hc, join, ih]
      · cases ps with
        | nil => simp_all [pieceStep, join]
        | cons q qs => simp_all [pieceStep, join]

/-! ## Beginnings, ends and parts -/

/-- What follows `start` in `cs`, when `cs` begins with `start`. -/
def after? : (start cs : List Char) → Option (List Char)
  | [], cs => some cs
  | _ :: _, [] => none
  | s :: start, c :: cs => if s = c then after? start cs else none

/-- Whether `cs` begins with one of `starts`. -/
def startsWithAny (starts : List String) (cs : List Char) : Bool :=
  starts.any fun s => s.toList.isPrefixOf cs

/-- The text before the first occurrence of `part`, and what follows that occurrence. -/
def cut? (part : List Char) (cs : List Char) : Option (List Char × List Char) :=
  go [] cs
where
  /-- `seen` holds the characters already passed, the last one first. -/
  go (seen : List Char) : List Char → Option (List Char × List Char)
    | [] => (after? part []).map fun rest => (seen.reverse, rest)
    | c :: cs =>
      match after? part (c :: cs) with
      | some rest => some (seen.reverse, rest)
      | none => go (c :: seen) cs

/-- The text before the first occurrence of `part`; all of it when there is none. -/
def before (part : String) (cs : List Char) : List Char :=
  match cut? part.toList cs with
  | some (front, _) => front
  | none => cs

/-- Whether `part` occurs in `cs`. -/
def occursIn (part : String) (cs : List Char) : Bool :=
  (cut? part.toList cs).isSome

/-- The text after the last occurrence of `sep`; all of it when there is none. -/
def afterLast (sep : Char) (cs : List Char) : List Char :=
  (cs.reverse.takeWhile (· != sep)).reverse

/-- The text before the last occurrence of `sep`, if there is one. -/
def beforeLast? (sep : Char) (cs : List Char) : Option (List Char) :=
  match cs.reverse.dropWhile (· != sep) with
  | [] => none
  | _ :: front => some front.reverse

/-- The pieces of `cs` between the non-overlapping occurrences of the separator text `part`,
which is not empty. The fuel is the text itself: each round uses up at least one character. -/
def piecesOn (part : List Char) (cs : List Char) : List (List Char) :=
  go cs cs
where
  /-- One round per occurrence. -/
  go : (fuel cs : List Char) → List (List Char)
    | [], cs => [cs]
    | _ :: fuel, cs =>
      match cut? part cs with
      | some (front, rest) => front :: go fuel rest
      | none => [cs]

/-- Every occurrence of one character replaced by a text. -/
def replaceChar (c : Char) (replacement : List Char) (cs : List Char) : List Char :=
  cs.flatMap fun x => if x = c then replacement else [x]

/-! ## Trimming by a set of characters -/

/-- The text without the leading characters that `p` accepts. -/
def trimLeft (p : Char → Bool) (cs : List Char) : List Char := cs.dropWhile p

/-- The text without the trailing characters that `p` accepts. -/
def trimRight (p : Char → Bool) (cs : List Char) : List Char := (cs.reverse.dropWhile p).reverse

/-- The text without the leading and trailing characters that `p` accepts. -/
def trim (p : Char → Bool) (cs : List Char) : List Char := trimRight p (trimLeft p cs)

/-! ## Numbers in text -/

/-- The decimal digits of a number. -/
def decimal (n : Nat) : List Char := (Nat.toDigits 10 n)

/-- The digits of an integer, a minus in front of a negative one. -/
def decimalInt : Int → List Char
  | .ofNat n => decimal n
  | .negSucc n => '-' :: decimal (n + 1)

/-- The value of an ASCII digit in a base up to sixteen. -/
def digitValue? (c : Char) : Option Nat :=
  if '0' ≤ c ∧ c ≤ '9' then some (c.toNat - 48)
  else if 'a' ≤ c ∧ c ≤ 'f' then some (c.toNat - 87)
  else if 'A' ≤ c ∧ c ≤ 'F' then some (c.toNat - 55)
  else none

/-- The number that a text of ASCII digits of one base writes; `none` for an empty text or
another character. -/
def number? (base : Nat) : List Char → Option Nat
  | [] => none
  | c :: cs => (c :: cs).foldl step (some 0)
where
  /-- Appends one digit. -/
  step (acc : Option Nat) (c : Char) : Option Nat :=
    match acc, digitValue? c with
    | some n, some d => if d < base then some (n * base + d) else none
    | _, _ => none

/-- The values of the ASCII digits and letters of a text as digits. -/
def digitValues (cs : List Char) : List Nat := cs.filterMap digitValue?

/-- A number in hexadecimal, lower case, with at least `width` digits. -/
def hexadecimal (width n : Nat) : List Char :=
  let digits := Nat.toDigits 16 n
  List.replicate (width - digits.length) '0' ++ digits

/-! ## Lists without repetition -/

/-- What was met of a list: as a set, and as a list that begins with the last one. -/
structure Met (α : Type) [BEq α] [Hashable α] where
  /-- The members. -/
  members : Std.HashSet α
  /-- The members, the last one first. -/
  latestFirst : List α

/-- Meets one more; what was met before is not met again. -/
def Met.add {α : Type} [BEq α] [Hashable α] (m : Met α) (x : α) : Met α :=
  if m.members.contains x then m else ⟨m.members.insert x, x :: m.latestFirst⟩

/-- The members of a list without repetition, in the order of their first occurrence. -/
def distinct {α : Type} [BEq α] [Hashable α] (xs : List α) : List α :=
  (xs.foldl Met.add ⟨∅, []⟩).latestFirst.reverse

/-- Meeting keeps the set and the list of what was met together, so that the list alone tells what
comes of it. -/
theorem Met.latestFirst_foldl_add {α : Type} [BEq α] [LawfulBEq α] [Hashable α] (xs : List α)
    (m : Met α) (same : ∀ x, x ∈ m.members ↔ x ∈ m.latestFirst) :
    (xs.foldl Met.add m).latestFirst =
      xs.foldl (fun met x => if met.contains x then met else x :: met) m.latestFirst := by
  induction xs generalizing m with
  | nil => rfl
  | cons y rest ih =>
    by_cases h : y ∈ m.latestFirst
    · have kept : m.add y = m := by simp [Met.add, same, h]
      simp [kept, h, ih m same]
    · have grown : m.add y = ⟨m.members.insert y, y :: m.latestFirst⟩ := by
        simp [Met.add, same, h]
      have := ih (m.add y) (by grind)
      simp_all

/-- What `distinct` gives, said without the set. -/
theorem distinct_eq_foldl {α : Type} [BEq α] [LawfulBEq α] [Hashable α] (xs : List α) :
    distinct xs =
      (xs.foldl (fun met x => if met.contains x then met else x :: met) []).reverse := by
  rw [distinct, Met.latestFirst_foldl_add xs ⟨∅, []⟩ (by simp)]

/-- An element is added at the end of the distinct ones if it is new. -/
theorem distinct_concat {α : Type} [BEq α] [LawfulBEq α] [Hashable α] (xs : List α) (x : α) :
    distinct (xs ++ [x]) = if x ∈ distinct xs then distinct xs else distinct xs ++ [x] := by
  rw [distinct_eq_foldl, distinct_eq_foldl, List.foldl_append]
  simp only [List.foldl_cons, List.foldl_nil, List.mem_reverse]
  split <;> simp_all

/-- The distinct elements of a list are its elements. -/
theorem mem_distinct {α : Type} [BEq α] [LawfulBEq α] [Hashable α] {x : α} {xs : List α} :
    x ∈ distinct xs ↔ x ∈ xs := by
  rw [← xs.reverse_reverse]
  induction xs.reverse with
  | nil => simp [distinct]
  | cons y rest ih => rw [List.reverse_cons, distinct_concat]; split <;> grind

/-- No element comes twice among the distinct ones. -/
theorem nodup_distinct {α : Type} [BEq α] [LawfulBEq α] [Hashable α] (xs : List α) :
    (distinct xs).Nodup := by
  rw [← xs.reverse_reverse]
  induction xs.reverse with
  | nil => simp [distinct]
  | cons y rest ih => rw [List.reverse_cons, distinct_concat]; split <;> grind

/-- A list without repetition stays as it is. -/
theorem distinct_of_nodup {α : Type} [BEq α] [LawfulBEq α] [Hashable α] {xs : List α}
    (h : xs.Nodup) : distinct xs = xs := by
  generalize hys : xs.reverse = ys
  obtain rfl : ys.reverse = xs := hys ▸ xs.reverse_reverse
  clear hys
  induction ys with
  | nil => simp [distinct]
  | cons y rest ih =>
    rw [List.reverse_cons] at h ⊢
    obtain ⟨hrest, -, hnew⟩ := List.nodup_append.mp h
    rw [distinct_concat, ih hrest, if_neg fun hy => hnew y hy y List.mem_cons_self rfl]

/-- `distinct` is the library's way of leaving out repetitions, with a set to look things up in. -/
theorem distinct_eq_eraseDups {α : Type} [BEq α] [LawfulBEq α] [Hashable α] (xs : List α) :
    distinct xs = xs.eraseDups := by
  rw [← xs.reverse_reverse]
  induction xs.reverse with
  | nil => simp [distinct]
  | cons y rest ih =>
    rw [List.reverse_cons, distinct_concat, List.eraseDups_append, ← ih]
    by_cases h : y ∈ rest
    · rw [if_pos (mem_distinct.mpr (List.mem_reverse.mpr h))]
      simp [List.removeAll, h]
    · rw [if_neg fun hmem => h (List.mem_reverse.mp (mem_distinct.mp hmem))]
      simp [List.removeAll, h, List.eraseDups_cons]

/-- Texts separated by `sep`. -/
def commaJoin (sep : String) (xs : List String) : String := sep.intercalate xs

/-- Texts in the order of their code points, equal ones side by side. -/
def sorted (xs : List String) : List String := xs.mergeSort (fun a b => decide (a ≤ b))

/-- Sorting keeps the elements. -/
theorem mem_sorted {x : String} {xs : List String} : x ∈ sorted xs ↔ x ∈ xs :=
  List.mem_mergeSort

end ProjectSurvey.Text
