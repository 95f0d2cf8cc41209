import Mathlib.Data.List.GetD
import Mathlib.Order.PiLex
import ProjectSurvey.Proofs.Pattern.Matching
import ProjectSurvey.Proofs.Stages
import ProjectSurvey.Proofs.Text.Integers
import ProjectSurvey.Rule.Version

/-!
# The first number of a version

A dotted number is a row of parts of digits with one point between neighbours, and the first one of
a text begins with its first digit and is as long as it can be (`IsFirstNumber`). **The version read
in a text is its first number, if there is one** (`parse_of_isFirstNumber`), and there is one just
if there is a digit (`exists_isFirstNumber_iff`). Versions stand for sequences that go on with zeros
for ever (`sequence`). **A version that is as long as another one at least is smaller exactly if its
sequence is** (`lt_iff_sequence_lt`); a shorter one may be smaller and have the same sequence, which
is why versions are padded.
-/

namespace ProjectSurvey

namespace Text

/-- The value of a text of digits. -/
def digitsValue (ds : List Char) : Nat :=
  ds.foldl (fun n d => n * 10 + (decimalValue? d).getD 0) 0

/-- Digits are read one by one from the value of those in front. -/
theorem digitsValue?_go {ds : List Char} (hall : ∀ d ∈ ds, isDecimal d = true) (n : Nat) :
    digitsValue?.go (some n) ds =
      some (ds.foldl (fun n d => n * 10 + (decimalValue? d).getD 0) n) := by
  induction ds generalizing n with
  | nil => rfl
  | cons d ds ih =>
    obtain ⟨hd, hds⟩ := List.forall_mem_cons.mp hall
    obtain ⟨v, hv⟩ := Option.isSome_iff_exists.mp hd
    rw [digitsValue?_go_cons hv, List.foldl_cons, hv]
    exact ih hds _

/-- A text of digits has a value. -/
theorem digitsValue?_eq {ds : List Char} (hne : ds ≠ []) (hall : ∀ d ∈ ds, isDecimal d = true) :
    digitsValue? ds = some (digitsValue ds) := by
  obtain ⟨d, ds, rfl⟩ := List.exists_cons_of_ne_nil hne
  obtain ⟨hd, hds⟩ := List.forall_mem_cons.mp hall
  obtain ⟨v, hv⟩ := Option.isSome_iff_exists.mp hd
  rw [digitsValue?, digitsValue?_go_cons hv, digitsValue, List.foldl_cons, hv]
  exact digitsValue?_go hds _

end Text

namespace Version

open Pattern

/-! ### Dotted numbers -/

/-- Whether texts are the parts of a dotted number. -/
def AreParts (parts : List (List Char)) : Prop :=
  ∀ p ∈ parts, p ≠ [] ∧ ∀ d ∈ p, Text.isDecimal d = true

/-- Whether a dotted number ends where a text begins: with the text neither the last part goes on
nor the next one begins. -/
def EndsNumber (back : List Char) : Prop :=
  (∀ d ∈ back.head?, Text.isDecimal d = false) ∧
    ∀ d rest, back = '.' :: d :: rest → Text.isDecimal d = false

/-- Whether the first dotted number of a text has the given parts: it begins with the first digit of
the text and is as long as it can be. -/
def IsFirstNumber (parts : List (List Char)) (text : List Char) : Prop :=
  parts ≠ [] ∧ AreParts parts ∧ ∃ front back, text = front ++ (Text.join ['.'] parts ++ back) ∧
    (∀ c ∈ front, Text.isDecimal c = false) ∧ EndsNumber back

/-- The version that a dotted number stands for. -/
def ofParts (parts : List (List Char)) : List Nat := parts.map Text.digitsValue

/-- A point is no digit. -/
theorem isDecimal_point : Text.isDecimal '.' = false := by decide

/-- The parts of a number hold no points. -/
theorem AreParts.pieces_join {parts : List (List Char)} (h : AreParts parts) (hne : parts ≠ []) :
    Text.pieces '.' (Text.join ['.'] parts) = parts := by
  refine Text.pieces_join hne fun p hp hpoint => ?_
  have hdigit := (h p hp).2 '.' hpoint
  rw [isDecimal_point] at hdigit
  cases hdigit

/-- A text that begins with a digit begins with a dotted number that is as long as it can be. -/
theorem exists_areParts {text : List Char} (h : ∃ d ∈ text.head?, Text.isDecimal d = true) :
    ∃ parts back, parts ≠ [] ∧ AreParts parts ∧ text = Text.join ['.'] parts ++ back ∧
      EndsNumber back := by
  induction hn : text.length using Nat.strongRecOn generalizing text with
  | _ n ih =>
    obtain ⟨d, hd, hdecimal⟩ := h
    have hpart : text.takeWhile Text.isDecimal ≠ [] := by
      obtain ⟨rest, rfl⟩ := List.head?_eq_some_iff.mp hd
      rw [List.takeWhile_cons_of_pos hdecimal]
      exact List.cons_ne_nil d _
    have hdigits : ∀ c ∈ text.takeWhile Text.isDecimal, Text.isDecimal c = true :=
      fun _ hc => List.mem_takeWhile_imp hc
    have hsplit : text.takeWhile Text.isDecimal ++ text.dropWhile Text.isDecimal = text :=
      List.takeWhile_append_dropWhile
    have hhead : ∀ c ∈ (text.dropWhile Text.isDecimal).head?, Text.isDecimal c = false := by
      intro c hc
      have hstops := List.head?_dropWhile_not Text.isDecimal text
      rw [Option.mem_def.mp hc] at hstops
      simpa using hstops
    generalize hfront : text.takeWhile Text.isDecimal = p at hpart hdigits hsplit
    generalize text.dropWhile Text.isDecimal = back at hsplit hhead
    by_cases hmore : ∃ e rest, back = '.' :: e :: rest ∧ Text.isDecimal e = true
    · -- another part follows
      obtain ⟨e, rest, rfl, he⟩ := hmore
      have hshorter : (e :: rest).length < n := by
        rw [← hn, ← hsplit]
        simp only [List.length_append, List.length_cons]
        omega
      obtain ⟨parts, back, hne, hparts, heq, hends⟩ := ih _ hshorter ⟨e, rfl, he⟩ rfl
      obtain ⟨q, parts, rfl⟩ := List.exists_cons_of_ne_nil hne
      refine ⟨p :: q :: parts, back, List.cons_ne_nil _ _,
        List.forall_mem_cons.mpr ⟨⟨hpart, hdigits⟩, hparts⟩, ?_, hends⟩
      rw [← hsplit, heq, Text.join]
      simp
    · -- the number ends here
      refine ⟨[p], back, List.cons_ne_nil _ _,
        List.forall_mem_singleton.mpr ⟨hpart, hdigits⟩, hsplit.symm, hhead, ?_⟩
      intro e rest heq
      cases he : Text.isDecimal e with
      | false => rfl
      | true => exact absurd ⟨e, rest, heq, he⟩ hmore

/-- **A text has a first number exactly if it has a digit.** -/
theorem exists_isFirstNumber_iff (text : List Char) :
    (∃ parts, IsFirstNumber parts text) ↔ ∃ d ∈ text, Text.isDecimal d = true := by
  constructor
  · rintro ⟨parts, hne, hparts, front, back, rfl, -, -⟩
    obtain ⟨p, parts, rfl⟩ := List.exists_cons_of_ne_nil hne
    obtain ⟨hp, hdigits⟩ := hparts p List.mem_cons_self
    obtain ⟨d, p, rfl⟩ := List.exists_cons_of_ne_nil hp
    exact ⟨d, by simp [Text.join_cons], hdigits d List.mem_cons_self⟩
  · rintro ⟨d, hd, hdecimal⟩
    have hhead : ∃ d ∈ (text.dropWhile fun c => !Text.isDecimal c).head?,
        Text.isDecimal d = true := by
      have hne : text.dropWhile (fun c => !Text.isDecimal c) ≠ [] := by
        rw [Ne, List.dropWhile_eq_nil_iff]
        intro hnone
        simpa [hdecimal] using hnone d hd
      refine ⟨_, List.head?_eq_some_head hne, ?_⟩
      simpa using List.head_dropWhile_not (fun c => !Text.isDecimal c) hne
    obtain ⟨parts, back, hne, hparts, heq, hends⟩ := exists_areParts hhead
    refine ⟨parts, hne, hparts, text.takeWhile fun c => !Text.isDecimal c, back, ?_, ?_, hends⟩
    · rw [← heq, List.takeWhile_append_dropWhile]
    · intro c hc
      simpa using List.mem_takeWhile_imp hc

/-! ### The number that is found -/

/-- No part goes on where the next one begins or the number ends. -/
theorem EndsNumber.head_more {back : List Char} (h : EndsNumber back) (parts : List (List Char)) :
    ∀ d ∈ (parts.flatMap (['.'] ++ ·) ++ back).head?, CharSet.digit d = false := by
  cases parts with
  | nil => exact h.1
  | cons p parts =>
    intro d hd
    obtain rfl : '.' = d := Option.some.inj hd
    exact isDecimal_point

/-- The rounds after the first part of a number pass all other parts. -/
theorem repeated_parts {parts : List (List Char)} (hparts : AreParts parts) {back : List Char}
    (hends : EndsNumber back) {fuel : List Char} (hfuel : parts.length ≤ fuel.length) {c : Cursor}
    {marks : Marks} (hrest : c.rest = parts.flatMap (['.'] ++ ·) ++ back) :
    repeated (lit "." ++ plus CharSet.digit).run some fuel ⟨c, marks⟩ =
      some ⟨c.behind (parts.flatMap (['.'] ++ ·)) back, marks⟩ := by
  induction parts generalizing fuel c with
  | nil =>
    obtain ⟨prev, cs, offset⟩ := c
    obtain rfl : cs = back := hrest
    have hstop : (lit "." ++ plus CharSet.digit).run (fun st => if offset < st.place.offset then
        repeated (lit "." ++ plus CharSet.digit).run some fuel.tail st else none)
          ⟨⟨prev, cs, offset⟩, marks⟩ = none := by
      rw [run_append]
      by_cases hpoint : ".".toList <+: cs
      · obtain ⟨rest, rfl⟩ := hpoint
        rw [run_lit "." rfl]
        refine run_char_of_head fun d hd => ?_
        obtain ⟨more, hmore⟩ := List.head?_eq_some_iff.mp hd
        exact hends.2 d more (congrArg ('.' :: ·) hmore)
      · exact run_lit_eq_none hpoint
    cases fuel with
    | nil => rfl
    | cons x fuel =>
      rw [repeated]
      dsimp only [List.tail_cons] at hstop
      rw [hstop]
      rfl
  | cons p parts ih =>
    obtain ⟨⟨hp, hdigits⟩, hrestParts⟩ := List.forall_mem_cons.mp hparts
    obtain ⟨x, fuel, rfl⟩ := List.exists_cons_of_length_pos (Nat.lt_of_lt_of_le (by simp) hfuel)
    have hpoint : c.rest = ".".toList ++ (p ++ (parts.flatMap (['.'] ++ ·) ++ back)) := by
      rw [hrest]
      simp
    have hround : (lit "." ++ plus CharSet.digit).run (fun st =>
        if c.offset < st.place.offset then
          repeated (lit "." ++ plus CharSet.digit).run some fuel st else none) ⟨c, marks⟩ =
        some ⟨c.behind ((p :: parts).flatMap (['.'] ++ ·)) back, marks⟩ := by
      rw [run_append, run_lit "." hpoint]
      refine run_plus_of_some hp rfl hdigits (hends.head_more parts) ?_
      rw [if_pos (by simp [Cursor.behind]; omega)]
      refine (ih hrestParts (by simpa using hfuel) rfl).trans ?_
      rw [Cursor.behind_behind, Cursor.behind_behind]
      simp
    rw [repeated]
    dsimp only
    rw [hround]

/-- The parts of a version, each with its point, are no fewer characters than parts. -/
theorem length_le_length_flatMap (parts : List (List Char)) :
    parts.length ≤ (parts.flatMap (['.'] ++ ·)).length := by
  induction parts with
  | nil => exact Nat.zero_le _
  | cons p parts ih =>
    rw [List.flatMap_cons, List.length_append, List.length_append, List.length_cons,
      List.length_singleton]
    omega

/-- Where a number lies ahead, it is passed. -/
theorem matchAt?_dotted {parts : List (List Char)} (hne : parts ≠ []) (hparts : AreParts parts)
    {back : List Char} (hends : EndsNumber back) {c : Cursor}
    (hrest : c.rest = Text.join ['.'] parts ++ back) :
    dotted.matchAt? c = some ⟨c, c.behind (Text.join ['.'] parts) back, []⟩ := by
  obtain ⟨p, parts, rfl⟩ := List.exists_cons_of_ne_nil hne
  obtain ⟨⟨hp, hdigits⟩, hrestParts⟩ := List.forall_mem_cons.mp hparts
  rw [Text.join_cons, List.append_assoc] at hrest
  have hfuel : parts.length ≤ (parts.flatMap (['.'] ++ ·) ++ back).length := by
    rw [List.length_append]
    exact (length_le_length_flatMap parts).trans (Nat.le_add_right _ _)
  have hrun : dotted.run some ⟨c, []⟩ =
      some ⟨c.behind (Text.join ['.'] (p :: parts)) back, []⟩ := by
    rw [dotted, run_append]
    refine run_plus_of_some hp hrest hdigits (hends.head_more parts) ?_
    refine (repeated_parts hrestParts hends hfuel rfl).trans ?_
    rw [Cursor.behind_behind, Text.join_cons]
  rw [matchAt?, hrun]
  rfl

/-- No number begins where no digit lies ahead. -/
theorem matchAt?_dotted_of_head {c : Cursor} (h : ∀ d ∈ c.rest.head?, Text.isDecimal d = false) :
    dotted.matchAt? c = none := by
  have hrun : dotted.run some ⟨c, []⟩ = none := run_char_of_head h
  rw [matchAt?, hrun]
  rfl

/-- No number begins in a text without a digit. -/
theorem matchAt?_dotted_of_forall {front : List Char} (h : ∀ c ∈ front, Text.isDecimal c = false)
    (c : Cursor) (back : List Char) : ∀ shown hidden, front = shown ++ hidden → hidden ≠ [] →
      dotted.matchAt? (c.behind shown (hidden ++ back)) = none := by
  intro shown hidden hsplit hne
  obtain ⟨x, hidden, rfl⟩ := List.exists_cons_of_ne_nil hne
  refine matchAt?_dotted_of_head fun d hd => ?_
  obtain rfl : x = d := Option.some.inj hd
  exact h x (by simp [hsplit])

/-- **The number that is found in a text is its first one.** -/
theorem find?_dotted {parts : List (List Char)} {text : List Char}
    (h : IsFirstNumber parts text) :
    (dotted.find? text).map Match.text = some (Text.join ['.'] parts) := by
  obtain ⟨hne, hparts, front, back, rfl, hfront, hends⟩ := h
  rw [find?, firstFrom?_append (matchAt?_dotted_of_forall hfront _ _) rfl,
    firstFrom?_of_matchAt? (matchAt?_dotted hne hparts hends rfl), Option.map_some]
  congr 1
  rw [Match.text, Cursor.upTo]
  simp [Cursor.behind]

/-- A text without digits holds no version. -/
theorem find?_dotted_eq_none {text : List Char} (h : ∀ c ∈ text, Text.isDecimal c = false) :
    dotted.find? text = none := by
  have hall := firstFrom?_append (matchAt?_dotted_of_forall h (Cursor.start text) [])
    (List.append_nil text).symm
  rw [List.append_nil] at hall
  rw [find?, hall]
  exact matchAt?_dotted_of_head nofun

/-! ### The version that is read -/

/-- Whether no run of digits of a text is too long to be read. -/
def ShortRuns (text : List Char) : Prop :=
  ∀ run, run <:+: text → (∀ d ∈ run, Text.isDecimal d = true) → run.length ≤ Text.digitLimit

/-- A part of a version with few enough digits is its value. -/
theorem part_eq {p : List Char} (hne : p ≠ []) (hdigits : ∀ d ∈ p, Text.isDecimal d = true)
    (hshort : p.length ≤ Text.digitLimit) : part p = .ok (Text.digitsValue p) := by
  rw [part, if_pos hshort, Text.digitsValue?_eq hne hdigits]
  rfl

/-- The parts of the first number of a text stand in it. -/
theorem IsFirstNumber.infix_of_mem {parts : List (List Char)} {text p : List Char}
    (h : IsFirstNumber parts text) (hp : p ∈ parts) : p <:+: text := by
  obtain ⟨-, -, front, back, rfl, -⟩ := h
  have hjoin : p <:+: Text.join ['.'] parts := by
    obtain ⟨before, after, rfl⟩ := List.append_of_mem hp
    cases before with
    | nil =>
      rw [List.nil_append, Text.join_cons]
      exact (List.prefix_append p _).isInfix
    | cons q before =>
      rw [List.cons_append, Text.join_cons, List.flatMap_append, List.flatMap_cons]
      exact ⟨q ++ (before.flatMap (['.'] ++ ·) ++ ['.']), after.flatMap (['.'] ++ ·), by simp⟩
  exact (hjoin.trans (List.prefix_append _ back).isInfix).trans (List.suffix_append front _).isInfix

/-- **The version read in a text is its first number.** -/
theorem parse_of_isFirstNumber {parts : List (List Char)} {spec : String}
    (h : IsFirstNumber parts spec.toList) (hshort : ShortRuns spec.toList) :
    parse spec = .ok (some (pad (ofParts parts))) := by
  obtain ⟨m, hm, htext⟩ := Option.map_eq_some_iff.mp (find?_dotted h)
  have hpart : ∀ p ∈ parts, part (id p) = .ok (Text.digitsValue p) := by
    intro p hp
    obtain ⟨hne, hdigits⟩ := h.2.1 p hp
    exact part_eq hne hdigits (hshort p (h.infix_of_mem hp) hdigits)
  have hread : parts.mapM part = .ok (ofParts parts) := by
    have hmapped := mapM_map_eq_ok hpart
    rwa [List.map_id] at hmapped
  rw [parse, hm]
  dsimp only
  rw [htext, h.2.1.pieces_join h.1, hread]
  rfl

/-- A text without digits is no version. -/
theorem parse_eq_none {spec : String} (h : ∀ c ∈ spec.toList, Text.isDecimal c = false) :
    parse spec = .ok none := by
  rw [parse, find?_dotted_eq_none h]

/-! ### Sequences -/

/-- The sequence that begins with the parts of a version and goes on with zeros. -/
def sequence (v : List Nat) : Lex (ℕ → ℕ) := toLex fun i => v.getD i 0

/-- A version is before another by the first part in which they differ. -/
theorem sequence_lt_iff (v w : List Nat) :
    sequence v < sequence w ↔ ∃ i, (∀ j < i, v.getD j 0 = w.getD j 0) ∧ v.getD i 0 < w.getD i 0 :=
  Iff.rfl

/-- Zeros at the end of a version do not change its sequence. -/
theorem sequence_append_replicate (v : List Nat) (n : Nat) :
    sequence (v ++ List.replicate n 0) = sequence v := by
  refine congrArg toLex (funext fun i => ?_)
  rcases Nat.lt_or_ge i v.length with hi | hi
  · exact List.getD_append v _ 0 i hi
  · rw [List.getD_append_right v _ 0 i hi, List.getD_eq_default v 0 hi,
      List.getD_eq_getElem?_getD, List.getElem?_getD_replicate_default_eq]

/-- Trailing zeros make no other version. -/
theorem sequence_pad (v : List Nat) : sequence (pad v) = sequence v :=
  sequence_append_replicate v _

/-- A version has three parts at least. -/
theorem length_pad (v : List Nat) : (pad v).length = max 3 v.length := by
  rw [pad, List.length_append, List.length_replicate]
  omega

/-- **A version that is as long as another one at least is smaller exactly if its sequence is.** -/
theorem lt_iff_sequence_lt {v w : Version} (hlength : w.length ≤ v.length) :
    v < w ↔ sequence v < sequence w := by
  rw [sequence_lt_iff]
  induction v generalizing w with
  | nil =>
    obtain rfl : w = [] := List.eq_nil_of_length_eq_zero (Nat.le_zero.mp hlength)
    simp
  | cons a v ih =>
    cases w with
    | nil => simp
    | cons b w =>
      rw [List.cons_lt_cons_iff, ih (by simpa using hlength)]
      constructor
      · rintro (hab | ⟨rfl, i, hbefore, hi⟩)
        · exact ⟨0, by simp, by simpa using hab⟩
        · refine ⟨i + 1, fun j hj => ?_, by simpa using hi⟩
          cases j with
          | zero => rfl
          | succ j => simpa using hbefore j (Nat.lt_of_succ_lt_succ hj)
      · rintro ⟨i, hbefore, hi⟩
        cases i with
        | zero => exact .inl (by simpa using hi)
        | succ i =>
          have hab : a = b := by simpa using hbefore 0 (Nat.succ_pos i)
          exact .inr ⟨hab, i, fun j hj => by simpa using hbefore (j + 1) (Nat.succ_lt_succ hj),
            by simpa using hi⟩

end Version

end ProjectSurvey
