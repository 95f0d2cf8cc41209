import ProjectSurvey.Proofs.Pattern.Matching

/-!
# Where a match lies

A matcher passes a part of what is ahead, and no pattern is matched by fewer characters than its
structure asks for (`least`, `passes_of_run`). **A match that is found in a text is a part of it**:
the text is what stands before the match, the match and what follows (`Match.LiesIn`,
`liesIn_of_find?`, `liesIn_of_mem_findAll`). So where a pattern asks for a character, there is one
in the text at which the match starts.
-/

namespace ProjectSurvey

/-- Reading one more character first is reading it before the others. -/
theorem Cursor.behind_cons (prev : Option Char) (x : Char) (cs : List Char) (offset : Nat)
    (front back : List Char) : (⟨prev, x :: cs, offset⟩ : Cursor).behind (x :: front) back =
      (⟨some x, cs, offset + 1⟩ : Cursor).behind front back :=
  (behind_behind [x] front cs back).symm

namespace Match

/-- Whether a match lies in a text behind `front`. -/
structure LiesIn (m : Match) (text front : List Char) : Prop where
  /-- It starts behind what stands before it. -/
  start : m.start.offset = front.length
  /-- The text goes on with it. -/
  split : ∃ back, text = front ++ (m.text ++ back)

/-- The line of a match is told by the line feeds before it. -/
theorem LiesIn.line_eq {m : Match} {text front : List Char} (h : m.LiesIn text front) :
    m.line text = front.count '\n' + 1 := by
  obtain ⟨back, hsplit⟩ := h.split
  rw [line, h.start, hsplit, List.take_left]

end Match

namespace Pattern

/-- The number of characters that a pattern asks for at least. -/
def least : Pattern → Nat
  | char _ => 1
  | seq a b => a.least + b.least
  | either a b => min a.least b.least
  | group _ a => a.least
  | empty | many _ | manyShort _ | every _ | rounds _ | again _ | wordEdge | lineStart | textStart
  | textEnd | notBefore _ | notAfter _ => 0

/-- Whether a matcher that came to `r` from `st` went on with `k` behind so many characters. -/
def Passes (st : MatchState) (k : Next) (r : MatchState) (n : Nat) : Prop :=
  ∃ front back marks, st.place.rest = front ++ back ∧ n ≤ front.length ∧
    k ⟨st.place.behind front back, marks⟩ = some r

variable {k : Next} {r st : MatchState} {p : Pattern} {s : CharSet}

/-- What goes on where it is passes over nothing. -/
theorem Passes.stay (h : k st = some r) : Passes st k r 0 :=
  ⟨[], st.place.rest, st.marks, rfl, Nat.le_refl 0, h⟩

/-- What passes over so much passes over less. -/
theorem Passes.mono {m n : Nat} (h : Passes st k r n) (hmn : m ≤ n) : Passes st k r m := by
  obtain ⟨front, back, marks, hrest, hn, hk⟩ := h
  exact ⟨front, back, marks, hrest, hmn.trans hn, hk⟩

/-- Who passes some characters and then some more passes all of them. -/
theorem Passes.trans {m n : Nat} {k' : Next} (h : Passes st k' r m)
    (hk' : ∀ st', k' st' = some r → Passes st' k r n) : Passes st k r (m + n) := by
  obtain ⟨front, back, marks, hrest, hm, hk⟩ := h
  obtain ⟨front', back', marks', hrest', hn, hk⟩ := hk' _ hk
  refine ⟨front ++ front', back', marks', ?_, ?_, ?_⟩
  · rw [hrest, List.append_assoc, ← hrest']
    rfl
  · rw [List.length_append]
    omega
  · rwa [Cursor.behind_behind] at hk

/-- What is passed behind a character is passed with it. -/
theorem Passes.cons {x : Char} {cs : List Char} {offset n : Nat} {marks : Marks}
    (h : Passes ⟨⟨some x, cs, offset + 1⟩, marks⟩ k r n) (prev : Option Char) (marks' : Marks) :
    Passes ⟨⟨prev, x :: cs, offset⟩, marks'⟩ k r n := by
  obtain ⟨front, back, more, hrest, hn, hk⟩ := h
  refine ⟨x :: front, back, more, congrArg (x :: ·) hrest, Nat.le_succ_of_le hn, ?_⟩
  rwa [Cursor.behind_cons]

/-- A literal is consumed character by character. -/
theorem consume_cons (t x : Char) (text cs : List Char) (prev : Option Char) (offset : Nat)
    (marks : Marks) : consume (t :: text) k ⟨⟨prev, x :: cs, offset⟩, marks⟩ =
      if t == x then consume text k ⟨⟨some x, cs, offset + 1⟩, marks⟩ else none := rfl

/-- What goes on behind a literal passes over what follows. -/
theorem passes_of_consume {text : List Char} (h : consume text k st = some r) :
    Passes st k r 0 := by
  induction text generalizing st with
  | nil => exact .stay h
  | cons t text ih =>
    obtain ⟨⟨prev, rest, offset⟩, marks⟩ := st
    cases rest with
    | nil => cases h
    | cons x rest =>
      rw [consume_cons] at h
      split at h
      · exact (ih h).cons prev marks
      · cases h

/-- What goes on behind the fewest characters passes over what follows. -/
theorem passes_of_fewest {marks : Marks} {prev : Option Char} {cs : List Char} {offset : Nat}
    (h : fewest s k marks cs ⟨prev, cs, offset⟩ = some r) :
    Passes ⟨⟨prev, cs, offset⟩, marks⟩ k r 0 := by
  induction cs generalizing prev offset with
  | nil => exact .stay h
  | cons x cs ih =>
    rw [fewest] at h
    cases hhere : k ⟨⟨prev, x :: cs, offset⟩, marks⟩ with
    | some r' =>
      rw [hhere] at h
      exact .stay (hhere.trans h)
    | none =>
      rw [hhere] at h
      dsimp only at h
      split at h
      · exact (ih h).cons prev marks
      · cases h

/-- Rounds pass what each of them passes. -/
theorem passes_of_repeated {step : Next → Next} {n : Nat}
    (hstep : ∀ {k st}, step k st = some r → Passes st k r n) {fuel : List Char}
    (h : repeated step k fuel st = some r) : Passes st k r 0 := by
  induction fuel generalizing st with
  | nil => exact .stay h
  | cons _ fuel ih =>
    rw [repeated] at h
    split at h
    · next r' hround =>
      rw [h] at hround
      refine ((hstep hround).trans (n := 0) fun st' h' => ?_).mono (Nat.zero_le _)
      split at h'
      · exact ih h'
      · cases h'
    · exact .stay h

/-- **A matcher passes as many characters as the pattern asks for**, or more. -/
theorem passes_of_run (h : p.run k st = some r) : Passes st k r p.least := by
  induction p generalizing k st with
  | empty => exact .stay h
  | char s =>
    obtain ⟨x, back, hrest, -, hk⟩ := of_run_char h
    exact ⟨[x], back, st.marks, hrest, Nat.le_refl 1, hk⟩
  | seq a b iha ihb => exact (iha h).trans fun st' h' => ihb h'
  | either a b iha ihb =>
    rw [run] at h
    split at h
    · next r' ha =>
      rw [h] at ha
      exact (iha ha).mono (Nat.min_le_left _ _)
    · exact (ihb h).mono (Nat.min_le_right _ _)
  | many s =>
    rw [run_many_eq] at h
    obtain ⟨d, hd, hk⟩ := List.exists_of_findSome?_eq_some h
    obtain ⟨front, back, hrest, -, rfl⟩ := Cursor.exists_of_mem_reach hd
    exact ⟨front, back, st.marks, hrest, Nat.zero_le _, hk⟩
  | manyShort s => exact passes_of_fewest h
  | every s =>
    exact ⟨_, _, st.marks, List.takeWhile_append_dropWhile.symm, Nat.zero_le _, of_run_every h⟩
  | rounds a ih => exact passes_of_repeated ih h
  | group n a ih =>
    obtain ⟨more, h⟩ := of_run_group h
    obtain ⟨front, back, marks, hrest, hn, hk⟩ := ih h
    exact ⟨front, back, more ⟨_, marks⟩, hrest, hn, hk⟩
  | again n =>
    rw [run] at h
    split at h
    · exact passes_of_consume h
    · cases h
  | wordEdge =>
    rw [run] at h
    split at h
    · exact .stay h
    · cases h
  | lineStart => exact .stay (of_run_lineStart h).2
  | textStart =>
    rw [run] at h
    split at h
    · exact .stay h
    · cases h
  | textEnd =>
    rw [run] at h
    split at h
    · exact .stay h
    · exact .stay h
    · cases h
  | notBefore s =>
    rw [run] at h
    split at h
    · split at h
      · cases h
      · exact .stay h
    · exact .stay h
  | notAfter s =>
    rw [run] at h
    split at h
    · split at h
      · cases h
      · exact .stay h
    · exact .stay h

/-! ### Matches in a text -/

/-- A match at a place is made of what follows there. -/
theorem exists_of_matchAt? {c : Cursor} {m : Match} (h : p.matchAt? c = some m) :
    m.start = c ∧ p.least ≤ m.text.length ∧ ∃ back, c.rest = m.text ++ back := by
  obtain ⟨st, hrun, rfl⟩ := Option.map_eq_some_iff.mp h
  obtain ⟨front, back, marks, hrest, hn, hk⟩ := passes_of_run hrun
  cases hk
  have htext : Match.text ⟨c, c.behind front back, marks⟩ = front := by
    simp only at hrest
    rw [Match.text, Cursor.upTo, hrest, Cursor.behind, Nat.add_sub_cancel_left, List.take_left]
  rw [htext]
  exact ⟨rfl, hn, back, hrest⟩

/-- Whether a match is one at a place from `c` on. -/
def IsFoundFrom (p : Pattern) (c : Cursor) (m : Match) : Prop :=
  ∃ front back, c.rest = front ++ back ∧ p.matchAt? (c.behind front back) = some m

/-- A match at the place itself is found from there. -/
theorem IsFoundFrom.here {c : Cursor} {m : Match} (h : p.matchAt? c = some m) :
    p.IsFoundFrom c m := ⟨[], c.rest, rfl, h⟩

/-- A match found from the next place is found from this one. -/
theorem IsFoundFrom.cons {x : Char} {cs : List Char} {offset : Nat} {m : Match}
    (h : p.IsFoundFrom ⟨some x, cs, offset + 1⟩ m) (prev : Option Char) :
    p.IsFoundFrom ⟨prev, x :: cs, offset⟩ m := by
  obtain ⟨front, back, hcs, hm⟩ := h
  refine ⟨x :: front, back, congrArg (x :: ·) hcs, ?_⟩
  rwa [Cursor.behind_cons]

/-- The first match from a place is found from there. -/
theorem isFoundFrom_of_firstFrom? {c : Cursor} {m : Match} (h : p.firstFrom? c.rest c = some m) :
    p.IsFoundFrom c m := by
  obtain ⟨prev, cs, offset⟩ := c
  dsimp only at h
  induction cs generalizing prev offset with
  | nil => exact .here h
  | cons x cs ih =>
    rw [firstFrom?] at h
    split at h
    · next m' hhere =>
      rw [h] at hhere
      exact .here hhere
    · exact (ih _ _ h).cons prev

/-- So are all the matches that do not overlap. -/
theorem isFoundFrom_of_mem_allFrom {c : Cursor} {m : Match} {resume : Nat} {acc : List Match}
    (h : m ∈ p.allFrom resume acc c.rest c) : m ∈ acc ∨ p.IsFoundFrom c m := by
  obtain ⟨prev, cs, offset⟩ := c
  dsimp only at h
  induction cs generalizing prev offset resume acc with
  | nil =>
    rw [allFrom_nil] at h
    split at h
    · exact .inl (List.mem_reverse.mp h)
    · split at h
      · next m' hhere =>
        rcases List.mem_cons.mp (List.mem_reverse.mp h) with rfl | h
        · exact .inr (.here hhere)
        · exact .inl h
      · exact .inl (List.mem_reverse.mp h)
  | cons x cs ih =>
    rw [allFrom_cons] at h
    split at h
    · exact (ih _ _ h).imp_right (·.cons prev)
    · split at h
      · next m' hhere =>
        rcases ih _ _ h with h | h
        · rcases List.mem_cons.mp h with rfl | h
          · exact .inr (.here hhere)
          · exact .inl h
        · exact .inr (h.cons prev)
      · exact (ih _ _ h).imp_right (·.cons prev)

/-- **A match that is found in a text is a part of it** with as many characters as the pattern asks
for, or more. -/
theorem IsFoundFrom.liesIn {text : List Char} {m : Match}
    (h : p.IsFoundFrom (Cursor.start text) m) :
    p.least ≤ m.text.length ∧ ∃ front, m.LiesIn text front := by
  obtain ⟨front, back, hsplit, hm⟩ := h
  obtain ⟨hstart, hleast, back', hback⟩ := exists_of_matchAt? hm
  refine ⟨hleast, front, ?_, back', ?_⟩
  · rw [hstart]
    exact Nat.zero_add _
  · exact hsplit.trans (congrArg (front ++ ·) hback)

/-- A match is found somewhere in the text and is no shorter than the pattern's least. -/
theorem liesIn_of_find? {text : List Char} {m : Match} (h : p.find? text = some m) :
    p.least ≤ m.text.length ∧ ∃ front, m.LiesIn text front :=
  (isFoundFrom_of_firstFrom? (c := Cursor.start text) h).liesIn

/-- So is each of all the matches. -/
theorem liesIn_of_mem_findAll {text : List Char} {m : Match} (h : m ∈ p.findAll text) :
    p.least ≤ m.text.length ∧ ∃ front, m.LiesIn text front :=
  ((isFoundFrom_of_mem_allFrom (c := Cursor.start text) h).resolve_left List.not_mem_nil).liesIn

end Pattern

end ProjectSurvey
