import ProjectSurvey.Proofs.Pattern.Extent

/-!
# A line feed in front of a text

Put a line feed in front of a text, and every place in it lies one character further on
(`Cursor.belowFeed`). **A matcher goes on from there as it did before** (`run_belowFeed`): what
stands in front of a place matters to it as a word character, a line feed or a member of a set only,
so that the start of a text is as good as a line feed, unless a pattern asks for the start itself
(`isBlindToFeed`).

So the matches in the longer text are those of the text, moved, if none starts at the new line feed
itself (`find?_feed`, `findAll_feed`). That is seen from how a pattern begins (`opening`), with one
exception: a pattern that begins with the blanks of a line takes the line feed for one of them.
There a match that starts at the first character is drawn out to the left, and **the number of
matches stays the same** (`count_feed_of_indented`).
-/

namespace ProjectSurvey

/-- A place once a line feed is put in front of the text. -/
def Cursor.belowFeed (c : Cursor) : Cursor := ⟨some (c.prev.getD '\n'), c.rest, c.offset + 1⟩

/-- A matcher in progress, its place moved. -/
def MatchState.belowFeed (st : MatchState) : MatchState := ⟨st.place.belowFeed, st.marks⟩

/-- A match whose places are moved. -/
def Match.belowFeed (m : Match) : Match := ⟨m.start.belowFeed, m.stop.belowFeed, m.marks⟩

namespace Cursor

variable (c : Cursor) (s : CharSet)

/-- Below a line feed the rest of the text is the same. -/
@[simp] theorem rest_belowFeed : c.belowFeed.rest = c.rest := rfl

/-- Every offset is one greater. -/
@[simp] theorem offset_belowFeed : c.belowFeed.offset = c.offset + 1 := rfl

/-- Going on and standing below a line feed commute. -/
@[simp] theorem advance_belowFeed (x : Char) (cs : List Char) :
    c.belowFeed.advance x cs = (c.advance x cs).belowFeed := rfl

/-- The place behind the line feed is the old start of the text. -/
theorem advance_start_feed (text : List Char) :
    (start ('\n' :: text)).advance '\n' text = (start text).belowFeed := rfl

/-- A line feed in front is no word, as no character is none. -/
@[simp] theorem wordBefore_belowFeed : c.belowFeed.wordBefore = c.wordBefore := by
  obtain ⟨_ | x, cs, offset⟩ := c
  · -- a line feed is no word character
    have hfeed : Text.isWord '\n' = false := by decide
    exact hfeed
  · rfl

/-- What follows is the same, word or not. -/
@[simp] theorem wordAfter_belowFeed : c.belowFeed.wordAfter = c.wordAfter := rfl

/-- Going past the characters of a set ends at the same place, one line further down. -/
theorem past_belowFeed (cs : List Char) (c : Cursor) :
    past s cs c.belowFeed = (past s cs c).belowFeed := by
  induction cs generalizing c with
  | nil => rfl
  | cons x cs ih =>
    rw [past_cons, past_cons]
    split
    · exact ih (c.advance x cs)
    · rfl

/-- The places that can be reached are the same, one line further down. -/
theorem reach_belowFeed (cs : List Char) (c : Cursor) (acc : List Cursor) :
    reach s cs c.belowFeed (acc.map belowFeed) = (reach s cs c acc).map belowFeed := by
  induction cs generalizing c acc with
  | nil => rfl
  | cons x cs ih =>
    rw [reach_cons, reach_cons]
    split
    · exact ih (c.advance x cs) (c :: acc)
    · rfl

end Cursor

namespace Match

variable (m : Match)

/-- The text of a match is the same below a line feed. -/
@[simp] theorem text_belowFeed : m.belowFeed.text = m.text := by
  simp [text, Cursor.upTo, belowFeed]

/-- So is the text of a group. -/
@[simp] theorem groupText_belowFeed (n : Nat) : m.belowFeed.groupText n = m.groupText n := rfl

/-- Its line is the next one. -/
@[simp] theorem line_belowFeed (text : List Char) :
    m.belowFeed.line ('\n' :: text) = m.line text + 1 := by
  simp [line, belowFeed]

end Match

namespace Pattern

/-! ### The matcher -/

/-- Whether what comes after a pattern does the same below a line feed. -/
def IsSteady (k k' : Next) : Prop :=
  ∀ st, k' st.belowFeed = (k st).map MatchState.belowFeed

variable {k k' : Next}

/-- Accepting what is left is steady. -/
theorem isSteady_some : IsSteady some some := fun _ => rfl

/-- A literal is consumed alike below a line feed. -/
theorem consume_belowFeed (hk : IsSteady k k') (text : List Char) (st : MatchState) :
    consume text k' st.belowFeed = (consume text k st).map MatchState.belowFeed := by
  induction text generalizing st with
  | nil => exact hk st
  | cons t text ih =>
    obtain ⟨⟨prev, cs, offset⟩, marks⟩ := st
    cases cs with
    | nil => rfl
    | cons x cs =>
      rw [consume_cons]
      refine (consume_cons ..).trans ?_
      split
      · exact ih ⟨⟨some x, cs, offset + 1⟩, marks⟩
      · rfl

/-- The fewest characters are passed alike below a line feed. -/
theorem fewest_belowFeed (hk : IsSteady k k') (s : CharSet) (marks : Marks) (cs : List Char)
    (c : Cursor) : fewest s k' marks cs c.belowFeed =
      (fewest s k marks cs c).map MatchState.belowFeed := by
  induction cs generalizing c with
  | nil => exact hk ⟨c, marks⟩
  | cons x cs ih =>
    have hhere : k' ⟨c.belowFeed, marks⟩ = (k ⟨c, marks⟩).map MatchState.belowFeed := hk ⟨c, marks⟩
    rw [fewest, fewest, hhere]
    cases k ⟨c, marks⟩ with
    | some r => rfl
    | none =>
      dsimp only [Option.map_none]
      split
      · exact ih (c.advance x cs)
      · rfl

/-- Rounds do the same if each of them does. -/
theorem repeated_belowFeed {step : Next → Next}
    (hstep : ∀ {k k'}, IsSteady k k' → IsSteady (step k) (step k')) (hk : IsSteady k k')
    (fuel : List Char) : IsSteady (repeated step k fuel) (repeated step k' fuel) := by
  induction fuel with
  | nil => exact hk
  | cons _ fuel ih =>
    intro st
    rw [repeated, repeated]
    have hround : IsSteady
        (fun st' => if st.place.offset < st'.place.offset then repeated step k fuel st' else none)
        (fun st' => if st.belowFeed.place.offset < st'.place.offset then repeated step k' fuel st'
          else none) := by
      intro st'
      show (if st.place.offset + 1 < st'.place.offset + 1 then _ else none) = _
      simp only [Nat.add_lt_add_iff_right]
      split
      · exact ih st'
      · rfl
    rw [hstep hround st, hk st]
    cases step (fun st' => if st.place.offset < st'.place.offset then repeated step k fuel st'
      else none) st <;> rfl

/-- Whether a pattern cannot tell the start of a text from a place behind a line feed. -/
def isBlindToFeed : Pattern → Bool
  | seq a b | either a b => a.isBlindToFeed && b.isBlindToFeed
  | rounds a | group _ a => a.isBlindToFeed
  | notAfter s => !s '\n'
  | textStart => false
  | empty | char _ | many _ | manyShort _ | every _ | again _ | wordEdge | lineStart | textEnd
  | notBefore _ => true

/-! ### One kind of pattern after the other

Each lemma says of one kind of pattern that its matcher does the same below a line feed, and of one
made of others that it does if theirs do. -/

/-- A character of a set is passed or not, whatever stands in front. -/
theorem run_char_belowFeed (hk : IsSteady k k') (s : CharSet) :
    IsSteady ((char s).run k) ((char s).run k') := by
  rintro ⟨⟨prev, cs, offset⟩, marks⟩
  cases cs with
  | nil => rfl
  | cons x cs =>
    rw [run_char_eq, run_char_eq]
    dsimp only [MatchState.belowFeed, Cursor.rest_belowFeed]
    split
    · exact hk ⟨⟨some x, cs, offset + 1⟩, marks⟩
    · rfl

/-- Of two patterns the same one is chosen. -/
theorem run_either_belowFeed {a b : Pattern} (ha : IsSteady (a.run k) (a.run k'))
    (hb : IsSteady (b.run k) (b.run k')) :
    IsSteady ((either a b).run k) ((either a b).run k') := by
  intro st
  show ((a ||| b).run k' _) = ((a ||| b).run k st).map _
  rw [run_or, run_or, ha st, hb st]
  cases a.run k st <;> rfl

/-- A repetition reaches the same places, each one further on, and goes on from the same one. -/
theorem run_many_belowFeed (hk : IsSteady k k') (s : CharSet) :
    IsSteady ((many s).run k) ((many s).run k') := by
  intro st
  rw [run_many_eq, run_many_eq]
  show ((Cursor.reach s st.place.rest st.place.belowFeed ([].map Cursor.belowFeed)).findSome?
    fun c => k' ⟨c, st.marks⟩) = _
  rw [Cursor.reach_belowFeed, List.findSome?_map, List.map_findSome?]
  exact congrArg (List.findSome? · _) (funext fun c => hk ⟨c, st.marks⟩)

/-- A repetition that gives nothing back ends at the same place. -/
theorem run_every_belowFeed (hk : IsSteady k k') (s : CharSet) :
    IsSteady ((every s).run k) ((every s).run k') := by
  intro st
  show k' ⟨Cursor.past s st.place.rest st.place.belowFeed, st.marks⟩ = _
  rw [Cursor.past_belowFeed]
  exact hk ⟨_, st.marks⟩

/-- A group remembers the same text: its start is told by what follows, and its length by how far
apart two places are. -/
theorem run_group_belowFeed {a : Pattern}
    (ha : ∀ {k k' : Next}, IsSteady k k' → IsSteady (a.run k) (a.run k'))
    (hk : IsSteady k k') (n : Nat) : IsSteady ((group n a).run k) ((group n a).run k') := by
  intro st
  refine ha (fun st' => ?_) st
  show k' ⟨st'.place.belowFeed, (n, st.place.rest, st'.place.offset + 1 - (st.place.offset + 1)) ::
    st'.marks⟩ = _
  rw [Nat.add_sub_add_right]
  exact hk ⟨st'.place, (n, st.place.rest, st'.place.offset - st.place.offset) :: st'.marks⟩

/-- The text of a group is the same once more. -/
theorem run_again_belowFeed (hk : IsSteady k k') (n : Nat) :
    IsSteady ((again n).run k) ((again n).run k') := by
  intro st
  rw [run, run, show st.belowFeed.marks = st.marks from rfl]
  cases st.marks.text? n with
  | some text => exact consume_belowFeed hk text st
  | none => rfl

/-- The border of a word stays one, since a line feed is no word character. -/
theorem run_wordEdge_belowFeed (hk : IsSteady k k') :
    IsSteady (wordEdge.run k) (wordEdge.run k') := by
  intro st
  rw [run, run]
  show (if (st.place.belowFeed.wordBefore != st.place.belowFeed.wordAfter) = true then _ else _) = _
  rw [Cursor.wordBefore_belowFeed, Cursor.wordAfter_belowFeed]
  split
  · exact hk st
  · rfl

/-- The start of a line stays one, the start of the text among them. -/
theorem run_lineStart_belowFeed (hk : IsSteady k k') :
    IsSteady (lineStart.run k) (lineStart.run k') := by
  rintro ⟨⟨prev, cs, offset⟩, marks⟩
  rw [run_lineStart_eq, run_lineStart_eq]
  cases prev with
  | none => exact hk ⟨⟨none, cs, offset⟩, marks⟩
  | some x =>
    show (if (x == '\n') = true then _ else _) = Option.map _ (if (x == '\n') = true then _ else _)
    split
    · exact hk ⟨⟨some x, cs, offset⟩, marks⟩
    · rfl

/-- The end of the text stays where it is. -/
theorem run_textEnd_belowFeed (hk : IsSteady k k') :
    IsSteady (textEnd.run k) (textEnd.run k') := by
  intro st
  rw [run, run]
  dsimp only [MatchState.belowFeed, Cursor.rest_belowFeed]
  split
  · exact hk st
  · exact hk st
  · rfl

/-- What follows a place is the same. -/
theorem run_notBefore_belowFeed (hk : IsSteady k k') (s : CharSet) :
    IsSteady ((notBefore s).run k) ((notBefore s).run k') := by
  intro st
  rw [run, run]
  dsimp only [MatchState.belowFeed, Cursor.rest_belowFeed]
  split
  · split
    · rfl
    · exact hk st
  · exact hk st

/-- What stands in front of a place is the same, or a line feed that the set does not hold. -/
theorem run_notAfter_belowFeed (hk : IsSteady k k') {s : CharSet} (hfeed : s '\n' = false) :
    IsSteady ((notAfter s).run k) ((notAfter s).run k') := by
  rintro ⟨⟨prev, cs, offset⟩, marks⟩
  rw [run, run]
  cases prev with
  | none =>
    show (if s '\n' = true then _ else _) = _
    rw [hfeed, if_neg Bool.false_ne_true]
    exact hk ⟨⟨none, cs, offset⟩, marks⟩
  | some x =>
    show (if s x = true then _ else _) = Option.map _ (if s x = true then _ else _)
    split
    · rfl
    · exact hk ⟨⟨some x, cs, offset⟩, marks⟩

/-- **A matcher does the same below a line feed**, if the pattern does not ask for the start of the
text. -/
theorem run_belowFeed {p : Pattern} (hp : p.isBlindToFeed = true) (hk : IsSteady k k') :
    IsSteady (p.run k) (p.run k') := by
  induction p generalizing k k' with
  | empty => exact hk
  | char s => exact run_char_belowFeed hk s
  | seq a b iha ihb =>
    obtain ⟨ha, hb⟩ := Bool.and_eq_true_iff.mp hp
    exact iha ha (ihb hb hk)
  | either a b iha ihb =>
    obtain ⟨ha, hb⟩ := Bool.and_eq_true_iff.mp hp
    exact run_either_belowFeed (iha ha hk) (ihb hb hk)
  | many s => exact run_many_belowFeed hk s
  | manyShort s => exact fun st => fewest_belowFeed hk s st.marks st.place.rest st.place
  | every s => exact run_every_belowFeed hk s
  | rounds a ih => exact fun st => repeated_belowFeed (ih hp) hk st.place.rest st
  | group n a ih => exact run_group_belowFeed (ih hp) hk n
  | again n => exact run_again_belowFeed hk n
  | wordEdge => exact run_wordEdge_belowFeed hk
  | lineStart => exact run_lineStart_belowFeed hk
  | textStart => cases hp
  | textEnd => exact run_textEnd_belowFeed hk
  | notBefore s => exact run_notBefore_belowFeed hk s
  | notAfter s =>
    have hfeed : s '\n' = false := by simpa [isBlindToFeed] using hp
    exact run_notAfter_belowFeed hk hfeed

/-! ### Matches from a place on -/

variable {p : Pattern} {c : Cursor}

/-- A match at a place is the same one below a line feed. -/
theorem matchAt?_belowFeed (hp : p.isBlindToFeed = true) (c : Cursor) :
    p.matchAt? c.belowFeed = (p.matchAt? c).map Match.belowFeed := by
  unfold matchAt?
  rw [show (⟨c.belowFeed, []⟩ : MatchState) = MatchState.belowFeed ⟨c, []⟩ from rfl,
    run_belowFeed hp isSteady_some, Option.map_map, Option.map_map]
  rfl

/-- So is the first one from a place. -/
theorem firstFrom?_belowFeed (hp : p.isBlindToFeed = true) (cs : List Char) (c : Cursor) :
    p.firstFrom? cs c.belowFeed = (p.firstFrom? cs c).map Match.belowFeed := by
  induction cs generalizing c with
  | nil => exact matchAt?_belowFeed hp c
  | cons x cs ih =>
    rw [firstFrom?, firstFrom?, matchAt?_belowFeed hp]
    cases p.matchAt? c with
    | some m => rfl
    | none => exact ih (c.advance x cs)

/-- A place to go on from counts only if it lies ahead. -/
theorem allFrom_of_le {resume : Nat} (acc : List Match) (cs : List Char)
    (h : resume ≤ c.offset) : p.allFrom resume acc cs c = p.allFrom 0 acc cs c := by
  induction cs generalizing acc c with
  | nil => rw [allFrom_nil, allFrom_nil, if_neg (by omega), if_neg (by omega)]
  | cons x cs ih =>
    rw [allFrom_cons, allFrom_cons, if_neg (by omega), if_neg (by omega)]
    rw [ih _ (show resume ≤ (c.advance x cs).offset from Nat.le_succ_of_le h)]

/-- What was found before stands in front of what is found from a place on. -/
theorem allFrom_eq_append (resume : Nat) (acc : List Match) (cs : List Char) (c : Cursor) :
    p.allFrom resume acc cs c = acc.reverse ++ p.allFrom resume [] cs c := by
  induction cs generalizing resume acc c with
  | nil =>
    rw [allFrom_nil, allFrom_nil]
    split
    · simp
    · cases p.matchAt? c <;> simp
  | cons x cs ih =>
    rw [allFrom_cons, allFrom_cons]
    split
    · exact ih ..
    · cases p.matchAt? c with
      | none => exact ih ..
      | some m =>
        dsimp only
        rw [ih _ (m :: acc), ih _ [m], List.reverse_cons, List.append_assoc]
        rfl

/-- So are all from a place. -/
theorem allFrom_belowFeed (hp : p.isBlindToFeed = true) (resume : Nat) (acc : List Match)
    (cs : List Char) (c : Cursor) :
    p.allFrom (resume + 1) (acc.map Match.belowFeed) cs c.belowFeed =
      (p.allFrom resume acc cs c).map Match.belowFeed := by
  induction cs generalizing resume acc c with
  | nil =>
    rw [allFrom_nil, allFrom_nil, matchAt?_belowFeed hp]
    simp only [Cursor.offset_belowFeed, Nat.add_lt_add_iff_right]
    split
    · rw [List.map_reverse]
    · cases p.matchAt? c <;> simp
  | cons x cs ih =>
    rw [allFrom_cons, allFrom_cons, matchAt?_belowFeed hp]
    simp only [Cursor.offset_belowFeed, Nat.add_lt_add_iff_right]
    split
    · exact ih resume acc (c.advance x cs)
    · cases p.matchAt? c with
      | none => exact ih resume acc (c.advance x cs)
      | some m =>
        have hresume : max m.belowFeed.stop.offset (c.offset + 1 + 1) =
            max m.stop.offset (c.offset + 1) + 1 :=
          Nat.add_max_add_right m.stop.offset (c.offset + 1) 1
        dsimp only [Option.map_some]
        rw [hresume]
        exact ih _ (m :: acc) (c.advance x cs)

/-- There are as many of them. -/
theorem length_allFrom_belowFeed (hp : p.isBlindToFeed = true) (resume : Nat)
    {acc acc' : List Match}
    (hacc : acc'.length = acc.length) (cs : List Char) (c : Cursor) :
    (p.allFrom (resume + 1) acc' cs c.belowFeed).length = (p.allFrom resume acc cs c).length := by
  rw [allFrom_eq_append, allFrom_eq_append resume, List.length_append, List.length_append,
    List.length_reverse, List.length_reverse, hacc]
  congr 1
  exact (congrArg List.length (allFrom_belowFeed hp resume [] cs c)).trans (List.length_map _)

/-! ### How a pattern begins -/

/-- What a pattern does where a certain character follows, as far as that is seen from how the
pattern begins. -/
inductive Opening where
  /-- It does not match. -/
  | refuses
  /-- It passes nothing. -/
  | stays
  /-- It may pass the character. -/
  | passes
  deriving DecidableEq

namespace Opening

/-- The opening of one pattern after another. -/
def andThen : Opening → Opening → Opening
  | stays, o => o
  | o, _ => o

/-- The opening of two patterns to choose from. -/
def or : Opening → Opening → Opening
  | refuses, o | o, refuses => o
  | stays, stays => stays
  | passes, _ | _, passes => passes

/-- Whether a result is one that an opening lets a matcher come to, if going on comes to `here`. -/
def Allows : Opening → Option MatchState → Option MatchState → Prop
  | refuses, result, _ => result = none
  | stays, result, here => result = none ∨ result = here
  | passes, _, _ => True

variable {o o' : Opening} {result result' here : Option MatchState}

/-- An opening allows a failure to match. -/
theorem allows_none (o : Opening) (here : Option MatchState) : o.Allows none here := by
  cases o with
  | refuses => rfl
  | stays => exact .inl rfl
  | passes => trivial

/-- Going on under a condition passes nothing. -/
theorem allows_ite (b : Prop) [Decidable b] : stays.Allows (if b then here else none) here := by
  split
  · exact .inr rfl
  · exact .inl rfl

/-- Two openings one behind the other allow what the second reaches through the first. -/
theorem Allows.andThen (h : o.Allows result result') (h' : o'.Allows result' here) :
    (o.andThen o').Allows result here := by
  cases o with
  | refuses => exact h
  | stays =>
    rcases h with rfl | rfl
    · exact allows_none o' here
    · exact h'
  | passes => trivial

/-- Either of two openings allows what either reaches. -/
theorem Allows.or (h : o.Allows result here) (h' : o'.Allows result' here) :
    (o.or o').Allows (result.or result') here := by
  cases o with
  | refuses =>
    obtain rfl : result = none := h
    rwa [Option.none_or]
  | stays =>
    cases o' with
    | refuses =>
      obtain rfl : result' = none := h'
      rwa [Option.or_none]
    | stays =>
      rcases h with rfl | rfl
      · rwa [Option.none_or]
      · rcases h' with rfl | rfl
        · exact .inr Option.or_none
        · exact .inr Option.or_self
    | passes => trivial
  | passes => cases o' <;> trivial

end Opening

/-- How a pattern begins where a character follows. -/
def opening (x : Char) : Pattern → Opening
  | char s => if s x then .passes else .refuses
  | seq a b => (a.opening x).andThen (b.opening x)
  | either a b => (a.opening x).or (b.opening x)
  | every s => if s x then .passes else .stays
  -- a group that passes nothing is remembered all the same
  | group _ a => if a.opening x = .refuses then .refuses else .passes
  | empty | wordEdge | lineStart | textStart | notBefore _ | notAfter _ => .stays
  | many _ | manyShort _ | rounds _ | again _ | textEnd => .passes

/-- A sequence opens as its parts do, one behind the other. -/
theorem opening_append (a b : Pattern) (x : Char) :
    (a ++ b).opening x = (a.opening x).andThen (b.opening x) := rfl

/-- A choice opens as either part does. -/
theorem opening_or (a b : Pattern) (x : Char) :
    (a ||| b).opening x = (a.opening x).or (b.opening x) := rfl

/-- A word refuses every character but its first. -/
theorem opening_lit {w : String} {x y : Char} {cs : List Char} (hw : w.toList = y :: cs)
    (hx : x ≠ y) : (lit w).opening x = .refuses := by
  have hno : CharSet.only y x = false := beq_false_of_ne hx
  unfold lit
  rw [hw, List.foldr_cons, opening, opening, hno]
  rfl

/-- A matcher does what the opening of the pattern says. -/
theorem allows_opening {x : Char} {cs : List Char} {st : MatchState}
    (hrest : st.place.rest = x :: cs) (p : Pattern) (k : Next) :
    (p.opening x).Allows (p.run k st) (k st) := by
  induction p generalizing k with
  | char s =>
    rw [opening]
    split
    · trivial
    · next hx => exact run_char_of_head (by simpa [hrest] using hx)
  | seq a b iha ihb => exact (iha (b.run k)).andThen (ihb k)
  | either a b iha ihb =>
    show Opening.Allows _ ((a ||| b).run k st) _
    rw [run_or]
    exact (iha k).or (ihb k)
  | every s =>
    rw [opening]
    split
    · trivial
    · next hx =>
      refine .inr ?_
      rw [run_every_eq, hrest, List.takeWhile_cons_of_neg hx, List.dropWhile_cons_of_neg hx,
        ← hrest]
      rfl
  | group n a ih =>
    rw [opening]
    split
    · next ha =>
      have ha' := ih fun st' => k { st' with marks :=
        (n, st.place.rest, st'.place.offset - st.place.offset) :: st'.marks }
      rw [ha] at ha'
      exact ha'
    · trivial
  | empty => exact .inr rfl
  | wordEdge => exact Opening.allows_ite _
  | lineStart => exact Opening.allows_ite _
  | textStart => exact Opening.allows_ite _
  | notBefore s =>
    rw [run]
    split
    · split
      · exact .inl rfl
      · exact .inr rfl
    · exact .inr rfl
  | notAfter s =>
    rw [run]
    split
    · split
      · exact .inl rfl
      · exact .inr rfl
    · exact .inr rfl
  | many _ | manyShort _ | rounds _ | again _ | textEnd => trivial

/-- A pattern that refuses a character matches nothing that starts with it. -/
theorem matchAt?_of_refuses {x : Char} {cs : List Char} (hrest : c.rest = x :: cs)
    (h : p.opening x = .refuses) : p.matchAt? c = none := by
  have hrun : (p.opening x).Allows (p.run some ⟨c, []⟩) (some ⟨c, []⟩) :=
    allows_opening hrest p some
  rw [h] at hrun
  exact Option.map_eq_none_iff.mpr hrun

/-! ### Matches in a text -/

/-- Whether the matches of a pattern are the same, but moved, once a line feed is put in front of a
text: it does not match at the line feed and cannot tell it from the start. -/
def skipsFeed (p : Pattern) : Bool := p.isBlindToFeed && p.opening '\n' == .refuses

/-- A pattern skips a line feed when it is blind to one and refuses to start with one. -/
theorem skipsFeed_iff :
    p.skipsFeed = true ↔ p.isBlindToFeed = true ∧ p.opening '\n' = .refuses := by
  simp [skipsFeed]

/-- Without a match at the first place all matches are those from the second on. -/
theorem findAll_cons_of_none {x : Char} {cs : List Char}
    (h : p.matchAt? (Cursor.start (x :: cs)) = none) :
    p.findAll (x :: cs) = p.allFrom 0 [] cs ((Cursor.start (x :: cs)).advance x cs) := by
  rw [findAll, allFrom_cons, if_neg (Nat.not_lt_zero _), h]

/-- With a match there the others start behind it. -/
theorem findAll_cons_of_some {x : Char} {cs : List Char} {m : Match}
    (h : p.matchAt? (Cursor.start (x :: cs)) = some m) :
    p.findAll (x :: cs) =
      p.allFrom (max m.stop.offset 1) [m] cs ((Cursor.start (x :: cs)).advance x cs) := by
  rw [findAll, allFrom_cons, if_neg (Nat.not_lt_zero _), h]
  rfl

variable (text : List Char)

/-- The first match moves with a line feed in front. -/
theorem find?_feed (hp : p.skipsFeed = true) :
    p.find? ('\n' :: text) = (p.find? text).map Match.belowFeed := by
  obtain ⟨hblind, hopen⟩ := skipsFeed_iff.mp hp
  rw [find?, firstFrom?, matchAt?_of_refuses (c := Cursor.start ('\n' :: text)) rfl hopen]
  exact firstFrom?_belowFeed hblind text (Cursor.start text)

/-- So a line feed in front changes nothing about whether the pattern occurs. -/
theorem occurs_feed (hp : p.skipsFeed = true) : p.occurs ('\n' :: text) = p.occurs text := by
  rw [occurs, occurs, find?_feed text hp, Option.isSome_map]

/-- If no match starts at the line feed, the matches are those of the text. -/
theorem findAll_feed_of_none (hblind : p.isBlindToFeed = true)
    (h : p.matchAt? (Cursor.start ('\n' :: text)) = none) :
    p.findAll ('\n' :: text) = (p.findAll text).map Match.belowFeed := by
  have hresume : p.allFrom (0 + 1) [] text (Cursor.start text).belowFeed =
      p.allFrom 0 [] text (Cursor.start text).belowFeed := allFrom_of_le [] text (Nat.le_refl _)
  rw [findAll_cons_of_none h, Cursor.advance_start_feed, ← hresume]
  exact allFrom_belowFeed hblind 0 [] text (Cursor.start text)

/-- All matches move with it. -/
theorem findAll_feed (hp : p.skipsFeed = true) :
    p.findAll ('\n' :: text) = (p.findAll text).map Match.belowFeed := by
  obtain ⟨hblind, hopen⟩ := skipsFeed_iff.mp hp
  exact findAll_feed_of_none text hblind (matchAt?_of_refuses rfl hopen)

/-- There are as many. -/
theorem count_feed (hp : p.skipsFeed = true) : p.count ('\n' :: text) = p.count text := by
  rw [count, count, findAll_feed text hp, List.length_map]

/-! ### Patterns that begin with the blanks of a line -/

variable {q r : Pattern}

/-- Whether a pattern begins with the blanks at the start of a line and goes on with another one. -/
def IsIndented (p r : Pattern) : Prop :=
  ∀ k st, p.run k st = lineStart.run (blanks.run (r.run k)) st

/-- The line feed counts as one of the blanks, so that a match at the start of the text ends where
it did. -/
theorem IsIndented.run_feed (h : p.IsIndented r) (hr : r.isBlindToFeed = true) :
    p.run some ⟨Cursor.start ('\n' :: text), []⟩ =
      (p.run some ⟨Cursor.start text, []⟩).map MatchState.belowFeed := by
  have hopens : ∀ cs, (Cursor.start cs).OpensLine := fun cs => .inl rfl
  have hfeed : CharSet.blank '\n' = true := by decide
  have hplace : ∀ front back : List Char,
      (Cursor.start ('\n' :: text)).behind ('\n' :: front) back =
        ((Cursor.start text).behind front back).belowFeed := by
    intro front back
    simp [Cursor.behind, Cursor.belowFeed, Cursor.start, List.getLast?_cons]
  rw [h, h, run_lineStart (hopens _), run_lineStart (hopens _), blanks, run_every_eq, run_every_eq]
  show r.run some ⟨(Cursor.start ('\n' :: text)).behind (('\n' :: text).takeWhile _)
    (('\n' :: text).dropWhile _), []⟩ = _
  rw [List.takeWhile_cons_of_pos hfeed, List.dropWhile_cons_of_pos hfeed, hplace]
  exact run_belowFeed hr isSteady_some ⟨(Cursor.start text).behind _ _, []⟩

/-- A match at the start of a text that has a character begins with one that the pattern does not
refuse, and ends behind it. -/
theorem exists_of_run_start {st : MatchState} (hleast : 1 ≤ p.least)
    (h : p.run some ⟨Cursor.start text, []⟩ = some st) :
    1 ≤ st.place.offset ∧ ∃ x cs, text = x :: cs ∧ p.opening x ≠ .refuses := by
  obtain ⟨front, back, marks, hrest, hn, hk⟩ := passes_of_run h
  cases hk
  have hlength : 1 ≤ front.length := hleast.trans hn
  refine ⟨by simpa [Cursor.behind, Cursor.start] using hlength, ?_⟩
  obtain ⟨x, front, rfl⟩ := List.exists_cons_of_length_pos hlength
  refine ⟨x, front ++ back, hrest, ?_⟩
  intro hrefuses
  have hrun : (p.opening x).Allows (p.run some ⟨Cursor.start text, []⟩)
      (some ⟨Cursor.start text, []⟩) := allows_opening hrest p some
  rw [hrefuses] at hrun
  exact Option.some_ne_none _ (h.symm.trans hrun)

/-- **A line feed in front of a text adds no match of a pattern that begins with the blanks of a
line**, nor of a choice between patterns that begin with other characters and it. -/
theorem count_feed_of_indented (hindented : p.IsIndented r) (hr : r.isBlindToFeed = true)
    (hp : p.isBlindToFeed = true) (hleast : 1 ≤ p.least) (hq : q.skipsFeed = true)
    (hapart : ∀ x, q.opening x = .refuses ∨ p.opening x = .refuses) :
    (q ||| p).count ('\n' :: text) = (q ||| p).count text := by
  obtain ⟨hqblind, hqopen⟩ := skipsFeed_iff.mp hq
  have hblind : (q ||| p).isBlindToFeed = true := Bool.and_eq_true_iff.mpr ⟨hqblind, hp⟩
  -- where the first pattern refuses, it is the second one that matches
  have hsecond : ∀ {c : Cursor} {x cs}, c.rest = x :: cs → q.opening x = .refuses →
      (q ||| p).matchAt? c = (p.run some ⟨c, []⟩).map fun st => ⟨c, st.place, st.marks⟩ := by
    intro c x cs hrest hrefuses
    have hq := matchAt?_of_refuses hrest hrefuses
    rw [matchAt?, Option.map_eq_none_iff] at hq
    rw [matchAt?, run_or, hq, Option.none_or]
  have hfeed := hsecond (c := Cursor.start ('\n' :: text)) rfl hqopen
  rw [hindented.run_feed text hr] at hfeed
  cases hrun : p.run some ⟨Cursor.start text, []⟩ with
  | none =>
    rw [hrun] at hfeed
    rw [count, findAll_feed_of_none text hblind hfeed, List.length_map, count]
  | some st =>
    rw [hrun] at hfeed
    obtain ⟨hoffset, x, cs, rfl, hpasses⟩ := exists_of_run_start text hleast hrun
    have hhere := hsecond (c := Cursor.start (x :: cs)) rfl ((hapart x).resolve_right hpasses)
    rw [hrun] at hhere
    -- the match that starts at the line feed is the one at the start of the text, drawn out
    have hresume : max (st.place.offset + 1) 1 = max st.place.offset 1 + 1 := by omega
    have hskip : (Cursor.start (x :: cs)).belowFeed.offset < max st.place.offset 1 + 1 :=
      Nat.lt_succ_of_le (Nat.le_max_right ..)
    rw [count, count, findAll_cons_of_some hfeed, findAll_cons_of_some hhere,
      Cursor.advance_start_feed]
    show ((q ||| p).allFrom (max (st.place.offset + 1) 1) _ _ _).length = _
    rw [hresume, allFrom_cons, if_pos hskip, Cursor.advance_belowFeed]
    refine length_allFrom_belowFeed hblind (max st.place.offset 1) ?_ cs _
    rfl

end Pattern

end ProjectSurvey
