import ProjectSurvey.Proofs.Text.Parts
import ProjectSurvey.Pattern.Basic

/-!
# What a matcher does

The matcher goes on with a continuation; here are its steps, one pattern at a time and in both
directions: where a text of the right form lies ahead, it goes on behind that text (`run_lit`,
`run_every`, `run_plus_of_some`), and where it comes to an end, such a text lay ahead (`of_run_lit`,
`of_run_every`, `of_run_plus`). A place is told by what the matcher passed on the way there
(`Cursor.behind`). The first match in a text is at the first place where the pattern matches
(`firstFrom?_append`, `firstFrom?_of_matchAt?`). **A pattern that matches at the start of a text and
nowhere else has one match there** (`findAll_eq_singleton`).
-/

namespace ProjectSurvey

namespace Cursor

/-- The place that is reached by passing `front`, with `back` ahead. -/
def behind (c : Cursor) (front back : List Char) : Cursor :=
  ⟨front.getLast?.or c.prev, back, c.offset + front.length⟩

variable {c d : Cursor} {s : CharSet}

/-- Behind some characters the rest is what is left. -/
@[simp] theorem rest_behind (front back : List Char) : (c.behind front back).rest = back := rfl

/-- Going on twice is going on over both. -/
theorem behind_behind (front more back back' : List Char) :
    (c.behind front back).behind more back' = c.behind (front ++ more) back' := by
  unfold behind
  rw [List.getLast?_append, List.length_append, Option.or_assoc, Nat.add_assoc]

/-- Whether a line starts at a place. -/
def OpensLine (c : Cursor) : Prop := c.prev = none ∨ c.prev = some '\n'

/-- Whether nothing is ahead of a place, or a final line feed alone. -/
def EndsText (c : Cursor) : Prop := c.rest = [] ∨ c.rest = ['\n']

/-- Behind a character a line starts exactly if it is a line feed. -/
theorem opensLine_behind_iff (front back : List Char) (x : Char) :
    (c.behind (front ++ [x]) back).OpensLine ↔ x = '\n' := by
  unfold OpensLine behind
  simp

/-- A set goes past its characters and stops at the first other one. -/
theorem past_cons (s : CharSet) (x : Char) (cs : List Char) (c : Cursor) :
    past s (x :: cs) c = if s x then past s cs (c.advance x cs) else c := rfl

/-- The places reached are those in front of each character taken, and the one where it stops. -/
theorem reach_cons (s : CharSet) (x : Char) (cs : List Char) (c : Cursor) (acc : List Cursor) :
    reach s (x :: cs) c acc =
    if s x then reach s cs (c.advance x cs) (c :: acc) else c :: acc := rfl

/-- The first place that no character of a set follows lies behind those that do. -/
theorem past_eq (s : CharSet) (c : Cursor) :
    past s c.rest c = c.behind (c.rest.takeWhile s) (c.rest.dropWhile s) := by
  obtain ⟨prev, cs, offset⟩ := c
  dsimp only
  induction cs generalizing prev offset with
  | nil => rfl
  | cons x cs ih =>
    rw [past_cons]
    cases hx : s x with
    | false =>
      rw [if_neg Bool.false_ne_true, List.takeWhile_cons_of_neg (by simp [hx]),
        List.dropWhile_cons_of_neg (by simp [hx])]
      rfl
    | true =>
      rw [if_pos rfl, List.takeWhile_cons_of_pos hx, List.dropWhile_cons_of_pos hx]
      exact (ih (some x) (offset + 1)).trans
        (behind_behind (c := ⟨prev, x :: cs, offset⟩) [x] _ cs _)

/-- The places reached by passing characters of a set lie behind such characters. -/
theorem exists_of_mem_reach (hd : d ∈ reach s c.rest c []) : ∃ front back,
    c.rest = front ++ back ∧ (∀ x ∈ front, s x = true) ∧ d = c.behind front back := by
  suffices hall : ∀ acc, d ∈ reach s c.rest c acc → d ∈ acc ∨ ∃ front back,
      c.rest = front ++ back ∧ (∀ x ∈ front, s x = true) ∧ d = c.behind front back from
    (hall [] hd).resolve_left List.not_mem_nil
  clear hd
  obtain ⟨prev, cs, offset⟩ := c
  dsimp only
  induction cs generalizing prev offset with
  | nil =>
    intro acc h
    rcases List.mem_cons.mp h with rfl | h
    · exact .inr ⟨[], [], rfl, by simp, rfl⟩
    · exact .inl h
  | cons x cs ih =>
    intro acc h
    have hstay : d ∈ (⟨prev, x :: cs, offset⟩ : Cursor) :: acc → d ∈ acc ∨ ∃ front back,
        x :: cs = front ++ back ∧ (∀ x ∈ front, s x = true) ∧
          d = (⟨prev, x :: cs, offset⟩ : Cursor).behind front back := by
      intro h
      rcases List.mem_cons.mp h with rfl | h
      · exact .inr ⟨[], x :: cs, rfl, by simp, rfl⟩
      · exact .inl h
    rw [reach_cons] at h
    split at h
    · next hx =>
      rcases ih (some x) (offset + 1) _ h with h | ⟨front, back, rfl, hall, rfl⟩
      · exact hstay h
      · exact .inr ⟨x :: front, back, rfl, by simpa using ⟨hx, hall⟩,
          behind_behind (c := ⟨prev, x :: (front ++ back), offset⟩) [x] _ _ _⟩
    · exact hstay h

/-- A place that was reached stays among those reached. -/
theorem mem_reach_of_mem {acc : List Cursor} (s : CharSet) (cs : List Char) (hd : d ∈ acc) :
    d ∈ reach s cs c acc := by
  induction cs generalizing c acc with
  | nil => exact List.mem_cons_of_mem c hd
  | cons x cs ih =>
    rw [reach_cons]
    split
    · exact ih (List.mem_cons_of_mem c hd)
    · exact List.mem_cons_of_mem c hd

/-- Every place behind characters of a set is reached by passing them. -/
theorem behind_mem_reach {front back : List Char} (hrest : c.rest = front ++ back)
    (hall : ∀ x ∈ front, s x = true) (acc : List Cursor) :
    c.behind front back ∈ reach s c.rest c acc := by
  obtain ⟨prev, cs, offset⟩ := c
  dsimp only at hrest ⊢
  subst hrest
  induction front generalizing prev offset acc with
  | nil =>
    cases back with
    | nil => exact List.mem_cons_self
    | cons x back =>
      rw [List.nil_append, reach_cons]
      split
      · exact mem_reach_of_mem s back List.mem_cons_self
      · exact List.mem_cons_self
  | cons x front ih =>
    obtain ⟨hx, hall⟩ := List.forall_mem_cons.mp hall
    have hsplit := behind_behind (c := ⟨prev, x :: (front ++ back), offset⟩) [x] front
      (front ++ back) back
    rw [List.singleton_append] at hsplit
    rw [List.cons_append, reach_cons, if_pos hx, ← hsplit]
    exact ih hall _ (some x) (offset + 1)

/-- The farthest place comes first. -/
theorem exists_reach_eq_cons (s : CharSet) (c : Cursor) (acc : List Cursor) :
    ∃ others, reach s c.rest c acc = past s c.rest c :: others := by
  obtain ⟨prev, cs, offset⟩ := c
  dsimp only
  induction cs generalizing prev offset acc with
  | nil => exact ⟨acc, rfl⟩
  | cons x cs ih =>
    rw [reach_cons, past_cons]
    split
    · exact ih _ (some x) (offset + 1)
    · exact ⟨acc, rfl⟩

end Cursor

namespace Pattern

variable {k : Next} {c : Cursor} {marks : Marks} {r : MatchState} {s : CharSet}

/-- A sequence runs its parts one inside the other. -/
theorem run_append (p q : Pattern) (st : MatchState) : (p ++ q).run k st = p.run (q.run k) st := rfl

/-- A choice runs its second part when the first fails. -/
theorem run_either_eq (p q : Pattern) (k : Next) (st : MatchState) : (p ||| q).run k st =
    match p.run k st with
    | some r => some r
    | none => q.run k st := rfl

/-- A choice gives what its first part gives, else what its second does. -/
theorem run_or (p q : Pattern) (st : MatchState) :
    (p ||| q).run k st = (p.run k st).or (q.run k st) := by
  rw [run_either_eq]
  cases p.run k st <;> rfl

/-- A character of a set is taken when it is there. -/
theorem run_char_eq (s : CharSet) (k : Next) (st : MatchState) : (char s).run k st =
    match st.place.rest with
    | x :: cs => if s x then k { st with place := st.place.advance x cs } else none
    | [] => none := rfl

/-- Any number of characters is tried from the most to the fewest. -/
theorem run_many_eq (s : CharSet) (k : Next) (st : MatchState) : (many s).run k st =
    (Cursor.reach s st.place.rest st.place []).findSome? fun c => k ⟨c, st.marks⟩ := rfl

/-- Every character of a set is taken at once. -/
theorem run_every_eq (s : CharSet) (k : Next) (st : MatchState) : (every s).run k st =
    k ⟨st.place.behind (st.place.rest.takeWhile s) (st.place.rest.dropWhile s), st.marks⟩ :=
  congrArg (fun c => k ⟨c, st.marks⟩) (Cursor.past_eq s st.place)

/-- A group marks what its pattern took. -/
theorem run_group_eq (n : Nat) (p : Pattern) (k : Next) (st : MatchState) : (group n p).run k st =
    p.run (fun st' => k { st' with marks :=
      (n, st.place.rest, st'.place.offset - st.place.offset) :: st'.marks }) st := rfl

/-- The start of a line is at the start of the text or behind a line feed. -/
theorem run_lineStart_eq (k : Next) (st : MatchState) : lineStart.run k st =
    if st.place.prev.isNone || st.place.prev == some '\n' then k st else none := rfl

/-- The end of the text may have one line feed in front of it. -/
theorem run_textEnd_eq (k : Next) (st : MatchState) : textEnd.run k st =
    match st.place.rest with
    | [] => k st
    | ['\n'] => k st
    | _ => none := rfl

/-! ### Going on -/

/-- A character of the set is taken, -/
theorem run_char {x : Char} {back : List Char} (hrest : c.rest = x :: back) (hx : s x = true) :
    (char s).run k ⟨c, marks⟩ = k ⟨c.behind [x] back, marks⟩ := by
  rw [run_char_eq, hrest]
  exact if_pos hx

/-- and any other one refused. -/
theorem run_char_of_head (hrest : ∀ x ∈ c.rest.head?, s x = false) :
    (char s).run k ⟨c, marks⟩ = none := by
  rw [run_char_eq]
  dsimp only
  cases hcs : c.rest with
  | nil => rfl
  | cons x back => exact if_neg (by simp [hrest x (by simp [hcs])])

/-- A literal is taken where it stands. -/
theorem run_lit (w : String) {back : List Char} (hrest : c.rest = w.toList ++ back) :
    (lit w).run k ⟨c, marks⟩ = k ⟨c.behind w.toList back, marks⟩ := by
  unfold lit
  generalize w.toList = word at hrest ⊢
  induction word generalizing c with
  | nil =>
    rw [List.nil_append] at hrest
    rw [← hrest]
    rfl
  | cons x word ih =>
    show (char (CharSet.only x)).run (run (word.foldr _ empty) k) ⟨c, marks⟩ = _
    rw [run_char hrest (by simp [CharSet.only])]
    refine (ih rfl).trans ?_
    rw [Cursor.behind_behind]
    rfl

/-- All characters of a set are passed, and no others. -/
theorem run_every {front back : List Char} (hrest : c.rest = front ++ back)
    (hall : ∀ x ∈ front, s x = true) (hhead : ∀ x ∈ back.head?, s x = false) :
    (every s).run k ⟨c, marks⟩ = k ⟨c.behind front back, marks⟩ := by
  obtain ⟨hfront, hback⟩ := Text.takeWhile_of_head hall hhead
  rw [run_every_eq, hrest, hfront, hback]

/-- A stretch takes all characters of the set that stand in a row. -/
theorem run_stretch {front back : List Char} (hne : front ≠ []) (hrest : c.rest = front ++ back)
    (hall : ∀ x ∈ front, s x = true) (hhead : ∀ x ∈ back.head?, s x = false) :
    (stretch s).run k ⟨c, marks⟩ = k ⟨c.behind front back, marks⟩ := by
  obtain ⟨x, front, rfl⟩ := List.exists_cons_of_ne_nil hne
  obtain ⟨hx, hall⟩ := List.forall_mem_cons.mp hall
  show (char s).run ((every s).run k) ⟨c, marks⟩ = _
  rw [run_char hrest hx, run_every rfl hall hhead, Cursor.behind_behind]
  rfl

/-- A repetition that would give back goes on behind all characters of its set, if that comes to an
end. -/
theorem run_plus_of_some {front back : List Char} (hne : front ≠ [])
    (hrest : c.rest = front ++ back) (hall : ∀ x ∈ front, s x = true)
    (hhead : ∀ x ∈ back.head?, s x = false) (h : k ⟨c.behind front back, marks⟩ = some r) :
    (plus s).run k ⟨c, marks⟩ = some r := by
  obtain ⟨x, front, rfl⟩ := List.exists_cons_of_ne_nil hne
  obtain ⟨hx, hall⟩ := List.forall_mem_cons.mp hall
  obtain ⟨hfront, hback⟩ := Text.takeWhile_of_head hall hhead
  show (char s).run ((many s).run k) ⟨c, marks⟩ = _
  rw [run_char hrest hx]
  obtain ⟨others, hothers⟩ :=
    Cursor.exists_reach_eq_cons s (c.behind [x] (front ++ back)) []
  show (Cursor.reach s (c.behind [x] (front ++ back)).rest (c.behind [x] (front ++ back))
    []).findSome? (fun c => k ⟨c, marks⟩) = _
  rw [hothers, Cursor.past_eq, Cursor.rest_behind, hfront, hback, Cursor.behind_behind,
    List.findSome?_cons, List.singleton_append, h]

/-- A repetition that gives back comes to an end if going on behind some characters of its set
does. -/
theorem isSome_run_many {front back : List Char} (hrest : c.rest = front ++ back)
    (hall : ∀ x ∈ front, s x = true) (h : (k ⟨c.behind front back, marks⟩).isSome = true) :
    ((many s).run k ⟨c, marks⟩).isSome = true := by
  rw [run_many_eq, List.findSome?_isSome_iff]
  exact ⟨_, Cursor.behind_mem_reach hrest hall [], h⟩

/-- A group is remembered as the text that was passed. -/
theorem run_group {p : Pattern} {n : Nat} {front back : List Char} (hrest : c.rest = front ++ back)
    (h : ∀ k : Next, p.run k ⟨c, marks⟩ = k ⟨c.behind front back, marks⟩) :
    (group n p).run k ⟨c, marks⟩ =
      k ⟨c.behind front back, (n, front ++ back, front.length) :: marks⟩ := by
  rw [run_group_eq, h]
  dsimp only
  rw [hrest, Cursor.behind, Nat.add_sub_cancel_left]

/-! ### Having gone on -/

/-- What was run behind a character took one of the set. -/
theorem of_run_char {st : MatchState} (h : (char s).run k st = some r) :
    ∃ x back, st.place.rest = x :: back ∧ s x = true ∧
      k ⟨st.place.behind [x] back, st.marks⟩ = some r := by
  rw [run_char_eq] at h
  split at h
  · next x back hrest =>
    split at h
    · next hx => exact ⟨x, back, hrest, hx, h⟩
    · cases h
  · cases h

/-- What was run behind a literal had it in front. -/
theorem of_run_lit {w : String} {st : MatchState} (h : (lit w).run k st = some r) :
    ∃ back, st.place.rest = w.toList ++ back ∧
      k ⟨st.place.behind w.toList back, st.marks⟩ = some r := by
  unfold lit at h
  generalize w.toList = word at h ⊢
  induction word generalizing st with
  | nil => exact ⟨st.place.rest, rfl, h⟩
  | cons x word ih =>
    obtain ⟨y, back, hrest, hx, h⟩ := of_run_char h
    obtain ⟨back', hrest', h⟩ := ih h
    rw [Cursor.rest_behind] at hrest'
    rw [Cursor.behind_behind] at h
    cases beq_iff_eq.mp hx
    rw [hrest'] at hrest
    exact ⟨back', hrest, h⟩

/-- A literal that is not there fails. -/
theorem run_lit_eq_none {w : String} {st : MatchState} (h : ¬ w.toList <+: st.place.rest) :
    (lit w).run k st = none := by
  rw [Option.eq_none_iff_forall_not_mem]
  intro r hr
  obtain ⟨back, hrest, -⟩ := of_run_lit hr
  exact h ⟨back, hrest.symm⟩

/-- What was run behind every character of a set took all that are in a row. -/
theorem of_run_every {st : MatchState} (h : (every s).run k st = some r) :
    k ⟨st.place.behind (st.place.rest.takeWhile s) (st.place.rest.dropWhile s), st.marks⟩ =
      some r :=
  (run_every_eq s k st).symm.trans h

/-- What was run behind a stretch took one at least. -/
theorem of_run_stretch {st : MatchState} (h : (stretch s).run k st = some r) :
    ∃ x cs, st.place.rest = x :: cs ∧ s x = true ∧
      k ⟨st.place.behind (x :: cs.takeWhile s) (cs.dropWhile s), st.marks⟩ = some r := by
  obtain ⟨x, back, hrest, hx, h⟩ := of_run_char h
  have h := of_run_every h
  rw [Cursor.behind_behind] at h
  exact ⟨x, back, hrest, hx, h⟩

/-- What was run behind any number of characters took some of them. -/
theorem of_run_many {st : MatchState} (h : (many s).run k st = some r) :
    ∃ front back, st.place.rest = front ++ back ∧ (∀ x ∈ front, s x = true) ∧
      k ⟨st.place.behind front back, st.marks⟩ = some r := by
  rw [run_many_eq] at h
  obtain ⟨d, hd, h⟩ := List.exists_of_findSome?_eq_some h
  obtain ⟨front, back, hrest, hall, rfl⟩ := Cursor.exists_of_mem_reach hd
  exact ⟨front, back, hrest, hall, h⟩

/-- What was run behind one or more took one at least. -/
theorem of_run_plus {st : MatchState} (h : (plus s).run k st = some r) :
    ∃ front back, front ≠ [] ∧ st.place.rest = front ++ back ∧ (∀ x ∈ front, s x = true) ∧
      k ⟨st.place.behind front back, st.marks⟩ = some r := by
  obtain ⟨x, cs, hrest, hx, h⟩ := of_run_char h
  obtain ⟨front, back, hcs, hall, h⟩ := of_run_many h
  rw [Cursor.rest_behind] at hcs
  rw [Cursor.behind_behind] at h
  exact ⟨x :: front, back, List.cons_ne_nil _ _, by rw [hrest, hcs]; rfl,
    List.forall_mem_cons.mpr ⟨hx, hall⟩, h⟩

/-- What is remembered is of no account for where a matcher comes to. -/
theorem of_run_group {p : Pattern} {n : Nat} {st : MatchState}
    (h : (group n p).run k st = some r) :
    ∃ more : MatchState → Marks, p.run (fun st' => k ⟨st'.place, more st'⟩) st = some r :=
  ⟨_, h⟩

/-- What was run at the start of a line stands there, -/
theorem of_run_lineStart {st : MatchState} (h : lineStart.run k st = some r) :
    st.place.OpensLine ∧ k st = some r := by
  rw [run_lineStart_eq] at h
  split at h
  · next hopen => exact ⟨by simpa [Cursor.OpensLine] using hopen, h⟩
  · cases h

/-- and there it goes on. -/
theorem run_lineStart {st : MatchState} (h : st.place.OpensLine) : lineStart.run k st = k st := by
  rw [run_lineStart_eq]
  exact if_pos (by simpa [Cursor.OpensLine] using h)

/-- What was run at the end of the text stands there, -/
theorem of_run_textEnd {st : MatchState} (h : textEnd.run k st = some r) :
    st.place.EndsText ∧ k st = some r := by
  rw [run_textEnd_eq] at h
  split at h
  · next hrest => exact ⟨.inl hrest, h⟩
  · next hrest => exact ⟨.inr hrest, h⟩
  · cases h

/-- and there it goes on. -/
theorem run_textEnd {st : MatchState} (h : st.place.EndsText) : textEnd.run k st = k st := by
  rw [run_textEnd_eq]
  rcases h with h | h
  · rw [h]
  · rw [h]
    rfl

/-! ### Matches in a text -/

variable {p : Pattern}

/-- The first match of a pattern that does not match at the places before. -/
theorem firstFrom?_append {front back : List Char}
    (h : ∀ shown hidden, front = shown ++ hidden → hidden ≠ [] →
      p.matchAt? (c.behind shown (hidden ++ back)) = none) (hrest : c.rest = front ++ back) :
    p.firstFrom? (front ++ back) c = p.firstFrom? back (c.behind front back) := by
  induction front generalizing c with
  | nil =>
    obtain ⟨prev, cs, offset⟩ := c
    cases hrest
    rfl
  | cons x front ih =>
    have hhere : p.matchAt? c = none := by
      obtain ⟨prev, cs, offset⟩ := c
      cases hrest
      exact h [] (x :: front) rfl (List.cons_ne_nil x front)
    have hnext : ∀ shown hidden, front = shown ++ hidden → hidden ≠ [] →
        p.matchAt? ((c.behind [x] (front ++ back)).behind shown (hidden ++ back)) = none := by
      intro shown hidden hsplit hne
      rw [Cursor.behind_behind]
      exact h (x :: shown) hidden (congrArg (x :: ·) hsplit) hne
    rw [List.cons_append, firstFrom?, hhere]
    refine (ih hnext rfl).trans ?_
    rw [Cursor.behind_behind, List.singleton_append]

/-- A match that begins at a place is the first one from there on. -/
theorem firstFrom?_of_matchAt? {m : Match} (h : p.matchAt? c = some m) (cs : List Char) :
    p.firstFrom? cs c = some m := by
  cases cs with
  | nil => exact h
  | cons x cs => rw [firstFrom?, h]

/-- At the end of the text one more match may be found. -/
theorem allFrom_nil (p : Pattern) (resume : Nat) (acc : List Match) (c : Cursor) :
    p.allFrom resume acc [] c =
      if c.offset < resume then acc.reverse
      else match p.matchAt? c with
        | some m => (m :: acc).reverse
        | none => acc.reverse := rfl

/-- At every other place a match is looked for unless the last one goes on. -/
theorem allFrom_cons (p : Pattern) (resume : Nat) (acc : List Match) (x : Char) (cs : List Char)
    (c : Cursor) : p.allFrom resume acc (x :: cs) c =
      if c.offset < resume then p.allFrom resume acc cs (c.advance x cs)
      else match p.matchAt? c with
        | some m => p.allFrom (max m.stop.offset (c.offset + 1)) (m :: acc) cs (c.advance x cs)
        | none => p.allFrom resume acc cs (c.advance x cs) := rfl

/-- A pattern that matches nowhere from a place on adds nothing to the matches found. -/
theorem allFrom_of_silent {resume : Nat} {acc : List Match}
    (h : ∀ front back, c.rest = front ++ back → p.matchAt? (c.behind front back) = none) :
    p.allFrom resume acc c.rest c = acc.reverse := by
  obtain ⟨prev, cs, offset⟩ := c
  dsimp only at h ⊢
  induction cs generalizing prev offset with
  | nil =>
    have hhere : p.matchAt? ⟨prev, [], offset⟩ = none := h [] [] rfl
    rw [allFrom_nil, hhere]
    exact ite_self _
  | cons x cs ih =>
    have hhere : p.matchAt? ⟨prev, x :: cs, offset⟩ = none := h [] (x :: cs) rfl
    rw [allFrom_cons, hhere]
    refine (ite_self _).trans (ih (some x) (offset + 1) fun front back hcs => ?_)
    have hbehind := h ([x] ++ front) back (congrArg (x :: ·) hcs)
    rwa [← Cursor.behind_behind [x] front cs back] at hbehind

/-- A pattern that matches neither at the start of a text nor elsewhere has no matches. -/
theorem findAll_eq_nil {text : List Char} (hstart : p.matchAt? (Cursor.start text) = none)
    (h : ∀ front back, front ≠ [] → text = front ++ back →
      p.matchAt? ((Cursor.start text).behind front back) = none) : p.findAll text = [] := by
  refine allFrom_of_silent (c := Cursor.start text) fun front back hsplit => ?_
  rcases eq_or_ne front [] with rfl | hne
  · obtain rfl : text = back := hsplit
    exact hstart
  · exact h front back hne hsplit

/-- **A pattern that matches at the start of a text and nowhere else has one match there.** -/
theorem findAll_eq_singleton {text : List Char} {m : Match} (hne : text ≠ [])
    (hm : p.matchAt? (Cursor.start text) = some m)
    (h : ∀ front back, front ≠ [] → text = front ++ back →
      p.matchAt? ((Cursor.start text).behind front back) = none) : p.findAll text = [m] := by
  obtain ⟨x, cs, rfl⟩ := List.exists_cons_of_ne_nil hne
  rw [findAll, allFrom_cons, if_neg (Nat.not_lt_zero _), hm]
  refine allFrom_of_silent (c := (Cursor.start (x :: cs)).behind [x] cs) ?_
  intro front back hcs
  rw [Cursor.behind_behind]
  exact h _ _ (List.cons_ne_nil _ _) (congrArg (x :: ·) hcs)

end Pattern

end ProjectSurvey
