import Mathlib.Data.List.Forall2
import ProjectSurvey.Proofs.Paths

/-!
# What a shell pattern accepts

The matcher decides part by part for all ends of a text at once; `Takes` says the same without ends:
a star takes any run of characters, every other part one character (`accepts_iff_takes`). **A
pattern whose bracketed sets hold no slash accepts a path exactly if the path falls into groups of
segments, one for each segment of the pattern and accepted by it** (`isMatch_iff_fitsInGroups`). A
group may be as long as it likes, because a wildcard takes a slash like any other character; only a
segment without wildcards takes a single one (`isMatch_iff_eq`).
-/

namespace ProjectSurvey

namespace Text.Glob

/-! ### Part by part -/

/-- Whether the parts of a pattern take up a text. -/
inductive Takes : List GlobPart → List Char → Prop where
  /-- No parts take up nothing. -/
  | nil : Takes [] []
  /-- A star takes any run of characters. -/
  | star {ps : List GlobPart} (run : List Char) {cs : List Char} :
      Takes ps cs → Takes (.star :: ps) (run ++ cs)
  /-- Every other part takes one character that it accepts. -/
  | one {p : GlobPart} {ps : List GlobPart} {c : Char} {cs : List Char} :
      partAccepts c p = true → Takes ps cs → Takes (p :: ps) (c :: cs)

/-- No parts take the empty text only. -/
theorem takes_nil_iff {cs : List Char} : Takes [] cs ↔ cs = [] := by
  constructor
  · rintro ⟨⟩
    rfl
  · rintro rfl
    exact .nil

/-- A star takes any run of characters. -/
theorem takes_star_iff {ps : List GlobPart} {cs : List Char} :
    Takes (.star :: ps) cs ↔ ∃ run rest, cs = run ++ rest ∧ Takes ps rest := by
  constructor
  · intro h
    cases h with
    | star run h => exact ⟨run, _, rfl, h⟩
    | one hc _ => cases hc
  · rintro ⟨run, rest, rfl, h⟩
    exact .star run h

/-- Any other part takes one character that it accepts. -/
theorem takes_one_iff {p : GlobPart} (hp : p ≠ .star) {ps : List GlobPart} {cs : List Char} :
    Takes (p :: ps) cs ↔ ∃ c rest, cs = c :: rest ∧ partAccepts c p = true ∧ Takes ps rest := by
  constructor
  · intro h
    cases h with
    | star run h => contradiction
    | one hc h => exact ⟨_, _, rfl, hc, h⟩
  · rintro ⟨c, rest, rfl, hc, h⟩
    exact .one hc h

/-- From a star on, any shorter end that is accepted will do. -/
theorem acceptedEnds_star (ps : List GlobPart) (cs : List Char) :
    acceptedEnds (.star :: ps) cs = anyShorter (acceptedEnds ps cs) := rfl

/-- From another part on, an end is accepted when its first character is and the next end is. -/
theorem acceptedEnds_one {p : GlobPart} (hp : p ≠ .star) (ps : List GlobPart) (cs : List Char) :
    acceptedEnds (p :: ps) cs =
      cs.zipWith (fun c b => partAccepts c p && b) ((acceptedEnds ps cs).drop 1) ++ [false] := by
  cases p with
  | star => contradiction
  | _ => rfl

/-- Each place looks at itself and at the place behind it. -/
theorem anyShorter_cons (b : Bool) (truths : List Bool) : anyShorter (b :: truths) =
    (b || (anyShorter truths).headD false) :: anyShorter truths := rfl

/-- On an empty text one question is left. -/
theorem acceptedEnds_nil (ps : List GlobPart) : acceptedEnds ps [] = [accepts ps []] := by
  induction ps with
  | nil => rfl
  | cons p ps ih =>
    by_cases hp : p = .star
    · rw [accepts, hp, acceptedEnds_star, ih]
      rfl
    · rw [accepts, acceptedEnds_one hp]
      rfl

/-- The longest end of a text comes first, and behind it come those of the text without its first
character. -/
theorem acceptedEnds_cons (ps : List GlobPart) (c : Char) (cs : List Char) :
    acceptedEnds ps (c :: cs) = accepts ps (c :: cs) :: acceptedEnds ps cs := by
  induction ps generalizing c cs with
  | nil => rfl
  | cons p ps ih =>
    by_cases hp : p = .star
    · rw [accepts, hp, acceptedEnds_star, acceptedEnds_star, ih]
      rfl
    · rw [accepts, acceptedEnds_one hp, acceptedEnds_one hp, ih, List.drop_succ_cons,
        List.drop_zero]
      cases cs with
      | nil =>
        rw [acceptedEnds_nil]
        rfl
      | cons d ds =>
        rw [ih]
        rfl

/-- A star at the end of the text gives it over to the rest. -/
theorem accepts_star_nil (ps : List GlobPart) : accepts (.star :: ps) [] = accepts ps [] := by
  rw [accepts, acceptedEnds_star, acceptedEnds_nil, anyShorter_cons]
  exact Bool.or_false _

/-- A star gives over to the rest or takes one more character. -/
theorem accepts_star_cons (ps : List GlobPart) (c : Char) (cs : List Char) :
    accepts (.star :: ps) (c :: cs) = (accepts ps (c :: cs) || accepts (.star :: ps) cs) := by
  rw [accepts, acceptedEnds_star, acceptedEnds_cons, anyShorter_cons]
  rfl

/-- A part that takes one character has none to take at the end. -/
theorem accepts_one_nil {p : GlobPart} (hp : p ≠ .star) (ps : List GlobPart) :
    accepts (p :: ps) [] = false := by
  rw [accepts, acceptedEnds_one hp]
  rfl

/-- Such a part takes the first character and leaves the others to the rest. -/
theorem accepts_one_cons {p : GlobPart} (hp : p ≠ .star) (ps : List GlobPart) (c : Char)
    (cs : List Char) : accepts (p :: ps) (c :: cs) = (partAccepts c p && accepts ps cs) := by
  have hhead : (acceptedEnds ps cs).head? = some (accepts ps cs) := by
    cases cs with
    | nil => rw [acceptedEnds_nil, List.head?_cons]
    | cons d ds => rw [acceptedEnds_cons, List.head?_cons]
  obtain ⟨ends, hends⟩ := List.head?_eq_some_iff.mp hhead
  rw [accepts, acceptedEnds_one hp, acceptedEnds_cons, List.drop_succ_cons, List.drop_zero, hends]
  rfl

/-- **The matcher accepts what the parts of a pattern take up.** -/
theorem accepts_iff_takes (ps : List GlobPart) (cs : List Char) :
    accepts ps cs = true ↔ Takes ps cs := by
  induction ps generalizing cs with
  | nil =>
    rw [takes_nil_iff]
    cases cs with
    | nil => exact ⟨fun _ => rfl, fun _ => rfl⟩
    | cons c cs => exact ⟨nofun, nofun⟩
  | cons p ps ih =>
    by_cases hp : p = .star
    · subst hp
      -- a star that does not stop at once takes the first character
      induction cs with
      | nil =>
        rw [accepts_star_nil, ih, takes_star_iff]
        simp [and_assoc]
      | cons c cs ihcs =>
        rw [accepts_star_cons, Bool.or_eq_true, ih, ihcs, takes_star_iff, takes_star_iff]
        constructor
        · rintro (h | ⟨run, rest, rfl, h⟩)
          · exact ⟨[], _, rfl, h⟩
          · exact ⟨c :: run, rest, rfl, h⟩
        · rintro ⟨run, rest, htext, h⟩
          rcases run with _ | ⟨d, run⟩
          · exact .inl (htext ▸ h)
          · exact .inr ⟨run, rest, (List.cons.inj htext).2, h⟩
    · rw [takes_one_iff hp]
      cases cs with
      | nil =>
        rw [accepts_one_nil hp]
        exact ⟨nofun, nofun⟩
      | cons c cs =>
        rw [accepts_one_cons hp, Bool.and_eq_true, ih]
        simp [and_assoc]

/-- Parts behind one another take up a text behind one another. -/
theorem takes_append_iff {ps qs : List GlobPart} {cs : List Char} :
    Takes (ps ++ qs) cs ↔ ∃ front back, cs = front ++ back ∧ Takes ps front ∧ Takes qs back := by
  constructor
  · intro h
    induction ps generalizing cs with
    | nil => exact ⟨[], cs, rfl, .nil, h⟩
    | cons p ps ih =>
      cases h with
      | star run h =>
        obtain ⟨front, back, rfl, hfront, hback⟩ := ih h
        exact ⟨run ++ front, back, (List.append_assoc ..).symm, .star run hfront, hback⟩
      | @one _ _ c _ hc h =>
        obtain ⟨front, back, rfl, hfront, hback⟩ := ih h
        exact ⟨c :: front, back, rfl, .one hc hfront, hback⟩
  · rintro ⟨front, back, rfl, hfront, hback⟩
    induction hfront with
    | nil => exact hback
    | star run _ ih =>
      rw [List.append_assoc]
      exact .star run ih
    | one hc _ ih => exact .one hc ih

/-- An exact part takes its character. -/
theorem takes_exact_cons_iff {d : Char} {ps : List GlobPart} {cs : List Char} :
    Takes (.exact d :: ps) cs ↔ ∃ rest, cs = d :: rest ∧ Takes ps rest := by
  rw [takes_one_iff (by simp)]
  constructor
  · rintro ⟨c, rest, rfl, hc, h⟩
    exact ⟨rest, by rw [beq_iff_eq.mp hc], h⟩
  · rintro ⟨rest, rfl, h⟩
    exact ⟨d, rest, rfl, beq_self_eq_true d, h⟩

/-! ### Bracketed sets -/

/-- What the search for the partner of an opening bracket finds. -/
def closing? (first rest : List Char) : Option (List Char × List Char) :=
  match rest.dropWhile (· != ']') with
  | [] => none
  | _ :: tail => some (first ++ rest.takeWhile (· != ']'), tail)

/-- A bracket closes at the next closing bracket. -/
theorem closing?_eq_some_iff {first rest members tail : List Char} :
    closing? first rest = some (members, tail) ↔
      ∃ body, ']' ∉ body ∧ rest = body ++ ']' :: tail ∧ members = first ++ body := by
  constructor
  · intro h
    unfold closing? at h
    split at h
    · cases h
    · next c tail' hdrop =>
      cases h
      have hbracket : c = ']' := by simpa [hdrop] using List.head?_dropWhile_not (· != ']') rest
      subst hbracket
      refine ⟨rest.takeWhile (· != ']'), ?_, ?_, rfl⟩
      · intro hmem
        have hne := List.mem_takeWhile_imp hmem
        simp at hne
      · rw [← hdrop, List.takeWhile_append_dropWhile]
  · rintro ⟨body, hbody, rfl, rfl⟩
    have hall : ∀ c ∈ body, (c != ']') = true := by
      intro c hc
      rw [bne_iff_ne]
      rintro rfl
      exact hbody hc
    unfold closing?
    rw [List.dropWhile_append_of_pos hall, List.takeWhile_append_of_pos hall]
    simp

/-- What is passed over before the partner of an opening bracket is looked for. -/
def opening : List Char → List Char
  | '!' :: ']' :: _ => ['!', ']']
  | '!' :: _ => ['!']
  | ']' :: _ => [']']
  | _ => []

/-- The bracket is read behind its opening, in which a closing bracket stands for itself. -/
theorem bracket?_eq (cs : List Char) :
    bracket? cs = closing? (opening cs) (cs.drop (opening cs).length) := by
  unfold bracket? closing? opening
  rcases cs with _ | ⟨c, cs⟩
  · rfl
  · by_cases hc : c = '!'
    · subst hc
      rcases cs with _ | ⟨d, ds⟩
      · rfl
      · by_cases hd : d = ']'
        · subst hd
          rfl
        · simp only [List.cons.injEq, hd, false_and, imp_self, implies_true]
          rfl
    · by_cases hd : c = ']'
      · subst hd
        rfl
      · simp only [List.cons.injEq, hc, hd, false_and, imp_self, implies_true]
        rfl

/-- The opening of a bracket and what is behind it make the whole. -/
theorem opening_append_drop (cs : List Char) : opening cs ++ cs.drop (opening cs).length = cs := by
  unfold opening
  split <;> rfl

/-- Two characters decide what is passed over. -/
theorem opening_append {c d : Char} (front cs : List Char) :
    opening (c :: d :: (front ++ cs)) = opening (c :: d :: front) := by
  unfold opening
  by_cases hd : d = ']' <;> by_cases hc : c = '!' <;> by_cases hc' : c = ']' <;> simp_all

/-- Whether a text is what stands between an opening bracket and its partner. -/
def IsMembers (members : List Char) : Prop :=
  ∃ body, ']' ∉ body ∧ members = opening (members ++ [']']) ++ body

/-- Which set an opening bracket opens depends only on what stands in front of its partner. -/
theorem bracket?_eq_some_iff {cs members tail : List Char} :
    bracket? cs = some (members, tail) ↔ IsMembers members ∧ cs = members ++ ']' :: tail := by
  have hopening : members ≠ [] →
      opening (members ++ ']' :: tail) = opening (members ++ [']']) := by
    intro hne
    obtain ⟨c, rest, rfl⟩ := List.exists_cons_of_ne_nil hne
    rcases rest with _ | ⟨d, rest⟩
    · exact opening_append [] tail
    · show opening (c :: d :: (rest ++ ']' :: tail)) = opening (c :: d :: (rest ++ [']']))
      rw [opening_append, opening_append]
  rw [bracket?_eq, closing?_eq_some_iff]
  constructor
  · rintro ⟨body, hbody, hdrop, hmembers⟩
    have hcs : cs = members ++ ']' :: tail := by
      rw [hmembers, List.append_assoc, ← hdrop, opening_append_drop]
    have hne : members ≠ [] := by
      rintro rfl
      obtain ⟨hnone, -⟩ := List.append_eq_nil_iff.mp hmembers.symm
      rw [hcs] at hnone
      cases hnone
    refine ⟨⟨body, hbody, ?_⟩, hcs⟩
    rw [← hopening hne, ← hcs]
    exact hmembers
  · rintro ⟨⟨body, hbody, hmembers⟩, rfl⟩
    have hne : members ≠ [] := by
      rintro rfl
      cases hmembers
    have htext : members ++ ']' :: tail = opening (members ++ [']']) ++ (body ++ ']' :: tail) := by
      rw [← List.append_assoc, ← hmembers]
    refine ⟨body, hbody, ?_, ?_⟩
    · rw [hopening hne, htext, List.drop_left]
    · rw [hopening hne]
      exact hmembers

/-! ### Reading a pattern -/

/-- What is left behind a bracket is no longer than what was there. -/
theorem length_le_of_bracket? {cs members tail : List Char}
    (h : bracket? cs = some (members, tail)) : tail.length ≤ cs.length := by
  rw [(bracket?_eq_some_iff.mp h).2, List.length_append, List.length_cons]
  omega

/-- The parser reads one part after another, by the character each starts with. -/
theorem go_cons (f c : Char) (fuel cs : List Char) : parse.go (f :: fuel) (c :: cs) =
    match c with
    | '*' => .star :: parse.go fuel cs
    | '?' => .one :: parse.go fuel cs
    | '[' =>
      match bracket? cs with
      | none => .exact '[' :: parse.go fuel cs
      | some (members, rest) => setOf members :: parse.go fuel rest
    | c => .exact c :: parse.go fuel cs := rfl

/-- A pattern is read in the same way with more fuel. -/
theorem go_eq {fuel fuel' cs : List Char} (h : cs.length ≤ fuel.length)
    (h' : cs.length ≤ fuel'.length) : parse.go fuel cs = parse.go fuel' cs := by
  induction fuel generalizing fuel' cs with
  | nil =>
    obtain rfl := List.length_eq_zero_iff.mp (Nat.le_zero.mp h)
    cases fuel' <;> rfl
  | cons _ fuel ih =>
    rcases cs with _ | ⟨c, cs⟩
    · cases fuel' <;> rfl
    · obtain ⟨_, fuel', rfl⟩ := List.exists_cons_of_length_pos (Nat.zero_lt_of_lt h')
      have hstep : ∀ rest : List Char, rest.length ≤ cs.length →
          parse.go fuel rest = parse.go fuel' rest := fun rest hrest =>
        ih (hrest.trans (Nat.le_of_succ_le_succ h)) (hrest.trans (Nat.le_of_succ_le_succ h'))
      rw [go_cons, go_cons]
      split
      · rw [hstep cs le_rfl]
      · rw [hstep cs le_rfl]
      · split
        · rw [hstep cs le_rfl]
        · next members rest hbracket => rw [hstep rest (length_le_of_bracket? hbracket)]
      · rw [hstep cs le_rfl]

/-- A pattern is read from its first character on. -/
theorem parse_cons (c : Char) (cs : List Char) : parse (c :: cs) =
    match c with
    | '*' => .star :: parse cs
    | '?' => .one :: parse cs
    | '[' =>
      match bracket? cs with
      | none => .exact '[' :: parse cs
      | some (members, rest) => setOf members :: parse rest
    | c => .exact c :: parse cs := by
  rw [parse, go_cons]
  split
  · rfl
  · rfl
  · cases hbracket : bracket? cs with
    | none => rfl
    | some found =>
      obtain ⟨members, rest⟩ := found
      dsimp only
      rw [go_eq (length_le_of_bracket? hbracket) le_rfl]
      rfl
  · simp_all [parse]

/-- Whether every bracketed set of a pattern lies in one segment: no slash stands between an opening
bracket and its partner. -/
def SetsInSegments (pattern : List Char) : Prop :=
  ∀ front rest members tail, pattern = front ++ '[' :: rest →
    bracket? rest = some (members, tail) → '/' ∉ members

/-- Sets that stay within segments do so behind any front. -/
theorem SetsInSegments.of_append (front : List Char) {back : List Char}
    (h : SetsInSegments (front ++ back)) :
    SetsInSegments back := by
  intro front' rest members tail hback hbracket
  exact h (front ++ front') rest members tail (by rw [hback, List.append_assoc]) hbracket

/-- A pattern without sets has none that leaves its segment. -/
theorem setsInSegments_of_notMem {pattern : List Char} (h : '[' ∉ pattern) :
    SetsInSegments pattern := by
  rintro front rest members tail rfl _
  exact absurd (List.mem_append_right front List.mem_cons_self) h

/-- A bracket without a partner in the whole text has none in its front. -/
theorem bracket?_eq_none_of_append {front back : List Char} (h : bracket? (front ++ back) = none) :
    bracket? front = none := by
  rw [Option.eq_none_iff_forall_ne_some]
  rintro ⟨members, tail⟩ hsome
  obtain ⟨hmembers, rfl⟩ := bracket?_eq_some_iff.mp hsome
  have hwhole : bracket? (members ++ ']' :: tail ++ back) = some (members, tail ++ back) :=
    bracket?_eq_some_iff.mpr ⟨hmembers, by rw [List.append_assoc]; rfl⟩
  cases h.symm.trans hwhole

/-- Where no slash stands between a bracket and its partner, the partner stands in front of the next
slash. -/
theorem exists_of_bracket?_append_slash {front back members tail : List Char}
    (h : bracket? (front ++ '/' :: back) = some (members, tail)) (hslash : '/' ∉ members) :
    ∃ tail', front = members ++ ']' :: tail' ∧ tail = tail' ++ '/' :: back ∧
      bracket? front = some (members, tail') := by
  obtain ⟨hmembers, htext⟩ := bracket?_eq_some_iff.mp h
  rcases List.append_eq_append_iff.mp htext with ⟨more, hmore, hback⟩ | ⟨more, hmore, hback⟩
  · rcases more with _ | ⟨d, more⟩
    · cases hback
    · obtain ⟨rfl, -⟩ := List.cons.inj hback
      rw [hmore] at hslash
      exact absurd (List.mem_append_right front List.mem_cons_self) hslash
  · rcases more with _ | ⟨d, more⟩
    · cases hback
    · obtain ⟨rfl, htail⟩ := List.cons.inj hback
      exact ⟨more, hmore, htail, bracket?_eq_some_iff.mpr ⟨hmembers, hmore⟩⟩

/-- Where every set lies in one segment, the parts of a pattern are those of its segments, with
slashes between them. -/
theorem parse_append_slash {front back : List Char} (h : SetsInSegments (front ++ '/' :: back)) :
    parse (front ++ '/' :: back) = parse front ++ .exact '/' :: parse back := by
  induction hlength : front.length using Nat.strong_induction_on generalizing front with
  | _ n ih =>
    subst hlength
    rcases front with _ | ⟨c, front⟩
    · rw [List.nil_append, parse_cons]
      rfl
    · have hrest : ∀ front', front'.length ≤ front.length →
          SetsInSegments (front' ++ '/' :: back) →
          parse (front' ++ '/' :: back) = parse front' ++ .exact '/' :: parse back :=
        fun front' hle hsets => ih front'.length (Nat.lt_succ_of_le hle) hsets rfl
      have hnext := hrest front le_rfl (SetsInSegments.of_append [c] h)
      rw [List.cons_append, parse_cons, parse_cons]
      split
      · rw [hnext, List.cons_append]
      · rw [hnext, List.cons_append]
      · cases hbracket : bracket? (front ++ '/' :: back) with
        | none =>
          rw [bracket?_eq_none_of_append hbracket, hnext]
          rfl
        | some p =>
          obtain ⟨members, tail⟩ := p
          obtain ⟨tail', rfl, rfl, hfront⟩ :=
            exists_of_bracket?_append_slash hbracket (h [] _ members tail rfl hbracket)
          have hsets : SetsInSegments (tail' ++ '/' :: back) := by
            refine SetsInSegments.of_append ('[' :: members ++ [']']) ?_
            simpa using h
          rw [hfront]
          show setOf members :: parse (tail' ++ '/' :: back) = _
          rw [hrest tail' (length_le_of_bracket? hfront) hsets]
          rfl
      · rw [hnext, List.cons_append]

/-! ### Without wildcards -/

/-- The characters that stand for others. -/
def wildcards : List Char := ['*', '?', '[']

/-- A pattern without wildcards accepts itself only. -/
theorem isMatch_iff_eq {pattern : String} (h : ∀ c ∈ pattern.toList, c ∉ wildcards)
    (text : String) :
    isMatch pattern text = true ↔ text = pattern := by
  have hparse : ∀ cs : List Char, (∀ c ∈ cs, c ∉ wildcards) → parse cs = cs.map .exact := by
    intro cs hcs
    induction cs with
    | nil => rfl
    | cons c cs ih =>
      obtain ⟨hc, hcs⟩ := List.forall_mem_cons.mp hcs
      rw [parse_cons, List.map_cons, ← ih hcs]
      split <;> simp_all [wildcards]
  have htakes : ∀ cs text : List Char, Takes (cs.map .exact) text ↔ text = cs := by
    intro cs
    induction cs with
    | nil => exact fun text => takes_nil_iff
    | cons c cs ih =>
      intro text
      rw [List.map_cons, takes_exact_cons_iff]
      simp [ih]
  rw [isMatch, accepts_iff_takes, hparse _ h, htakes, String.toList_inj]

end Text.Glob

/-! ### Segments -/

namespace Text.Glob

open ProjectSurvey.Path

/-- Whether names fall into groups, one for each of some patterns, so that each pattern accepts the
path that its group makes. -/
def FitsInGroups (patterns names : List String) : Prop :=
  ∃ groups : List (List String), groups.flatten = names ∧
    List.Forall₂ (fun pattern group => group ≠ [] ∧ isMatch pattern (ofSegments group) = true)
      patterns groups

/-- A slash of the pattern stands for a slash of the path. -/
theorem isMatch_append_slash {front back : String}
    (h : SetsInSegments (front ++ "/" ++ back).toList) (path : String) :
    isMatch (front ++ "/" ++ back) path = true ↔
      ∃ first rest, path = first ++ "/" ++ rest ∧ isMatch front first = true ∧
        isMatch back rest = true := by
  have htext : ∀ first rest : String,
      (first ++ "/" ++ rest).toList = first.toList ++ '/' :: rest.toList := by simp
  rw [htext] at h
  simp only [isMatch, accepts_iff_takes, htext, parse_append_slash h, takes_append_iff,
    takes_exact_cons_iff]
  constructor
  · rintro ⟨first, -, hpath, hfirst, rest, rfl, hrest⟩
    refine ⟨String.ofList first, String.ofList rest,
      ?_, by simpa using hfirst, by simpa using hrest⟩
    rw [← String.toList_inj, htext, hpath]
    simp
  · rintro ⟨first, rest, rfl, hfirst, hrest⟩
    exact ⟨first.toList, _, htext first rest, hfirst, rest.toList, rfl, hrest⟩

/-- For one pattern there is one group, the whole path. -/
theorem fitsInGroups_singleton_iff {pattern path : String} :
    FitsInGroups [pattern] (segments path) ↔ isMatch pattern path = true := by
  constructor
  · rintro ⟨groups, hgroups, hall⟩
    cases hall with
    | cons hgroup hrest =>
      cases hrest
      rw [List.flatten_singleton] at hgroups
      rw [← ofSegments_segments path, ← hgroups]
      exact hgroup.2
  · intro hmatch
    refine ⟨[segments path], by simp, .cons ⟨segments_ne_nil path, ?_⟩ .nil⟩
    rw [ofSegments_segments]
    exact hmatch

/-- The first group and the others are divided by a slash. -/
theorem fitsInGroups_cons_iff {pattern : String} {patterns : List String} (hne : patterns ≠ [])
    {path : String} :
    FitsInGroups (pattern :: patterns) (segments path) ↔
      ∃ first rest, path = first ++ "/" ++ rest ∧ isMatch pattern first = true ∧
        FitsInGroups patterns (segments rest) := by
  constructor
  · rintro ⟨groups, hgroups, hall⟩
    cases hall with
    | @cons _ group _ groups hgroup hall =>
      obtain ⟨hfirst, hmatch⟩ := hgroup
      rw [List.flatten_cons] at hgroups
      -- there are further groups, and none of them is empty
      have hrest : groups.flatten ≠ [] := by
        intro hnone
        cases hall with
        | nil => exact hne rfl
        | cons hnext _ => exact hnext.1 (List.flatten_eq_nil_iff.mp hnone _ List.mem_cons_self)
      have hslashes : ∀ n ∈ groups.flatten, '/' ∉ n.toList := by
        intro n hn
        exact noSlash_of_mem_segments (hgroups ▸ List.mem_append_right group hn)
      refine ⟨ofSegments group, ofSegments groups.flatten, ?_, hmatch, ?_⟩
      · rw [← ofSegments_append hfirst hrest, hgroups, ofSegments_segments]
      · rw [segments_ofSegments_of_noSlash hrest hslashes]
        exact ⟨groups, rfl, hall⟩
  · rintro ⟨first, rest, rfl, hmatch, groups, hgroups, hall⟩
    refine ⟨segments first :: groups, ?_, .cons ⟨segments_ne_nil first, ?_⟩ hall⟩
    · rw [List.flatten_cons, hgroups, segments_append_slash]
    · rw [ofSegments_segments]
      exact hmatch

/-- **A pattern accepts a path exactly if the segments of the path fall into groups, one for each
segment of the pattern and accepted by it.** -/
theorem isMatch_iff_fitsInGroups {pattern : String} (h : SetsInSegments pattern.toList)
    (path : String) :
    isMatch pattern path = true ↔ FitsInGroups (segments pattern) (segments path) := by
  induction hlength : pattern.length using Nat.strong_induction_on generalizing pattern path with
  | _ n ih =>
    by_cases hslash : '/' ∈ pattern.toList
    · obtain ⟨front, back, htext, hfront⟩ := List.eq_append_cons_of_mem hslash
      obtain rfl : pattern = String.ofList front ++ "/" ++ String.ofList back := by
        rw [← String.toList_inj, htext]
        simp
      have hback : SetsInSegments (String.ofList back).toList := by
        refine SetsInSegments.of_append (front ++ ['/']) ?_
        simpa using h
      have hfirst : segments (String.ofList front) = [String.ofList front] := by
        rw [segments, String.toList_ofList, Text.pieces_of_not_mem hfront, List.map_singleton]
      have hshorter : (String.ofList back).length < n := by
        rw [← hlength, String.length_append, String.length_append, show "/".length = 1 from rfl]
        omega
      rw [isMatch_append_slash h, segments_append_slash, hfirst, List.singleton_append,
        fitsInGroups_cons_iff (segments_ne_nil _)]
      simp only [fun rest => ih _ hshorter hback rest rfl]
    · have hone : segments pattern = [pattern] := by
        rw [segments, Text.pieces_of_not_mem hslash, List.map_singleton, String.ofList_toList]
      rw [hone, fitsInGroups_singleton_iff]

variable {patterns names : List String}

/-- What fits in groups has no fewer names than there are patterns. -/
theorem FitsInGroups.length_le (h : FitsInGroups patterns names) :
    patterns.length ≤ names.length := by
  obtain ⟨groups, rfl, hall⟩ := h
  induction hall with
  | nil => exact Nat.le_refl 0
  | cons hgroup _ ih =>
    rw [List.length_cons, List.flatten_cons, List.length_append]
    have hpos := List.length_pos_iff.mpr hgroup.1
    omega

/-- Where there are as many names as patterns, every group is a single name. -/
theorem fitsInGroups_iff_of_length_eq (h : names.length = patterns.length) :
    FitsInGroups patterns names ↔
      List.Forall₂ (fun pattern name => isMatch pattern name = true) patterns names := by
  constructor
  · rintro ⟨groups, rfl, hall⟩
    induction hall with
    | nil => exact .nil
    | @cons pattern group patterns groups hgroup hrest ih =>
      have hle := FitsInGroups.length_le ⟨groups, rfl, hrest⟩
      have hpos := List.length_pos_iff.mpr hgroup.1
      rw [List.flatten_cons, List.length_append, List.length_cons] at h
      obtain ⟨name, rfl⟩ := List.length_eq_one_iff.mp (show group.length = 1 by omega)
      rw [List.length_singleton] at h
      rw [List.flatten_cons, List.singleton_append]
      refine .cons ?_ (ih (by omega))
      rw [← ofSegments_singleton name]
      exact hgroup.2
  · intro hall
    refine ⟨names.map fun n => [n], by rw [← List.flatMap_def, List.flatMap_singleton'], ?_⟩
    rw [List.forall₂_map_right_iff]
    refine hall.imp ?_
    intro pattern name hmatch
    rw [ofSegments_singleton]
    exact ⟨List.cons_ne_nil _ _, hmatch⟩

/-- Patterns without wildcards and slashes fit themselves only. -/
theorem fitsInGroups_iff_eq (hplain : ∀ p ∈ patterns, ∀ c ∈ p.toList, c ∉ wildcards)
    (hslash : ∀ p ∈ patterns, '/' ∉ p.toList) (hnames : ∀ n ∈ names, '/' ∉ n.toList) :
    FitsInGroups patterns names ↔ names = patterns := by
  constructor
  · rintro ⟨groups, rfl, hall⟩
    induction hall with
    | nil => rfl
    | @cons pattern group patterns groups hgroup hrest ih =>
      obtain ⟨hne, hmatch⟩ := hgroup
      obtain ⟨hpattern, hpatterns⟩ := List.forall_mem_cons.mp hplain
      obtain ⟨hslash, hslashes⟩ := List.forall_mem_cons.mp hslash
      rw [List.flatten_cons, List.forall_mem_append] at hnames
      have hgroup := (isMatch_iff_eq hpattern _).mp hmatch
      have hsegments := segments_ofSegments_of_noSlash hne hnames.1
      rw [hgroup, segments, Text.pieces_of_not_mem hslash, List.map_singleton,
        String.ofList_toList] at hsegments
      rw [List.flatten_cons, ← hsegments, ih hpatterns hslashes hnames.2, List.singleton_append]
  · rintro rfl
    rw [fitsInGroups_iff_of_length_eq rfl, List.forall₂_same]
    exact fun n hn => (isMatch_iff_eq (hplain n hn) n).mpr rfl

end Text.Glob

end ProjectSurvey
