import ProjectSurvey.Proofs.Pattern.LeadingFeed
import ProjectSurvey.Rule.Builtin

/-!
# Checks of a text below a line feed

Every check but the one on size looks at a text through patterns, and their matches are the same
once a line feed is put in front of the text, one line further down
(`ProjectSurvey.Proofs.Pattern.LeadingFeed`). **So these checks see the same below a line feed, on
the next line** (`Rule.check_feed`). All patterns but one begin with a character of their own; the
declaration of a function may begin with the blanks of its line, and there only the number of
matches counts.
-/

namespace ProjectSurvey

/-- A sighting one line further down. -/
def Sighting.belowFeed (s : Sighting) : Sighting := { s with line := s.line.map (· + 1) }

/-- An outcome of which what was seen is one line further down. -/
def Outcome.belowFeed : Outcome → Outcome
  | clear => clear
  | seen s => seen s.belowFeed
  | failed => failed

namespace Checks

open Pattern

/-- Whether a check sees the same below a line feed, on the next line. -/
def MovesWithFeed (check : List Char → Outcome) : Prop :=
  ∀ text, check ('\n' :: text) = (check text).belowFeed

/-! ### Checks that go by a match -/

/-- A finding placed by a match moves with the match. -/
theorem located_belowFeed (m : Match) (text : List Char) (detail : Option String) :
    located m.belowFeed ('\n' :: text) detail = (located m text detail).belowFeed := by
  simp [located, Outcome.belowFeed, Sighting.belowFeed]

/-- The text of a match is trimmed alike below a line feed. -/
theorem trimmedText_belowFeed (drop : String) (m : Match) :
    trimmedText drop m.belowFeed = trimmedText drop m := by
  rw [trimmedText, trimmedText, Match.text_belowFeed]

/-- A check for a sign without its remedy moves when both patterns skip a line feed. -/
theorem seenWithout_moves {sign remedy : Pattern} {detail : Match → Option String}
    (hsign : sign.skipsFeed = true) (hremedy : remedy.skipsFeed = true)
    (hdetail : ∀ m, detail m.belowFeed = detail m) :
    MovesWithFeed (seenWithout sign remedy detail) := by
  intro text
  unfold seenWithout
  rw [find?_feed text hsign, occurs_feed text hremedy]
  cases sign.find? text with
  | none => rfl
  | some m =>
    dsimp only [Option.map_some]
    split
    · rfl
    · rw [hdetail]
      exact located_belowFeed m text (detail m)

/-- The check for secrets moves with a line feed in front. -/
theorem hardcodedSecret_moves : MovesWithFeed hardcodedSecret := by
  intro text
  have hassignment : secretAssignment.skipsFeed = true := by decide
  have hkey : accessKeyId.skipsFeed = true := by decide
  unfold hardcodedSecret
  rw [findAll_feed text hassignment, find?_feed text hkey, List.find?_map]
  simp only [Function.comp_def, Match.groupText_belowFeed]
  cases (secretAssignment.findAll text).find? _ with
  | some m => exact located_belowFeed m text none
  | none =>
    cases accessKeyId.find? text with
    | none => rfl
    | some m => exact located_belowFeed m text _

/-- The check for evaluated code does. -/
theorem codeInjection_moves : MovesWithFeed codeInjection := by
  intro text
  have hsign : dynamicExecution.skipsFeed = true := by decide
  unfold codeInjection
  rw [find?_feed text hsign]
  cases dynamicExecution.find? text with
  | none => rfl
  | some m =>
    dsimp only [Option.map_some]
    rw [Match.text_belowFeed]
    exact located_belowFeed m text _

/-- The check for blocking calls does. -/
theorem syncIo_moves : MovesWithFeed syncIo := by
  intro text
  have hcall : blockingCall.skipsFeed = true := by decide
  have hpath : hotPath.skipsFeed = true := by decide
  unfold syncIo
  rw [find?_feed text hcall, occurs_feed text hpath]
  cases blockingCall.find? text with
  | none => rfl
  | some m =>
    dsimp only [Option.map_some]
    split
    · rw [trimmedText_belowFeed]
      exact located_belowFeed m text _
    · rfl

/-! ### The check that counts -/

/-- A line feed in front of a text declares no function and hides none: what begins with the blanks
of its line goes on with other keywords than what does not. -/
theorem count_functionDeclaration (text : List Char) :
    functionDeclaration.count ('\n' :: text) = functionDeclaration.count text := by
  unfold functionDeclaration
  refine count_feed_of_indented text
    (r := opt (lit "async" ++ gap) ++ (lit "def" ++ (gap ++ stretch CharSet.word)))
    (fun _ _ => rfl) (by decide) (by decide) (by decide) (by decide) ?_
  intro x
  by_cases hx : x = 'f' ∨ x = 'c' ∨ x = 'l' ∨ x = 'v'
  · right
    rcases hx with rfl | rfl | rfl | rfl <;> decide
  · left
    simp only [not_or] at hx
    obtain ⟨hf, hc, hl, hv⟩ := hx
    have hfunction : (lit "function").opening x = .refuses := opening_lit rfl hf
    have hconst : (lit "const").opening x = .refuses := opening_lit rfl hc
    have hlet : (lit "let").opening x = .refuses := opening_lit rfl hl
    have hvar : (lit "var").opening x = .refuses := opening_lit rfl hv
    simp only [opening_append, opening_or, oneOf, firstOf, List.map, opening, hfunction, hconst,
      hlet, hvar]
    rfl

/-- The check for branching does. -/
theorem functionComplexity_moves : MovesWithFeed functionComplexity := by
  intro text
  have hbranch : branch.skipsFeed = true := by decide
  unfold functionComplexity
  rw [count_functionDeclaration, count_feed text hbranch]
  dsimp only
  split
  · rfl
  · rfl

end Checks

namespace Rule

open Checks

/-- **The checks of the built-in rules on content see the same below a line feed, on the next
line**, but for the check on size. -/
theorem check_feed {oversizedLines : Int} {info : RuleInfo} {languages : List String}
    {skipsTests : Bool} {check : List Char → Outcome}
    (h : content info languages skipsTests check ∈ builtin oversizedLines)
    (hid : info.id ≠ "oversized-file") (text : List Char) :
    check ('\n' :: text) = (check text).belowFeed := by
  suffices hall : ∀ r ∈ builtin oversizedLines, ∀ i l t c, r = content i l t c →
      i.id ≠ "oversized-file" → MovesWithFeed c from hall _ h _ _ _ _ rfl hid text
  have hcontent : ∀ {j l' t' c'}, MovesWithFeed c' → ∀ i l t c,
      content j l' t' c' = content i l t c → i.id ≠ "oversized-file" → MovesWithFeed c := by
    rintro j l' t' c' hmoves i l t c ⟨⟩ -
    exact hmoves
  simp only [builtin, List.forall_mem_cons]
  refine ⟨nofun, nofun, nofun, nofun, nofun, nofun, nofun, nofun, ?_, hcontent ?_, hcontent ?_,
    hcontent ?_, hcontent ?_, hcontent ?_, hcontent ?_, hcontent ?_, hcontent ?_, by simp⟩
  · rintro i l t c ⟨⟩ hid
    exact absurd rfl hid
  · exact seenWithout_moves (by decide) (by decide) (trimmedText_belowFeed _)
  · exact seenWithout_moves (by decide) (by decide) fun _ => rfl
  · exact seenWithout_moves (by decide) (by decide) fun _ => rfl
  · exact hardcodedSecret_moves
  · exact codeInjection_moves
  · exact syncIo_moves
  · exact seenWithout_moves (by decide) (by decide) fun _ => rfl
  · exact functionComplexity_moves

/-- A text whose only function is set off from the start of the text and branches eleven times, and
that blocks on the second line. -/
def indentedText : List Char :=
  "  async def f():\n  fs.readFileSync (if if if if if if if if if if if".toList

/-- What is seen in it, by the count of branches and by a match, and below a line feed. -/
theorem check_feed_indentedText :
    (∃ i l t, content i l t functionComplexity ∈ builtin 500 ∧ i.id ≠ "oversized-file") ∧
      functionComplexity indentedText =
        .seen ⟨some "average 11.0 branches per function", none, none⟩ ∧
      functionComplexity ('\n' :: indentedText) =
        .seen ⟨some "average 11.0 branches per function", none, none⟩ ∧
      (∃ i l t, content i l t syncIo ∈ builtin 500 ∧ i.id ≠ "oversized-file") ∧
      syncIo indentedText = .seen ⟨some "fs.readFileSync", none, some 2⟩ ∧
      syncIo ('\n' :: indentedText) = .seen ⟨some "fs.readFileSync", none, some 3⟩ := by
  have hbranches : functionComplexity indentedText =
      .seen ⟨some "average 11.0 branches per function", none, none⟩ := by decide
  have hblocks : syncIo indentedText = .seen ⟨some "fs.readFileSync", none, some 2⟩ := by
    rfl
  have hcounting : (builtin 500)[16] ∈ builtin 500 := List.getElem_mem (by decide)
  have hblocking : (builtin 500)[14] ∈ builtin 500 := List.getElem_mem (by decide)
  refine ⟨⟨_, _, _, hcounting, by decide⟩, hbranches, ?_, ⟨_, _, _, hblocking, by decide⟩, hblocks,
    ?_⟩
  · rw [check_feed hcounting (by decide) indentedText, hbranches]
    rfl
  · rw [check_feed hblocking (by decide) indentedText, hblocks]
    rfl

end Rule

end ProjectSurvey
