import ProjectSurvey.Proofs.Pattern.Extent
import ProjectSurvey.Proofs.Text.Lines
import ProjectSurvey.Rule.Builtin
import ProjectSurvey.Rule.Engine

/-!
# Where the findings in a text point

A check that goes by a match tells the line on which the match starts (`PointsAt`), and the check on
size tells the last line. **A finding of the built-in rules that has a line points at a line of the
text** (`Engine.scanContent_pointsInto`): the patterns all ask for a character, so a match starts at
a character of the text, which stands on a line however line ends and line feeds are counted.
-/

namespace ProjectSurvey

namespace Checks

open Pattern

/-- Whether a match of an assignment gives a name a value that may be a secret. -/
def holdsSecret (m : Match) : Bool :=
  !(placeholders.contains (String.ofList (Text.lower (m.groupText 1))))

/-- The match that the check of a rule goes by where it tells a line, by the id of the rule. -/
def basis : String → List Char → Option Match
  | "input-validation", text => requestInput.find? text
  | "sql-injection", text => queryConcatenation.find? text
  | "xss-prevention", text => markupOutput.find? text
  | "hardcoded-secret", text =>
    ((secretAssignment.findAll text).find? holdsSecret).or (accessKeyId.find? text)
  | "code-injection", text => dynamicExecution.find? text
  | "sync-io", text => blockingCall.find? text
  | "error-handling", text => asyncKeyword.find? text
  | _, _ => none

/-- Whether the line that a check tells is that of the match it goes by. -/
def PointsAt (check : List Char → Outcome) (basis : List Char → Option Match) : Prop :=
  ∀ text s n, check text = .seen s → s.line = some n → ∃ m, basis text = some m ∧ n = m.line text

/-- A finding placed by a match is on its line. -/
theorem of_located {m : Match} {text : List Char} {detail : Option String} {s : Sighting} {n : Nat}
    (h : located m text detail = .seen s) (hn : s.line = some n) : n = m.line text := by
  cases h
  exact (Option.some.inj hn).symm

/-- A check for a sign without its remedy points at the sign. -/
theorem pointsAt_seenWithout (sign remedy : Pattern) (detail : Match → Option String) :
    PointsAt (seenWithout sign remedy detail) sign.find? := by
  intro text s n h hn
  unfold seenWithout at h
  split at h
  · cases h
  · next m hm =>
    split at h
    · cases h
    · exact ⟨m, hm, of_located h hn⟩

/-- The check for secrets points at the secret. -/
theorem pointsAt_hardcodedSecret : PointsAt hardcodedSecret (basis "hardcoded-secret") := by
  intro text s n h hn
  unfold hardcodedSecret at h
  dsimp only at h
  split at h
  · next m hm =>
    have hreal : (secretAssignment.findAll text).find? holdsSecret = some m := hm
    exact ⟨m, by simp [basis, hreal], of_located h hn⟩
  · next hnone =>
    have hreal : (secretAssignment.findAll text).find? holdsSecret = none := hnone
    split at h
    · next m hm => exact ⟨m, by simp [basis, hreal, hm], of_located h hn⟩
    · cases h

/-- The check for evaluated code points at the evaluation. -/
theorem pointsAt_codeInjection : PointsAt codeInjection dynamicExecution.find? := by
  intro text s n h hn
  unfold codeInjection at h
  split at h
  · cases h
  · next m hm => exact ⟨m, hm, of_located h hn⟩

/-- The check for blocking calls points at the call. -/
theorem pointsAt_syncIo : PointsAt syncIo blockingCall.find? := by
  intro text s n h hn
  unfold syncIo at h
  split at h
  · cases h
  · next m hm =>
    split at h
    · exact ⟨m, hm, of_located h hn⟩
    · cases h

/-- The check on branches tells no line. -/
theorem pointsAt_functionComplexity : PointsAt functionComplexity fun _ => none := by
  intro text s n h hn
  unfold functionComplexity at h
  dsimp only at h
  split at h
  · cases h
  · cases h
    cases hn

/-- What checks go by is a part of the text, and not an empty one. -/
theorem liesIn_of_basis {id : String} {text : List Char} {m : Match} (h : basis id text = some m) :
    m.text ≠ [] ∧ ∃ front, m.LiesIn text front := by
  suffices hleast : 1 ≤ m.text.length ∧ ∃ front, m.LiesIn text front from
    ⟨List.ne_nil_of_length_pos hleast.1, hleast.2⟩
  -- the patterns all begin with a character or come to one
  have hfind : ∀ {p : Pattern}, 1 ≤ p.least → p.find? text = some m →
      1 ≤ m.text.length ∧ ∃ front, m.LiesIn text front :=
    fun hp hm => (liesIn_of_find? hm).imp_left hp.trans
  unfold basis at h
  split at h
  · exact hfind (by decide) h
  · exact hfind (by decide) h
  · exact hfind (by decide) h
  · rcases Option.or_eq_some_iff.mp h with h | ⟨-, h⟩
    · have hm := liesIn_of_mem_findAll (List.mem_of_find?_eq_some h)
      exact hm.imp_left (le_trans (by decide))
    · exact hfind (by decide) h
  · exact hfind (by decide) h
  · exact hfind (by decide) h
  · exact hfind (by decide) h
  · cases h

end Checks

namespace Rule

/-- What a content rule saw is the finding at the path of its file. -/
theorem findingIn?_of_seen {i : RuleInfo} {languages : List String} {skipsTests : Bool}
    {check : List Char → Outcome} {text : List Char} {s : Sighting} (h : check text = .seen s)
    {path : String} : (content i languages skipsTests check).findingIn? path text =
      some (i.finding { s with file := some path }) := by
  simp only [findingIn?, h]

/-- Whether a content rule is that on large files or tells lines by the match that its check goes
by. -/
def IsPointed (oversizedLines : Int) : Rule → Prop
  | content i _ _ check =>
    i.id = "oversized-file" ∧ check = Checks.oversizedFile oversizedLines ∨
      Checks.PointsAt check (Checks.basis i.id)
  | project .. => True

/-- Every built-in content rule points at what it found. -/
theorem isPointed_of_mem_builtin {oversizedLines : Int} {r : Rule}
    (h : r ∈ builtin oversizedLines) : r.IsPointed oversizedLines := by
  suffices hall : ∀ r ∈ builtin oversizedLines, r.IsPointed oversizedLines from hall r h
  simp only [builtin, List.forall_mem_cons]
  refine ⟨trivial, trivial, trivial, trivial, trivial, trivial, trivial, trivial, .inl ⟨rfl, rfl⟩,
    .inr ?_, .inr ?_, .inr ?_, .inr ?_, .inr ?_, .inr ?_, .inr ?_, .inr ?_, by simp⟩
  · exact Checks.pointsAt_seenWithout _ _ _
  · exact Checks.pointsAt_seenWithout _ _ _
  · exact Checks.pointsAt_seenWithout _ _ _
  · exact Checks.pointsAt_hardcodedSecret
  · exact Checks.pointsAt_codeInjection
  · exact Checks.pointsAt_syncIo
  · exact Checks.pointsAt_seenWithout _ _ _
  · exact Checks.pointsAt_functionComplexity

end Rule

/-- Whether a finding points at a line of a text: that on which the match starts that the check went
by, or, if it is about the size of the text, any of its lines. -/
def Finding.PointsInto (f : Finding) (text : List Char) : Prop :=
  ∃ n, f.line = .nat n ∧ 1 ≤ n ∧ n ≤ Text.lineCount text ∧
    (f.ruleId ≠ .text "oversized-file" →
      ∃ id m front, f.ruleId = .text id ∧ Checks.basis id text = some m ∧ m.text ≠ [] ∧
        m.LiesIn text front ∧ n = front.count '\n' + 1)

namespace Engine

open Rule

/-- A match that is not empty starts on a line of its text. -/
theorem pointsInto_of_basis {f : Finding} {id : String} {text : List Char} {m : Match}
    (hid : f.ruleId = .text id) (hline : f.line = .nat (m.line text))
    (hm : Checks.basis id text = some m) : f.PointsInto text := by
  obtain ⟨hne, front, hin⟩ := Checks.liesIn_of_basis hm
  have hn : m.line text = front.count '\n' + 1 := hin.line_eq
  refine ⟨m.line text, hline, ?_, ?_, fun _ => ⟨id, m, front, hid, hm, hne, hin, hn⟩⟩
  · omega
  · obtain ⟨back, hsplit⟩ := hin.split
    obtain ⟨c, rest, hc⟩ := List.exists_cons_of_ne_nil hne
    have hcount := Text.count_lt_lineCount front (rest ++ back) c
    rw [hc, List.cons_append] at hsplit
    rw [← hsplit] at hcount
    omega

/-- **A finding of the built-in rules that has a line points at a line of the text**, and but for
the size of the text at that on which the match starts. -/
theorem scanContent_pointsInto {oversizedLines : Int} (hlimit : 0 ≤ oversizedLines)
    {record : FileRecord} {text : List Char} {f : Finding}
    (hf : f ∈ scanContent (builtin oversizedLines) record text) (hline : f.line ≠ .null) :
    f.PointsInto text := by
  obtain ⟨r, hr, hfinding⟩ := List.mem_filterMap.mp hf
  have hpointed := isPointed_of_mem_builtin (List.mem_filter.mp hr).1
  cases r with
  | project i check => cases hfinding
  | content i languages skipsTests check =>
    rw [findingIn?] at hfinding
    split at hfinding
    · next s hs =>
      cases hfinding
      obtain ⟨n, hn⟩ : ∃ n, s.line = some n := by
        rw [← Option.ne_none_iff_exists']
        intro hnone
        exact hline (by simp [RuleInfo.finding, hnone, Datum.ofNat?])
      have hshown : (i.finding { s with file := some record.path }).line = .nat n := by
        simp [RuleInfo.finding, hn, Datum.ofNat?]
      rcases hpointed with ⟨hid, rfl⟩ | hpoints
      · -- the last line is one, because there are more lines than the limit
        unfold Checks.oversizedFile at hs
        dsimp only at hs
        split at hs
        · cases hs
        · next hmany =>
          cases hs
          cases hn
          exact ⟨_, hshown, by omega, Nat.le_refl _, fun hno => absurd (congrArg _ hid) hno⟩
      · obtain ⟨m, hm, rfl⟩ := hpoints text s n hs hn
        exact pointsInto_of_basis rfl hshown hm
    · cases hfinding

/-- A file with a text in which line feeds are not the only line ends. -/
def feedsRecord : FileRecord := ⟨"a.py", 16, ".py", ⟨"python", none, []⟩, .zero false, 0⟩

/-- Its text. -/
def feedsText : List Char := "x = 1\r\n\x0c\neval(x)".toList

/-- What is found in it: a call of `eval`. -/
def feedsFinding : Finding := (builtin 0)[13].info.finding ⟨some "eval(", some "a.py", some 3⟩

/-- It stands behind two line feeds and three line ends. -/
theorem scanContent_feedsText :
    (0 : Int) ≤ 0 ∧ feedsFinding ∈ scanContent (builtin 0) feedsRecord feedsText ∧
      feedsFinding.line ≠ .null ∧ feedsFinding.line = .nat 3 ∧ Text.lineCount feedsText = 4 ∧
      feedsFinding.PointsInto feedsText := by
  have hseen : Checks.codeInjection feedsText = .seen ⟨some "eval(", none, some 3⟩ := by
    decide
  have hfound : (builtin 0)[13].findingIn? "a.py" feedsText = some feedsFinding :=
    Rule.findingIn?_of_seen hseen
  have hmem : feedsFinding ∈ scanContent (builtin 0) feedsRecord feedsText :=
    List.mem_filterMap.mpr
      ⟨(builtin 0)[13], List.mem_filter.mpr ⟨List.getElem_mem (by decide), by decide⟩, hfound⟩
  have hline : feedsFinding.line ≠ .null := nofun
  exact ⟨Int.le_refl 0, hmem, hline, rfl, by decide,
    scanContent_pointsInto (Int.le_refl 0) hmem hline⟩

end Engine

end ProjectSurvey
