import ProjectSurvey.Manifest.Lines
import ProjectSurvey.Proofs.Pattern.Matching

/-!
# Lines of a Gemfile

The lines of which a Gemfile is made and what the reader takes from each: a line that declares a gem
(`GemLine`), one that opens a block (`GemOpening`), one that closes it (`GemClosing`), and one that
says nothing (`GemNote`). Each is a structure that carries how it is written, so that there is one
lemma for each on what the step of the reader does: a gem goes where the flag says, with its first
version (`gemStep_of_gem`, `gemLine_text`), and **the flag is set by an opening that mentions
development or tests and cleared by every closing** (`gemStep_of_opening`, `gemStep_of_closing`).
-/

namespace ProjectSurvey.Manifest

open Pattern Text

/-! ### Texts in quotes -/

/-- The quotes of a Gemfile. -/
def quoteSet : CharSet := CharSet.anyOf "'\""

/-- What is no quote is none of the two. -/
theorem noneOf_quotes (c : Char) : CharSet.noneOf "'\"" c = !quoteSet c := rfl

/-- A quote is no blank. -/
theorem isBlank_of_quoteSet {c : Char} (h : quoteSet c = true) : isBlank c = false := by
  have hc : c = '\'' ∨ c = '"' := by simpa [quoteSet, CharSet.anyOf, CharSet.among] using h
  rcases hc with rfl | rfl <;> rfl

/-- A text in quotes. -/
structure Quoted where
  /-- The quote on both sides. -/
  quote : Char
  /-- What stands between. -/
  text : String
  isQuote : quoteSet quote = true
  ne_nil : text.toList ≠ []
  plain : ∀ c ∈ text.toList, quoteSet c = false

/-- A text in quotes as it is written. -/
def Quoted.chars (q : Quoted) : List Char := q.quote :: (q.text.toList ++ [q.quote])

section Matching

variable {k : Next} {c : Cursor} {marks : Marks} {r : MatchState} {n : Nat}

/-- A text in quotes is passed and remembered. -/
theorem run_gemText (q : Quoted) {back : List Char} (hrest : c.rest = q.chars ++ back)
    (h : k ⟨c.behind q.chars back,
      (n, q.text.toList ++ q.quote :: back, q.text.toList.length) :: marks⟩ = some r) :
    (gemText n).run k ⟨c, marks⟩ = some r := by
  have hopen : c.rest = q.quote :: (q.text.toList ++ q.quote :: back) := by
    simpa [Quoted.chars] using hrest
  have hstop : ∀ x ∈ (q.quote :: back).head?, CharSet.noneOf "'\"" x = false := by
    rintro x ⟨⟩
    rw [noneOf_quotes, q.isQuote]
    rfl
  have hplain : ∀ x ∈ q.text.toList, CharSet.noneOf "'\"" x = true := by
    intro x hx
    rw [noneOf_quotes, q.plain x hx]
    rfl
  have hplace : ((c.behind [q.quote] (q.text.toList ++ q.quote :: back)).behind q.text.toList
      (q.quote :: back)).behind [q.quote] back = c.behind q.chars back := by
    rw [Cursor.behind_behind, Cursor.behind_behind]
    rfl
  have hlength : ∀ (d : Cursor) (front back : List Char),
      (d.behind front back).offset - d.offset = front.length :=
    fun d front _ => Nat.add_sub_cancel_left d.offset front.length
  show (char quoteSet).run ((group n (plus (CharSet.noneOf "'\""))).run
    ((char quoteSet).run k)) ⟨c, marks⟩ = some r
  rw [run_char hopen q.isQuote, run_group_eq]
  refine run_plus_of_some q.ne_nil rfl hplain hstop ?_
  rw [run_char rfl q.isQuote]
  dsimp only
  rw [hplace, hlength]
  exact h

end Matching

/-! ### Lines that declare gems -/

/-- A version behind the name of a gem: a comma with blanks around it, and a text in quotes. -/
structure GemVersion where
  front : List Char
  back : List Char
  quoted : Quoted
  isGap_front : IsGap front
  isGap_back : IsGap back

/-- A version as it is written. -/
def GemVersion.chars (v : GemVersion) : List Char :=
  v.front ++ (',' :: (v.back ++ v.quoted.chars))

/-- A line that declares a gem. -/
structure GemLine where
  /-- What stands in front of the keyword. -/
  indent : List Char
  /-- What stands behind it. -/
  gap : List Char
  name : Quoted
  /-- The text in quotes right behind the name. -/
  version : Option GemVersion
  /-- What stands behind that: options, a condition, a comment. -/
  tail : List Char
  isGap_indent : IsGap indent
  gap_ne_nil : gap ≠ []
  isGap_gap : IsGap gap
  /-- Without a version no quote comes behind a comma. -/
  bare : version = none → ∀ front back c rest, tail = front ++ (',' :: (back ++ c :: rest)) →
    IsGap front → IsGap back → quoteSet c = false

namespace GemLine

variable (g : GemLine)

/-- What is written behind the name. -/
def remainder : List Char := (g.version.elim [] GemVersion.chars) ++ g.tail

/-- A line as it is written. -/
def text : List Char :=
  g.indent ++ ("gem".toList ++ (g.gap ++ (g.name.chars ++ g.remainder)))

/-- The gem with its first version, or with any. -/
def pair : String × String :=
  (g.name.text, g.version.elim anyVersion fun v => v.quoted.text)

end GemLine

/-- The part of the pattern that is for a version. -/
def gemVersion : Pattern := blanks ++ lit "," ++ blanks ++ gemText 2

/-- What is not written like a version is not read as one. -/
theorem run_gemVersion_eq_none {k : Next} {st : MatchState}
    (h : ∀ front back c rest, st.place.rest = front ++ (',' :: (back ++ c :: rest)) →
      IsGap front → IsGap back → quoteSet c = false) :
    gemVersion.run k st = none := by
  rw [Option.eq_none_iff_forall_not_mem]
  intro r hr
  have hcomma : (lit ",").run ((blanks ++ gemText 2).run k) _ = some r := of_run_every hr
  obtain ⟨behind, hbehind, hr⟩ := of_run_lit hcomma
  obtain ⟨c, rest, hrest, hquote, -⟩ := of_run_char (of_run_every hr)
  rw [Cursor.rest_behind] at hbehind hrest
  have hfront : st.place.rest = st.place.rest.takeWhile isBlank ++ ',' :: behind :=
    List.takeWhile_append_dropWhile.symm.trans (congrArg (_ ++ ·) hbehind)
  have hback : behind = behind.takeWhile isBlank ++ c :: rest :=
    List.takeWhile_append_dropWhile.symm.trans (congrArg (_ ++ ·) hrest)
  rw [hback] at hfront
  have hno := h _ _ c rest hfront (fun _ => List.mem_takeWhile_imp) fun _ => List.mem_takeWhile_imp
  exact Bool.false_ne_true (hno.symm.trans hquote)

/-- The pattern of a version takes the version that is written, and marks it. -/
theorem run_gemVersion (v : GemVersion) {k : Next} {c : Cursor} {marks : Marks} {r : MatchState}
    {back : List Char} (hrest : c.rest = v.chars ++ back)
    (h : k ⟨c.behind v.chars back, (2, v.quoted.text.toList ++ v.quoted.quote :: back,
      v.quoted.text.toList.length) :: marks⟩ = some r) :
    gemVersion.run k ⟨c, marks⟩ = some r := by
  have hfront : c.rest = v.front ++ ',' :: (v.back ++ (v.quoted.chars ++ back)) := by
    simpa [GemVersion.chars] using hrest
  have hquote : ∀ x ∈ (v.quoted.chars ++ back).head?, isBlank x = false := by
    rintro x ⟨⟩
    exact isBlank_of_quoteSet v.quoted.isQuote
  show (every CharSet.blank).run
    ((lit ",").run ((every CharSet.blank).run ((gemText 2).run k))) ⟨c, marks⟩ = some r
  rw [run_every (s := CharSet.blank) hfront v.isGap_front (by rintro x ⟨⟩; rfl),
    run_lit "," rfl, run_every (s := CharSet.blank) rfl v.isGap_back hquote]
  refine run_gemText v.quoted rfl ?_
  rw [Cursor.behind_behind, Cursor.behind_behind, Cursor.behind_behind]
  simpa [GemVersion.chars] using h

/-- What stands behind the name of a gem is read as its version, if it has one. -/
theorem run_remainder (g : GemLine) {c : Cursor} (hrest : c.rest = g.remainder) (marks : Marks) :
    ∃ st, (opt gemVersion).run some ⟨c, marks⟩ = some st ∧
      (∀ n, n ≠ 2 → st.marks.text? n = marks.text? n) ∧
      st.marks.text? 2 = (g.version.map fun v => v.quoted.text.toList).or (marks.text? 2) := by
  show ∃ st, (gemVersion ||| empty).run some ⟨c, marks⟩ = some st ∧ _
  rw [run_either_eq]
  cases hversion : g.version with
  | none =>
    have htail : c.rest = g.tail := by simpa [GemLine.remainder, hversion] using hrest
    have hnone : gemVersion.run some ⟨c, marks⟩ = none :=
      run_gemVersion_eq_none fun front back x rest heq => g.bare hversion front back x rest
        (htail.symm.trans heq)
    rw [hnone]
    exact ⟨⟨c, marks⟩, rfl, fun _ _ => rfl, rfl⟩
  | some v =>
    have hchars : c.rest = v.chars ++ g.tail := by simpa [GemLine.remainder, hversion] using hrest
    rw [run_gemVersion v hchars rfl]
    refine ⟨_, rfl, fun n hn => ?_, ?_⟩
    · have hno : (n == 2) = false := beq_false_of_ne hn
      simp [Marks.text?, List.lookup_cons, hno]
    · simp [Marks.text?]

/-- **A line that declares a gem is read as that gem with its first version.** -/
theorem gemLine_text (g : GemLine) : ∃ m, gemLine.atStart? g.text = some m ∧
    (String.ofList (m.groupText 1), versionOr (m.groupText 2)) = g.pair := by
  have hquote : ∀ x ∈ (g.name.chars ++ g.remainder).head?, isBlank x = false := by
    rintro x ⟨⟩
    exact isBlank_of_quoteSet g.name.isQuote
  obtain ⟨c, hrest, hbegin⟩ : ∃ c : Cursor, c.rest = g.name.chars ++ g.remainder ∧
      gemLine.run some ⟨Cursor.start g.text, []⟩ =
        (gemText 1).run ((opt gemVersion).run some) ⟨c, []⟩ := by
    show ∃ c : Cursor, _ ∧ (every CharSet.blank).run ((lit "gem").run ((stretch CharSet.blank).run
      ((gemText 1).run ((opt gemVersion).run some)))) ⟨Cursor.start g.text, []⟩ = _
    rw [run_every (s := CharSet.blank) rfl g.isGap_indent (by rintro x ⟨⟩; rfl),
      run_lit "gem" rfl, run_stretch (s := CharSet.blank) g.gap_ne_nil rfl g.isGap_gap hquote]
    exact ⟨_, rfl, rfl⟩
  obtain ⟨st, hst, hname, hversion⟩ := run_remainder g (c := c.behind g.name.chars g.remainder) rfl
    [(1, g.name.text.toList ++ g.name.quote :: g.remainder, g.name.text.toList.length)]
  have hread : st.marks.text? 1 = some g.name.text.toList :=
    (hname 1 (by decide)).trans (congrArg some List.take_left)
  rw [show Marks.text? [(1, _, _)] 2 = none from rfl, Option.or_none] at hversion
  refine ⟨⟨Cursor.start g.text, st.place, st.marks⟩, ?_, ?_⟩
  · unfold atStart? matchAt?
    rw [hbegin, run_gemText g.name hrest hst]
    rfl
  · unfold Match.groupText Match.group? GemLine.pair
    rw [hread, hversion]
    cases g.version with
    | none => simp [versionOr]
    | some v => simp [versionOr, String.toList_eq_nil_iff.not.mp v.quoted.ne_nil]

/-- A line that begins with another word declares no gem. -/
theorem gemLine_eq_none {line : List Char}
    (h : after? "gem".toList (line.dropWhile isBlank) = none) : gemLine.atStart? line = none := by
  have hlit : ¬ "gem".toList <+: ((Cursor.start line).behind (line.takeWhile isBlank)
      (line.dropWhile isBlank)).rest := by
    rintro ⟨rest, hrest⟩
    cases h.symm.trans (after?_eq_some_iff.mpr hrest.symm)
  unfold atStart? matchAt?
  rw [Option.map_eq_none_iff]
  exact (run_every_eq ..).trans (run_lit_eq_none hlit)

/-! ### Lines around them -/

/-- A line on which nothing is said: it is blank, or a comment. -/
structure GemNote where
  indent : List Char
  /-- Nothing, or the comment with its sign. -/
  remark : List Char
  isGap_indent : IsGap indent
  isRemark : ∀ c ∈ remark.head?, c = '#'

/-- A line that opens a block. -/
structure GemOpening where
  indent : List Char
  /-- What kind of block it is. -/
  keyword : String
  /-- What stands between that and the last word. -/
  arguments : List Char
  trail : List Char
  isGap_indent : IsGap indent
  keyword_mem : keyword ∈ ["group", "platforms", "source"]
  isEdge_head : ∃ c ∈ arguments.head?, isWord c = false
  isEdge_last : ∃ c ∈ arguments.getLast?, isWord c = false
  isGap_trail : IsGap trail

/-- A line that closes a block. -/
structure GemClosing where
  indent : List Char
  trail : List Char
  isGap_indent : IsGap indent
  isGap_trail : IsGap trail

/-- A note as it is written. -/
def GemNote.text (n : GemNote) : List Char := n.indent ++ n.remark

/-- A closing as it is written. -/
def GemClosing.text (e : GemClosing) : List Char := e.indent ++ ("end".toList ++ e.trail)

namespace GemOpening

variable (o : GemOpening)

/-- What an opening says. -/
def core : List Char := o.keyword.toList ++ (o.arguments ++ "do".toList)

/-- An opening as it is written. -/
def text : List Char := o.indent ++ (o.core ++ o.trail)

/-- Whether an opening is one of a group and mentions development or tests, be it as part of another
name. -/
def mentions : Bool :=
  o.keyword == "group" && (occursIn "development" o.core || occursIn "test" o.core)

end GemOpening

/-! ### What the reader does -/

/-- The manifest with one more gem. -/
def withGem (forDevelopment : Bool) (gem : String × String) (m : Manifest) : Manifest :=
  if forDevelopment then { m with development := Assoc.insert gem.1 gem.2 m.development }
  else { m with production := Assoc.insert gem.1 gem.2 m.production }

section Steps

variable {inGroup : Bool} {m : Manifest}

/-- A line that neither opens nor closes a block and declares no gem changes nothing. -/
theorem gemStep_of_silent {line : List Char} (hopen : opensGemGroup (strip line) = false)
    (hend : (strip line == "end".toList) = false)
    (hgem : after? "gem".toList (line.dropWhile isBlank) = none) :
    gemStep (inGroup, m) line = (inGroup, m) := by
  simp only [gemStep, hopen, hend, gemLine_eq_none hgem]
  rfl

/-- A blank line or a remark changes nothing. -/
theorem gemStep_of_note (n : GemNote) : gemStep (inGroup, m) n.text = (inGroup, m) := by
  obtain ⟨indent, remark, hindent, hremark⟩ := n
  have hdrop : (indent ++ remark).dropWhile isBlank = remark.dropWhile isBlank :=
    List.dropWhile_append_of_pos hindent
  show gemStep (inGroup, m) (indent ++ remark) = (inGroup, m)
  cases remark with
  | nil =>
    have hstrip : strip (indent ++ []) = [] := by
      rw [List.append_nil, strip, trim, trimLeft_of_all hindent]
      rfl
    exact gemStep_of_silent (by rw [hstrip]; rfl) (by rw [hstrip]; rfl) (by rw [hdrop]; rfl)
  | cons c remark =>
    obtain rfl : c = '#' := hremark c rfl
    obtain ⟨more, hstrip⟩ : ∃ more, strip (indent ++ (['#'] ++ remark)) = ['#'] ++ more :=
      exists_trim_append hindent (List.cons_ne_nil _ _) (forall_mem_of_all (by decide)) remark
    rw [List.singleton_append] at hstrip
    exact gemStep_of_silent (by rw [hstrip]; rfl) (by rw [hstrip]; rfl) (by rw [hdrop]; rfl)

/-- A line with a gem adds it where the flag says. -/
theorem gemStep_of_gem (g : GemLine) :
    gemStep (inGroup, m) g.text = (inGroup, withGem inGroup g.pair m) := by
  obtain ⟨found, hfound, hpair⟩ := gemLine_text g
  obtain ⟨hname, hversion⟩ := Prod.ext_iff.mp hpair
  obtain ⟨more, hmore⟩ : ∃ more, strip g.text = "gem".toList ++ more :=
    exists_trim_append g.isGap_indent (by decide) (forall_mem_of_all (by decide)) _
  have hopen : opensGemGroup (strip g.text) = false := by
    rw [hmore]
    rfl
  have hend : (strip g.text == "end".toList) = false := by
    rw [hmore]
    rfl
  unfold gemStep
  simp only [hopen, hend, hfound, withGem, ← hname, ← hversion]
  cases inGroup <;> rfl

/-- An end lowers the flag. -/
theorem gemStep_of_closing (e : GemClosing) : gemStep (inGroup, m) e.text = (false, m) := by
  have hstrip : strip e.text = "end".toList :=
    trim_eq_of_edges e.isGap_indent (forall_mem_of_all (by decide)) e.isGap_trail
  simp only [gemStep, hstrip]
  rfl

namespace GemOpening

variable (o : GemOpening)

/-- What is the case for each of the keywords is the case for an opening. -/
theorem core_cases {p : List Char → Prop}
    (h : ∀ keyword ∈ ["group", "platforms", "source"], ∀ rest, p (keyword.toList ++ rest)) :
    p o.core :=
  h o.keyword o.keyword_mem _

/-- Stripped of its blanks an opening is its core. -/
theorem strip_text : strip o.text = o.core := by
  refine (trim_append o.core o.isGap_indent o.isGap_trail).trans (trim_eq_self ?_ ?_)
  · refine o.core_cases (p := fun cs => ∀ c ∈ cs.head?, isBlank c = false) ?_
    simp [isBlank]
  · intro c hc
    unfold core at hc
    rw [← List.append_assoc, List.getLast?_append_of_ne_nil _ (by decide)] at hc
    cases hc
    rfl

/-- An opening raises the flag when it is a group that mentions development or tests. -/
theorem opensGemGroup_core : opensGemGroup o.core = o.mentions := by
  have hkeyword : (after? "group".toList o.core).isSome = (o.keyword == "group") := by
    have hmem := o.keyword_mem
    unfold core
    generalize o.keyword = keyword at hmem
    simp only [List.mem_cons, List.not_mem_nil, or_false] at hmem
    rcases hmem with rfl | rfl | rfl <;> rfl
  rw [opensGemGroup, mentions, hkeyword]

end GemOpening

/-- An opening sets the flag if it mentions development or tests, and otherwise leaves it. -/
theorem gemStep_of_opening (o : GemOpening) :
    gemStep (inGroup, m) o.text = (o.mentions || inGroup, m) := by
  have hdrop : o.text.dropWhile isBlank = (o.core ++ o.trail).dropWhile isBlank :=
    List.dropWhile_append_of_pos o.isGap_indent
  have hopens := o.opensGemGroup_core
  cases hmentions : o.mentions with
  | true =>
    simp only [gemStep, o.strip_text, hopens, hmentions]
    rfl
  | false =>
    rw [Bool.false_or]
    refine gemStep_of_silent (by rw [o.strip_text, hopens, hmentions]) ?_ ?_
    · rw [o.strip_text]
      refine o.core_cases (p := fun cs => (cs == "end".toList) = false) ?_
      simp
    · rw [hdrop]
      refine o.core_cases
        (p := fun cs => after? "gem".toList ((cs ++ o.trail).dropWhile isBlank) = none) ?_
      simp [isBlank, after?]

end Steps

end ProjectSurvey.Manifest
