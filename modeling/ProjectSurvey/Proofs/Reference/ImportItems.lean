import ProjectSurvey.Proofs.Text.Parts
import ProjectSurvey.Reference.Extraction

/-!
# The names of an import list

A list of imported names is taken apart at its commas, and of each field counts what stands before
the first ` as `, without the blanks around it. **A field is read as its name exactly if no comment
stands between the name and what ends it, and an alias follows in the one spelling that is looked
for** (`ImportItem.beforeAlias_eq`, `ImportItem.exists_mem_beforeAlias`): the comma or the end of
the list, or a blank, `as` and a blank. Of any other field something is left that is no name.
-/

namespace ProjectSurvey.Reference

open Text

/-! ### Fields -/

/-- Whether a text is made of some characters only. -/
def ConsistsOf (set : String) (cs : List Char) : Prop := ∀ c ∈ cs, c ∈ set.toList

instance (set : String) (cs : List Char) : Decidable (ConsistsOf set cs) :=
  List.decidableBAll (· ∈ set.toList) cs

/-- What may stand between the words of a list in parentheses: blanks, line ends, and comments up to
the end of their lines, without parentheses. -/
inductive IsFiller : List Char → Prop where
  /-- Nothing. -/
  | nil : IsFiller []
  /-- A blank or the end of a line. -/
  | blank {c : Char} {cs : List Char} (hc : c ∈ " \t\x0c\r\n".toList) (h : IsFiller cs) :
      IsFiller (c :: cs)
  /-- A comment. -/
  | comment {body cs : List Char} (hbody : ∀ c ∈ body, c ∉ "\n()".toList) (h : IsFiller cs) :
      IsFiller ('#' :: (body ++ '\n' :: cs))

/-- Whether a text is a name and no keyword of an import. -/
structure IsImportName (n : String) : Prop where
  /-- There is one. -/
  ne_empty : n ≠ ""
  /-- It is made of word characters. -/
  word : ∀ c ∈ n.toList, isWord c = true
  /-- It is not one of the three keywords. -/
  plain : n ≠ "from" ∧ n ≠ "import" ∧ n ≠ "as"

instance (n : String) : Decidable (IsImportName n) :=
  decidable_of_iff (n ≠ "" ∧ n.toList.all isWord = true ∧ n ≠ "from" ∧ n ≠ "import" ∧ n ≠ "as")
    ⟨fun h => ⟨h.1, List.all_eq_true.mp h.2.1, h.2.2⟩,
      fun h => ⟨h.ne_empty, List.all_eq_true.mpr h.word, h.plain⟩⟩

/-- What gives an imported name another one. -/
structure ImportAlias where
  /-- What stands between the name and the keyword. -/
  before : List Char
  /-- What stands between the keyword and the other name. -/
  behind : List Char
  /-- The other name. -/
  name : String

/-- One field of an import list. -/
structure ImportItem where
  /-- What stands in front of the name. -/
  lead : List Char
  /-- The name. -/
  name : String
  /-- The other name it is given, if any. -/
  alias? : Option ImportAlias
  /-- What stands behind all that. -/
  trail : List Char

/-- An alias as it is written. -/
def ImportAlias.text (a : ImportAlias) : List Char :=
  a.before ++ ("as".toList ++ (a.behind ++ a.name.toList))

/-- A field as it is written. -/
def ImportItem.text (i : ImportItem) : List Char :=
  i.lead ++ (i.name.toList ++ ((i.alias?.elim [] ImportAlias.text) ++ i.trail))

/-- Whether a field can be written, with some texts between its words. -/
structure ImportItem.IsWritten (between : List Char → Prop) (i : ImportItem) : Prop where
  /-- There may be something in front of the name, -/
  lead : between i.lead
  /-- and behind all of it. -/
  trail : between i.trail
  /-- The name is one. -/
  name : IsImportName i.name
  /-- An alias is another one, set apart from the keyword as the name is. -/
  another : ∀ a ∈ i.alias?, (between a.before ∧ a.before ≠ []) ∧
    (between a.behind ∧ a.behind ≠ []) ∧ IsImportName a.name

/-- Whether the reader of import lists sees the name of a field. -/
structure ImportItem.IsLegible (i : ImportItem) : Prop where
  /-- No comment stands in front of the name. -/
  lead : '#' ∉ i.lead
  /-- Without an alias, none stands behind it. -/
  trail : i.alias? = none → '#' ∉ i.trail
  /-- With an alias, none stands in front of the keyword, which has a blank on either side. -/
  another : ∀ a ∈ i.alias?, '#' ∉ a.before ∧ a.before.getLast? = some ' ' ∧
    a.behind.head? = some ' '

/-! ### What is left of fillers -/

/-- Whether a text is blank up to a comment. -/
def IsPadding (cs : List Char) : Prop :=
  (∀ c ∈ cs, isBlank c = true) ∨
    ∃ front back, cs = front ++ '#' :: back ∧ ∀ c ∈ front, isBlank c = true

/-- The blanks of the layout are blank. -/
theorem isBlank_of_mem_blanks : ∀ c ∈ " \t\x0c\r\n".toList, isBlank c = true :=
  forall_mem_of_all (by decide)

/-- Characters of the layout's blanks fill. -/
theorem ConsistsOf.isFiller {set : String} {cs : List Char} (h : ConsistsOf set cs)
    (hset : set.toList ⊆ " \t\x0c\r\n".toList) : IsFiller cs := by
  induction cs with
  | nil => exact .nil
  | cons c cs ih =>
    obtain ⟨hc, hcs⟩ := List.forall_mem_cons.mp h
    exact .blank (hset hc) (ih hcs)

/-- All of its blanks do. -/
theorem isFiller_of_blanks {cs : List Char} (h : ConsistsOf " \t\x0c\r\n" cs) : IsFiller cs :=
  h.isFiller (List.Subset.refl _)

/-- What fills starts with a blank or a comment. -/
theorem IsFiller.mem_of_head {cs : List Char} (h : IsFiller cs) :
    ∀ c ∈ cs.head?, c ∈ " \t\x0c\r\n#".toList := by
  have hblank : ∀ c ∈ " \t\x0c\r\n".toList, c ∈ " \t\x0c\r\n#".toList :=
    forall_mem_of_all (by decide)
  cases h with
  | nil => simp
  | blank hc _ =>
    rintro c ⟨⟩
    exact hblank _ hc
  | comment =>
    rintro c ⟨⟩
    decide

/-- What fills is padding. -/
theorem IsFiller.isPadding {cs : List Char} (h : IsFiller cs) : IsPadding cs := by
  induction h with
  | nil => exact .inl (by simp)
  | @blank c cs hc _ ih =>
    have hblank := isBlank_of_mem_blanks c hc
    rcases ih with hall | ⟨front, back, rfl, hall⟩
    · exact .inl (List.forall_mem_cons.mpr ⟨hblank, hall⟩)
    · exact .inr ⟨c :: front, back, rfl, List.forall_mem_cons.mpr ⟨hblank, hall⟩⟩
  | @comment body cs _ _ _ => exact .inr ⟨[], body ++ '\n' :: cs, rfl, by simp⟩

namespace IsPadding

variable {cs : List Char}

/-- Without a comment it is blank. -/
theorem isBlank_of_noComment (h : IsPadding cs) (hno : '#' ∉ cs) : ∀ c ∈ cs, isBlank c = true := by
  rcases h with hall | ⟨front, back, rfl, -⟩
  · exact hall
  · exact absurd (by simp) hno

/-- With a comment it is blank up to there. -/
theorem exists_of_comment (h : IsPadding cs) (hmem : '#' ∈ cs) :
    ∃ front back, cs = front ++ '#' :: back ∧ ∀ c ∈ front, isBlank c = true := by
  rcases h with hall | hcomment
  · exact absurd (hall '#' hmem) (by decide)
  · exact hcomment

/-- Padding without some blanks in front is padding. -/
theorem of_append_left {front back : List Char} (h : IsPadding (front ++ back))
    (hblank : ∀ c ∈ front, isBlank c = true) : IsPadding back := by
  rcases h with hall | ⟨shown, hidden, heq, hshown⟩
  · exact .inl fun c hc => hall c (List.mem_append_right front hc)
  · rcases List.append_eq_append_iff.mp heq with ⟨more, rfl, hback⟩ | ⟨more, rfl, hhidden⟩
    · exact .inr ⟨more, hidden, hback, fun c hc => hshown c (List.mem_append_right front hc)⟩
    · -- the comment cannot begin among the blanks in front
      cases more with
      | nil => exact .inr ⟨[], hidden, hhidden.symm, by simp⟩
      | cons x more =>
        have hx : '#' = x := (List.cons.inj hhidden).1
        exact absurd (hblank x (by simp)) (by rw [← hx]; decide)

/-- Padding without what is behind it is padding. -/
theorem of_append_right {front back : List Char} (h : IsPadding (front ++ back)) :
    IsPadding front := by
  rcases h with hall | ⟨shown, hidden, heq, hshown⟩
  · exact .inl fun c hc => hall c (List.mem_append_left back hc)
  · rcases List.append_eq_append_iff.mp heq with ⟨more, rfl, -⟩ | ⟨more, rfl, hhidden⟩
    · exact .inl fun c hc => hshown c (List.mem_append_left more hc)
    · cases more with
      | nil =>
        rw [List.append_nil]
        exact .inl hshown
      | cons x more =>
        rw [← (List.cons.inj hhidden).1]
        exact .inr ⟨shown, more, rfl, hshown⟩

/-- It begins with no word character, and neither does what follows if there is none of it. -/
theorem head_not_word {back : List Char} (h : IsPadding cs)
    (hback : cs = [] → ∀ c ∈ back.head?, isWord c = false) :
    ∀ c ∈ (cs ++ back).head?, isWord c = false := by
  cases cs with
  | nil => exact hback rfl
  | cons x cs =>
    rintro c ⟨⟩
    rcases h with hall | ⟨front, rest, heq, hfront⟩
    · exact isWord_of_isBlank (hall x List.mem_cons_self)
    · cases front with
      | nil =>
        rw [(List.cons.inj heq).1]
        decide
      | cons y front =>
        rw [(List.cons.inj heq).1]
        exact isWord_of_isBlank (hfront y List.mem_cons_self)

end IsPadding

/-! ### What stands before the alias -/

/-- Blanks stand before the alias unless it begins with the last of them. -/
theorem before_blanks {front back : List Char} (hfront : ∀ c ∈ front, isBlank c = true)
    (hback : front.getLast? = some ' ' → ¬ "as ".toList <+: back) :
    before " as " (front ++ back) = front ++ before " as " back := by
  refine before_append ?_
  rintro shown hidden rfl hne ⟨rest, hrest⟩
  obtain ⟨x, hidden, rfl⟩ := List.exists_cons_of_ne_nil hne
  obtain ⟨rfl, hnext⟩ : ' ' = x ∧ "as ".toList ++ rest = hidden ++ back := List.cons.inj hrest
  cases hidden with
  | nil => exact hback (by simp) ⟨rest, hnext⟩
  | cons y hidden =>
    have hy : 'a' = y := (List.cons.inj hnext).1
    exact absurd (hfront y (by simp)) (by rw [← hy]; decide)

/-- What holds no blank stands before the alias. -/
theorem before_unblank {front : List Char} (hfront : ∀ c ∈ front, c ≠ ' ') (back : List Char) :
    before " as " (front ++ back) = front ++ before " as " back := by
  refine before_append ?_
  rintro shown hidden rfl hne ⟨rest, hrest⟩
  obtain ⟨x, hidden, rfl⟩ := List.exists_cons_of_ne_nil hne
  exact hfront x (by simp) (List.cons.inj hrest).1.symm

/-- Blanks and the sign of a comment hold no alias. -/
theorem before_comment {front : List Char} (hfront : ∀ c ∈ front, isBlank c = true)
    (back : List Char) :
    before " as " (front ++ '#' :: back) = front ++ '#' :: before " as " back := by
  rw [before_blanks hfront fun _ h => by cases (List.cons_prefix_cons.mp h).1]
  have hsign : ∀ c ∈ ['#'], c ≠ ' ' := forall_mem_of_all (by decide)
  exact congrArg (front ++ ·) (before_unblank hsign back)

/-- A comment in front of which only blanks stand is read as part of a name. -/
theorem mem_beforeAlias_of_comment {cs : List Char} (h : IsPadding cs) (hmem : '#' ∈ cs) :
    '#' ∈ beforeAlias cs := by
  obtain ⟨front, back, rfl, hfront⟩ := h.exists_of_comment hmem
  unfold beforeAlias
  rw [before_comment hfront]
  exact mem_trim_of_neg (by simp) (by decide)

/-- No alias begins among blanks. -/
theorem before_of_blank {cs : List Char} (h : ∀ c ∈ cs, isBlank c = true) :
    before " as " cs = cs := by
  have hbefore : before " as " (cs ++ []) = cs ++ before " as " [] :=
    before_blanks h fun _ => by simp
  rwa [before_nil (by decide), List.append_nil] at hbefore

/-- Blanks are read as no name. -/
theorem beforeAlias_of_blank {cs : List Char} (h : ∀ c ∈ cs, isBlank c = true) :
    beforeAlias cs = [] := by
  unfold beforeAlias
  rw [before_of_blank h, strip, trim, trimLeft_of_all h]
  rfl

namespace IsImportName

variable {n : String} (h : IsImportName n)

include h

/-- A name holds no blank. -/
theorem unblank : ∀ c ∈ n.toList, isBlank c = false := fun c hc => isBlank_of_isWord (h.word c hc)

/-- A name is not empty. -/
theorem toList_ne_nil : n.toList ≠ [] := mt String.toList_eq_nil_iff.mp h.ne_empty

/-- A name ends with a word character. -/
theorem exists_concat : ∃ front c, n.toList = front ++ [c] ∧ isWord c = true := by
  obtain ⟨front, c, hsplit⟩ := (List.eq_nil_or_concat n.toList).resolve_left h.toList_ne_nil
  rw [List.concat_eq_append] at hsplit
  exact ⟨front, c, hsplit, h.word c (by simp [hsplit])⟩

/-- A name begins no text that begins with another word. -/
theorem eq_of_append_eq {w : String} (hw : ∀ c ∈ w.toList, isWord c = true) {rest rest' : List Char}
    (hrest : ∀ c ∈ rest.head?, isWord c = false) (hrest' : ∀ c ∈ rest'.head?, isWord c = false)
    (heq : n.toList ++ rest = w.toList ++ rest') : n = w := by
  exact String.toList_inj.mp (append_inj_of_head h.word hrest hw hrest' heq).1

/-- A name stands before the alias, whatever blanks are in front of it. -/
theorem before_name {lead rest : List Char} (hlead : ∀ c ∈ lead, isBlank c = true)
    (hrest : ∀ c ∈ rest.head?, isWord c = false) :
    before " as " (lead ++ (n.toList ++ rest)) = lead ++ (n.toList ++ before " as " rest) := by
  rw [before_blanks hlead, before_unblank]
  · intro c hc heq
    have hunblank := h.unblank c hc
    rw [heq] at hunblank
    cases hunblank
  · rintro - ⟨back, hback⟩
    have hsplit : n.toList ++ rest = "as".toList ++ ' ' :: back := hback.symm
    have hword : ∀ c ∈ "as".toList, isWord c = true := forall_mem_of_all (by decide)
    exact h.plain.2.2 (h.eq_of_append_eq hword hrest (by rintro c ⟨⟩; decide) hsplit)

end IsImportName

namespace ImportItem

variable {i : ImportItem}

/-- Whether a field is one of a list whose ends may have been trimmed. -/
structure IsPlaced (i : ImportItem) : Prop where
  /-- What stands in front of the name is blank up to a comment, -/
  lead : IsPadding i.lead
  /-- and so is what stands behind all of it. -/
  trail : IsPadding i.trail
  /-- The name is one. -/
  name : IsImportName i.name
  /-- An alias is set apart from the name. -/
  another : ∀ a ∈ i.alias?, IsPadding a.before ∧ a.before ≠ [] ∧ a.behind ≠ []

/-- Behind the name of a field comes no word character. -/
theorem IsPlaced.head_not_word (h : i.IsPlaced) :
    ∀ c ∈ ((i.alias?.elim [] ImportAlias.text) ++ i.trail).head?, isWord c = false := by
  cases halias : i.alias? with
  | none =>
    have hhead : ∀ c ∈ (i.trail ++ []).head?, isWord c = false := h.trail.head_not_word (by simp)
    rwa [List.append_nil] at hhead
  | some a =>
    obtain ⟨hbefore, hne, -⟩ := h.another a halias
    show ∀ c ∈ ((a.before ++ _) ++ i.trail).head?, _
    rw [List.append_assoc]
    exact hbefore.head_not_word fun hnil => absurd hnil hne

/-- A word between blanks is what stripping leaves. -/
theorem strip_eq {lead word trail : List Char} (hlead : ∀ c ∈ lead, isBlank c = true)
    (hword : ∀ c ∈ word, isBlank c = false) (htrail : ∀ c ∈ trail, isBlank c = true) :
    strip (lead ++ (word ++ trail)) = word := trim_eq_of_edges hlead hword htrail

/-- **A legible field is read as its name.** -/
theorem beforeAlias_eq (h : i.IsPlaced) (hlegible : i.IsLegible) :
    beforeAlias i.text = i.name.toList := by
  have hlead := h.lead.isBlank_of_noComment hlegible.lead
  unfold beforeAlias text
  rw [h.name.before_name hlead h.head_not_word]
  cases halias : i.alias? with
  | none =>
    have htrail := h.trail.isBlank_of_noComment (hlegible.trail halias)
    show strip (i.lead ++ (i.name.toList ++ before " as " i.trail)) = _
    rw [before_of_blank htrail]
    exact strip_eq hlead h.name.unblank htrail
  | some a =>
    obtain ⟨hbefore, hne, -⟩ := h.another a halias
    obtain ⟨hno, hlast, hhead⟩ := hlegible.another a halias
    have hblank := hbefore.isBlank_of_noComment hno
    obtain ⟨gap, hgap⟩ : ∃ gap, a.before = gap ++ [' '] := List.getLast?_eq_some_iff.mp hlast
    obtain ⟨more, hmore⟩ : ∃ more, a.behind = ' ' :: more := by
      obtain ⟨x, more, hmore⟩ := List.exists_cons_of_ne_nil (h.another a halias).2.2
      rw [hmore] at hhead
      exact ⟨more, by rw [hmore, Option.some.inj hhead]⟩
    have hgapBlank : ∀ c ∈ gap, isBlank c = true := fun c hc => hblank c (by simp [hgap, hc])
    have htext : a.text ++ i.trail =
        gap ++ (" as ".toList ++ (more ++ a.name.toList ++ i.trail)) := by
      rw [ImportAlias.text, hgap, hmore]
      simp
    show strip (i.lead ++ (i.name.toList ++ before " as " (a.text ++ i.trail))) = _
    have hfirst : gap.getLast? = some ' ' →
        ¬ "as ".toList <+: " as ".toList ++ (more ++ a.name.toList ++ i.trail) :=
      fun _ hprefix => by cases (List.cons_prefix_cons.mp hprefix).1
    rw [htext, before_blanks hgapBlank hfirst, before_prefix (by decide), List.append_nil]
    exact strip_eq hlead h.name.unblank hgapBlank

/-- **Of a field that is not legible something is left that is no name.** -/
theorem exists_mem_beforeAlias (h : i.IsPlaced) (hlegible : ¬ i.IsLegible) :
    ∃ c ∈ beforeAlias i.text, c = '#' ∨ isBlank c = true := by
  have hcomment : ∀ cs, '#' ∈ cs → ∃ c ∈ strip cs, c = '#' ∨ isBlank c = true := fun cs hmem =>
    ⟨'#', mem_trim_of_neg hmem (by decide), .inl rfl⟩
  unfold beforeAlias text
  by_cases hlead : '#' ∈ i.lead
  · obtain ⟨front, back, hsplit, hfront⟩ := h.lead.exists_of_comment hlead
    rw [hsplit, List.append_assoc, List.cons_append, before_comment hfront]
    exact hcomment _ (by simp)
  rw [h.name.before_name (h.lead.isBlank_of_noComment hlead) h.head_not_word]
  cases halias : i.alias? with
  | none =>
    have htrail : '#' ∈ i.trail := by
      by_contra hno
      exact hlegible ⟨hlead, fun _ => hno, by simp [halias]⟩
    obtain ⟨front, back, hsplit, hfront⟩ := h.trail.exists_of_comment htrail
    show ∃ c ∈ strip (i.lead ++ (i.name.toList ++ before " as " i.trail)), _
    rw [hsplit, before_comment hfront]
    exact hcomment _ (by simp)
  | some a =>
    obtain ⟨hbefore, hne, hbehind⟩ := h.another a halias
    show ∃ c ∈ strip (i.lead ++ (i.name.toList ++ before " as " (a.text ++ i.trail))), _
    rw [ImportAlias.text, List.append_assoc]
    by_cases hmem : '#' ∈ a.before
    · obtain ⟨front, back, hsplit, hfront⟩ := hbefore.exists_of_comment hmem
      rw [hsplit, List.append_assoc, List.cons_append, before_comment hfront]
      exact hcomment _ (by simp)
    -- the alias is not found, so that a blank stays between the name and the keyword
    have hblank := hbefore.isBlank_of_noComment hmem
    have hmissed : a.before.getLast? = some ' ' → a.behind.head? ≠ some ' ' := by
      intro hlast hhead
      refine hlegible ⟨hlead, by simp [halias], ?_⟩
      intro a' ha'
      rw [halias] at ha'
      cases ha'
      exact ⟨hmem, hlast, hhead⟩
    have hfound :
        before " as " (a.before ++ ("as".toList ++ (a.behind ++ a.name.toList) ++ i.trail)) =
          a.before ++ ("as".toList ++ before " as " (a.behind ++ a.name.toList ++ i.trail)) := by
      rw [before_blanks hblank, List.append_assoc, before_unblank (forall_mem_of_all (by decide))]
      rintro hlast ⟨rest, hrest⟩
      obtain ⟨x, behind, hsplit⟩ := List.exists_cons_of_ne_nil hbehind
      rw [hsplit] at hrest
      have hx : ' ' = x := (List.cons.inj (List.cons.inj (List.cons.inj hrest).2).2).1
      exact hmissed hlast (by rw [hsplit, ← hx]; rfl)
    obtain ⟨x, hx⟩ := List.exists_mem_of_ne_nil _ hne
    obtain ⟨init, last, hname, hword⟩ := h.name.exists_concat
    have hlast : isBlank last = false := isBlank_of_isWord hword
    refine ⟨x, ?_, .inr (hblank x hx)⟩
    rw [hfound, hname]
    have hbetween := mem_trim_of_between (p := isBlank) (a := last) (b := 'a') (c := x)
      (i.lead ++ init) ('s' :: before " as " (a.behind ++ a.name.toList ++ i.trail)) hlast
      (by decide) hx
    simpa [strip] using hbetween

end ImportItem

end ProjectSurvey.Reference
