import ProjectSurvey.Proofs.Reference.ImportStarts

/-!
# What the pattern for imports matches

The pattern wants blanks around both keywords of an import, no blanks between its dots, and a list
in parentheses or on one line. **A statement with these blanks is matched up to the end of its
list** (`exists_matchAt?_fromImport`, `ImportList.exists_found`), where blanks in front of the list
may be counted to it or not. **Without them there is no match**: dots lead to the second keyword
only if they stand together (`leadsToImport_dots`) and that one stands between blanks
(`leadsToImport_keyword`).
-/

namespace ProjectSurvey.Reference

open Text Pattern

/-! ### Where the pattern for imports leads -/

/-- Whether blanks and a keyword follow on dots, or on a dotted name. -/
def LeadsToImport (cs : List Char) : Prop :=
  ∃ x more, (cs.dropWhile (CharSet.only '.')).dropWhile dottedName = x :: more ∧ isBlank x = true ∧
    StartsWith "import" more

/-- A match of the pattern for imports has passed a keyword and blanks, and dots lead on. -/
theorem leadsToImport_of_matchAt? {c : Cursor} {m : Match} (h : fromImport.matchAt? c = some m) :
    ∃ front back, front ≠ [] ∧ c.rest.dropWhile isBlank = "from".toList ++ (front ++ back) ∧
      (∀ x ∈ front, isBlank x = true) ∧ LeadsToImport back := by
  obtain ⟨st, hst, -⟩ := Option.map_eq_some_iff.mp h
  obtain ⟨-, h⟩ := of_run_lineStart hst
  have h := of_run_every h
  obtain ⟨rest, hfrom, h⟩ := of_run_lit h
  obtain ⟨front, back, hne, hsplit, hblank, h⟩ := of_run_plus h
  obtain ⟨_, h⟩ := of_run_group h
  have h := of_run_every h
  obtain ⟨_, h⟩ := of_run_group h
  have h := of_run_every h
  obtain ⟨x, more, hgap, hx, h⟩ := of_run_stretch h
  obtain ⟨rest', himport, h⟩ := of_run_lit h
  obtain ⟨y, back', hkeyword, hy, -⟩ := of_run_char h
  simp only [Cursor.rest_behind] at hfrom hsplit hgap himport hkeyword
  have hstart : StartsWith "import" more := ⟨y, back', hkeyword ▸ himport, hy⟩
  exact ⟨front, back, hne, hsplit ▸ hfrom, hblank, x, more, hgap, hx, hstart⟩

/-- A blank is no part of a dotted name. -/
theorem dottedName_of_isBlank {c : Char} (h : isBlank c = true) : dottedName c = false := by
  have hdot : c ≠ '.' := by
    rintro rfl
    revert h
    decide
  simp [dottedName, CharSet.or, CharSet.word, CharSet.only, isWord_of_isBlank h, hdot]

section Leads

variable {cs : List Char}

/-- A dot may lead to the keyword of an import. -/
theorem leadsToImport_dot : LeadsToImport ('.' :: cs) ↔ LeadsToImport cs := Iff.rfl

/-- A blank ends the dots and leads to a keyword only if that follows. -/
theorem leadsToImport_blank {b : Char} (hb : isBlank b = true) :
    LeadsToImport (b :: cs) ↔ StartsWith "import" cs := by
  have hname := dottedName_of_isBlank hb
  have hdot : CharSet.only '.' b = false := (Bool.or_eq_false_iff.mp hname).2
  unfold LeadsToImport
  rw [List.dropWhile_cons_of_neg (by simp [hdot]), List.dropWhile_cons_of_neg (by simp [hname])]
  constructor
  · rintro ⟨x, more, heq, -, h⟩
    exact (List.cons.inj heq).2 ▸ h
  · exact fun h => ⟨b, cs, rfl, hb, h⟩

/-- Blanks in front of a text change nothing about what it starts with. -/
theorem startsWith_append {w : String} {front : List Char}
    (hfront : ∀ c ∈ front, isBlank c = true) :
    StartsWith w (front ++ cs) ↔ StartsWith w cs := by
  unfold StartsWith
  rw [List.dropWhile_append_of_pos hfront]

/-- Dots lead to a keyword only if no blanks stand between them. -/
theorem leadsToImport_dots {us : List (List Char)} (hus : ∀ u ∈ us, ∀ c ∈ u, isBlank c = true)
    (h : LeadsToImport (us.flatMap (· ++ ['.']) ++ cs)) :
    (∀ u ∈ us, u = []) ∧ LeadsToImport cs := by
  induction us with
  | nil => exact ⟨by simp, h⟩
  | cons u us ih =>
    obtain ⟨hu, hrest⟩ := List.forall_mem_cons.mp hus
    rw [List.flatMap_cons, List.append_assoc, List.append_assoc] at h
    cases u with
    | nil =>
      obtain ⟨hall, hcs⟩ := ih hrest (leadsToImport_dot.mp h)
      exact ⟨List.forall_mem_cons.mpr ⟨rfl, hall⟩, hcs⟩
    | cons b u =>
      obtain ⟨hb, hu⟩ := List.forall_mem_cons.mp hu
      have hstart := (startsWith_append hu).mp ((leadsToImport_blank hb).mp h)
      obtain ⟨x, rest, heq, -⟩ := startsWith_of_head (by decide) (by rintro c ⟨⟩; decide) hstart
      cases (List.cons.inj heq).1

/-- A second keyword is led to only if it stands between blanks. -/
theorem leadsToImport_keyword {gap gap' : List Char} (hgap : ∀ c ∈ gap, isBlank c = true)
    (hgap' : ∀ c ∈ gap', isBlank c = true) (hcalm : IsCalm cs)
    (hopen : gap' = [] → ∃ more, cs = '(' :: more)
    (h : LeadsToImport (gap ++ ("import".toList ++ (gap' ++ cs)))) : gap ≠ [] ∧ gap' ≠ [] := by
  have hhead : ∀ c ∈ ("import".toList ++ (gap' ++ cs)).head?, isBlank c = false := by
    rintro c ⟨⟩
    decide
  have hparen : gap' = [] → ∀ x rest, gap' ++ cs = x :: rest → isBlank x = false := by
    rintro rfl x rest heq
    obtain ⟨more, rfl⟩ := hopen rfl
    obtain ⟨rfl, -⟩ := List.cons.inj heq
    decide
  cases gap with
  | cons b gap =>
    obtain ⟨hb, hgap⟩ := List.forall_mem_cons.mp hgap
    have hstart := (startsWith_append hgap).mp ((leadsToImport_blank hb).mp h)
    obtain ⟨x, rest, heq, hx⟩ := startsWith_of_head (by decide) hhead hstart
    refine ⟨List.cons_ne_nil b gap, fun hnil => ?_⟩
    rw [hparen hnil x rest (List.append_cancel_left heq)] at hx
    cases hx
  | nil =>
    -- the keyword is taken for the name of a module, and no other one follows
    exfalso
    obtain ⟨x, more, heq, hx, hstart⟩ := h
    have hword : ∀ c ∈ "import".toList, dottedName c = true := forall_mem_of_all (by decide)
    rw [List.nil_append] at heq
    change ("import".toList ++ (gap' ++ cs)).dropWhile dottedName = _ at heq
    rw [List.dropWhile_append_of_pos hword] at heq
    cases gap' with
    | nil =>
      obtain ⟨rest, rfl⟩ := hopen rfl
      have hsign : ¬ dottedName '(' = true := by decide
      rw [List.nil_append, List.dropWhile_cons_of_neg hsign] at heq
      obtain ⟨rfl, -⟩ := List.cons.inj heq
      revert hx
      decide
    | cons b gap' =>
      obtain ⟨hb, hgap'⟩ := List.forall_mem_cons.mp hgap'
      rw [List.cons_append, List.dropWhile_cons_of_neg (by simp [dottedName_of_isBlank hb])] at heq
      obtain ⟨-, rfl⟩ := List.cons.inj heq
      exact hcalm.first (.inr ((startsWith_append hgap').mp hstart))

end Leads

/-! ### Where the pattern for imports finds a list -/

/-- The characters of lists without parentheses. -/
def listChar : CharSet := CharSet.or CharSet.word (CharSet.anyOf " \t,*")

/-- What the pattern for imports takes for a list of names. -/
def listPattern : Pattern :=
  (lit "(" ++ every (CharSet.noneOf ")") ++ lit ")") ||| stretch listChar

section Finds

variable {c : Cursor} {marks : Marks} {k : Next}

/-- A list in parentheses is taken up to the closing one. -/
theorem run_listPattern_enclosed {inner back : List Char} (hinner : ')' ∉ inner)
    (hrest : c.rest = '(' :: (inner ++ ')' :: back)) :
    listPattern.run k ⟨c, marks⟩ = k ⟨c.behind ('(' :: (inner ++ [')'])) back, marks⟩ := by
  have hall : ∀ x ∈ inner, CharSet.noneOf ")" x = true := by
    intro x hx
    have hne : x ≠ ')' := fun heq => hinner (heq ▸ hx)
    simp [CharSet.noneOf, CharSet.outside, hne]
  have hclose : ∀ x ∈ (')' :: back).head?, CharSet.noneOf ")" x = false := by
    rintro x ⟨⟩
    decide
  have hno : (stretch listChar).run k ⟨c, marks⟩ = none :=
    run_char_of_head (by rw [hrest]; rintro x ⟨⟩; decide)
  unfold listPattern
  rw [run_or, hno, Option.or_none, run_append, run_append, run_lit "(" hrest,
    run_every rfl hall hclose, run_lit ")" rfl, Cursor.behind_behind, Cursor.behind_behind]
  rfl

/-- A list without parentheses is taken to the end of its characters. -/
theorem run_listPattern_bare {list back : List Char} (hne : list ≠ [])
    (hlist : ∀ x ∈ list, listChar x = true) (hback : ∀ x ∈ back.head?, listChar x = false)
    (hrest : c.rest = list ++ back) :
    listPattern.run k ⟨c, marks⟩ = k ⟨c.behind list back, marks⟩ := by
  have hno : (lit "(" ++ every (CharSet.noneOf ")") ++ lit ")").run k ⟨c, marks⟩ = none := by
    refine run_lit_eq_none ?_
    rintro ⟨more, hmore⟩
    obtain ⟨x, list, rfl⟩ := List.exists_cons_of_ne_nil hne
    have hparen : '(' = x := (List.cons.inj (hmore.trans hrest)).1
    have hx := hlist x List.mem_cons_self
    rw [← hparen] at hx
    revert hx
    decide
  unfold listPattern
  rw [run_or, hno, Option.none_or]
  exact run_stretch hne hrest hlist hback

/-- A statement with the blanks that the pattern wants is matched up to the end of its list. -/
theorem exists_matchAt?_fromImport {dots list back : List Char} {front mid last : List Char}
    (hopen : c.OpensLine)
    (hrest : c.rest = "from".toList ++ (front ++ (dots ++ (mid ++ ("import".toList ++ (last ++
      (list ++ back)))))))
    (hfront : front ≠ [] ∧ ∀ x ∈ front, isBlank x = true)
    (hdots : dots ≠ [] ∧ ∀ x ∈ dots, x = '.')
    (hmid : mid ≠ [] ∧ ∀ x ∈ mid, isBlank x = true)
    (hlast : last ≠ [] ∧ ∀ x ∈ last, isBlank x = true)
    (hhead : ∀ x ∈ (list ++ back).head?, isBlank x = false)
    (hlist : ∀ (c : Cursor) (marks : Marks) (k : Next), c.rest = list ++ back →
      listPattern.run k ⟨c, marks⟩ = k ⟨c.behind list back, marks⟩) :
    ∃ m, fromImport.matchAt? c = some m ∧ m.start = c ∧ m.groupText 1 = dots ∧ m.groupText 2 = [] ∧
      m.groupText 3 = list := by
  have hdotHead : ∀ x ∈ (dots ++ (mid ++ ("import".toList ++ (last ++ (list ++ back))))).head?,
      isBlank x = false := by
    obtain ⟨d, ds, rfl⟩ := List.exists_cons_of_ne_nil hdots.1
    rintro x ⟨⟩
    rw [hdots.2 d List.mem_cons_self]
    decide
  have hmidHead : ∀ x ∈ (mid ++ ("import".toList ++ (last ++ (list ++ back)))).head?,
      isBlank x = true := by
    obtain ⟨b, bs, rfl⟩ := List.exists_cons_of_ne_nil hmid.1
    rintro x ⟨⟩
    exact hmid.2 b List.mem_cons_self
  obtain ⟨place, hrun⟩ : ∃ place, fromImport.run some ⟨c, []⟩ = some ⟨place,
      [(3, list ++ back, list.length),
        (2, mid ++ ("import".toList ++ (last ++ (list ++ back))), 0),
        (1, dots ++ (mid ++ ("import".toList ++ (last ++ (list ++ back)))), dots.length)]⟩ := by
    apply Exists.intro
    refine (run_lineStart hopen).trans ?_
    refine (run_every (show c.rest = [] ++ c.rest from rfl) (by simp) ?_).trans ?_
    · rw [hrest]
      rintro x ⟨⟩
      decide
    refine (run_lit "from" hrest).trans ?_
    refine run_plus_of_some hfront.1 rfl hfront.2 hdotHead ?_
    refine (run_group rfl fun k => run_every rfl (fun x hx => beq_iff_eq.mpr (hdots.2 x hx))
      fun x hx => ?_).trans ?_
    · exact (Bool.or_eq_false_iff.mp (dottedName_of_isBlank (hmidHead x hx))).2
    refine (run_group (List.nil_append _).symm fun k => run_every (List.nil_append _).symm
      (by simp) fun x hx => dottedName_of_isBlank (hmidHead x hx)).trans ?_
    refine (run_stretch hmid.1 rfl hmid.2 (by rintro x ⟨⟩; decide)).trans ?_
    refine (run_lit "import" rfl).trans ?_
    refine run_plus_of_some hlast.1 rfl hlast.2 hhead ?_
    refine (run_group rfl fun k => hlist _ _ _ rfl).trans ?_
    rfl
  refine ⟨_, by rw [matchAt?, hrun]; rfl, rfl, ?_, rfl, ?_⟩
  · exact List.take_left
  · exact List.take_left

end Finds

/-! ### The lists that are found -/

/-- The names of a list do not depend on the edges of the list. -/
theorem importedNames_congr {list list' : List Char}
    (h : trim listEdge list = trim listEdge list') : importedNames list = importedNames list' := by
  unfold importedNames
  change ((pieces ',' (trim listEdge list)).map _).filter _ =
    ((pieces ',' (trim listEdge list')).map _).filter _
  rw [h]

namespace ImportList

variable {l : ImportList}

/-- What holds of word characters, of commas and of what stands between words holds of all fields.
-/
theorem forall_mem_join {P : Char → Prop} (h : l.IsWritten) (hword : ∀ c, isWord c = true → P c)
    (hcomma : P ',') (hbetween : ∀ cs, l.frame.Between cs → ∀ c ∈ cs, P c) :
    ∀ c ∈ join [','] l.fields, P c := by
  have hname : ∀ n, IsImportName n → ∀ c ∈ n.toList, P c := fun n hn c hc => hword c (hn.word c hc)
  have hitem : ∀ i ∈ l.items, ∀ c ∈ i.text, P c := by
    intro i hi
    have hwritten := h.items i hi
    have hother : ∀ c ∈ i.alias?.elim [] ImportAlias.text, P c := by
      cases ha : i.alias? with
      | none => simp
      | some a =>
        obtain ⟨⟨hbefore, -⟩, ⟨hbehind, -⟩, hanother⟩ := hwritten.another a ha
        have has : ∀ c ∈ "as".toList, isWord c = true := forall_mem_of_all (by decide)
        show ∀ c ∈ a.text, P c
        simp only [ImportAlias.text, List.forall_mem_append]
        exact ⟨hbetween _ hbefore, fun c hc => hword c (has c hc), hbetween _ hbehind,
          hname _ hanother⟩
    simp only [ImportItem.text, List.forall_mem_append]
    exact ⟨hbetween _ hwritten.lead, hname _ hwritten.name, hother, hbetween _ hwritten.trail⟩
  intro c hc
  rcases of_mem_join hc with rfl | ⟨f, hf, hc⟩
  · exact hcomma
  · rcases List.mem_append.mp hf with hf | hf
    · obtain ⟨i, hi, rfl⟩ := List.mem_map.mp hf
      exact hitem i hi c hc
    · exact hbetween f (h.closing f hf) c hc

/-- A written list holds a character of a word. -/
theorem exists_word_mem_join (h : l.IsWritten) : ∃ c ∈ join [','] l.fields, isWord c = true := by
  obtain ⟨i, is, hitems⟩ := List.exists_cons_of_ne_nil h.ne_nil
  have hname := (h.items i (by simp [hitems])).name
  obtain ⟨c, hc⟩ := List.exists_mem_of_ne_nil _ hname.toList_ne_nil
  obtain ⟨back, hback, -⟩ := exists_join_cons ',' (is.map ImportItem.text ++ l.frame.closing)
  refine ⟨c, ?_, hname.word c hc⟩
  rw [fields, hitems, List.map_cons, List.cons_append, hback]
  simp [ImportItem.text, hc]

/-- **Behind the blanks in front of it a list is found, and read as if they were there.** -/
theorem exists_found (h : l.IsWritten) {tail : List Char}
    (htail : l.frame = .bare → ∀ c ∈ tail.head?, listChar c = false) :
    ∃ lead shown, l.text = lead ++ shown ∧ (∀ c ∈ lead, isBlank c = true) ∧
      (∀ c ∈ (shown ++ tail).head?, isBlank c = false) ∧
      importedNames shown = importedNames l.text ∧
      ∀ (c : Cursor) (marks : Marks) (k : Next), c.rest = shown ++ tail →
        listPattern.run k ⟨c, marks⟩ = k ⟨c.behind shown tail, marks⟩ := by
  cases hframe : l.frame with
  | enclosed closing? =>
    have htext : l.text = '(' :: (join [','] l.fields ++ [')']) := by simp [text, hframe]
    have hno : ∀ c ∈ join [','] l.fields, c ≠ ')' := by
      refine forall_mem_join h (fun c hc heq => ?_) (by decide) fun cs hcs c hc =>
        (hcs.isFiller.not_paren c hc).2
      rw [heq] at hc
      revert hc
      decide
    refine ⟨[], l.text, rfl, by simp, ?_, rfl, fun c marks k hrest => ?_⟩
    · rw [htext]
      rintro c ⟨⟩
      decide
    · rw [htext] at hrest ⊢
      exact run_listPattern_enclosed (fun hmem => hno _ hmem rfl) (by simpa using hrest)
  | bare =>
    have htext : l.text = join [','] l.fields := by simp [text, hframe]
    have hblank : ∀ x ∈ " \t".toList, listChar x = true ∧ listEdge x = true :=
      forall_mem_of_all (by decide)
    have hchars : ∀ c ∈ l.text, listChar c = true := by
      rw [htext]
      refine forall_mem_join h (fun c hc => Bool.or_eq_true_iff.mpr (.inl hc)) (by decide) ?_
      rw [hframe]
      exact fun cs hcs c hc => (hblank c (hcs c hc)).1
    have hsplit : l.text = l.text.takeWhile isBlank ++ l.text.dropWhile isBlank :=
      List.takeWhile_append_dropWhile.symm
    have hlead : ∀ c ∈ l.text.takeWhile isBlank, isBlank c = true := fun c => List.mem_takeWhile_imp
    have hne : l.text.dropWhile isBlank ≠ [] := by
      obtain ⟨c, hc, hword⟩ := exists_word_mem_join h
      intro hnil
      have hc := List.dropWhile_eq_nil_iff.mp hnil c (htext ▸ hc)
      rw [isBlank_of_isWord hword] at hc
      cases hc
    have hedge : ∀ c ∈ l.text.takeWhile isBlank, listEdge c = true := by
      have hother : ∀ x ∈ " \t,*".toList, isBlank x = true → listEdge x = true :=
        forall_mem_of_all (by decide)
      intro c hc
      have hlisted := hchars c (List.takeWhile_subset isBlank hc)
      rcases Bool.or_eq_true_iff.mp hlisted with hword | hmem
      · exact absurd (hlead c hc) (by simp [isBlank_of_isWord hword])
      · exact hother c (List.contains_iff_mem.mp hmem) (hlead c hc)
    refine ⟨_, _, hsplit, hlead, ?_, importedNames_congr ?_, fun c marks k hrest => ?_⟩
    · obtain ⟨x, xs, hx⟩ := List.exists_cons_of_ne_nil hne
      have hhead := List.head?_dropWhile_not isBlank l.text
      rw [hx] at hhead ⊢
      rintro c ⟨⟩
      exact hhead
    · have hnothing : ∀ c ∈ ([] : List Char), listEdge c = true := by simp
      have htrim := trim_append (l.text.dropWhile isBlank) hedge hnothing
      rw [List.append_nil, ← hsplit] at htrim
      exact htrim.symm
    · exact run_listPattern_bare hne (fun c hc => hchars c (hsplit ▸ List.mem_append_right _ hc))
        (htail hframe) hrest

end ImportList

end ProjectSurvey.Reference
