import ProjectSurvey.Proofs.Pattern.Matching
import ProjectSurvey.Proofs.Reference.ImportLists

/-!
# Where imports start

Both patterns for imports are tied to the start of a line, and behind blanks they want a keyword and
one more blank (`StartsImport`). A place from where on that is nowhere so is calm (`IsCalm`).
**Import lists keep a text calm** (`ImportList.keepsCalm`): a line that starts inside of one starts
with a name, a comma, a parenthesis or a comment. **So neither pattern matches behind the first line
of an import** (`matchAt?_eq_none_of_isQuiet`).
-/

namespace ProjectSurvey.Reference

open Text Pattern

/-- Whether a keyword and a blank stand behind the blanks at a place. -/
def StartsWith (w : String) (cs : List Char) : Prop :=
  ∃ x rest, cs.dropWhile isBlank = w.toList ++ x :: rest ∧ isBlank x = true

/-- Whether an import may start at a place. -/
def StartsImport (cs : List Char) : Prop := StartsWith "from" cs ∨ StartsWith "import" cs

/-- Whether no later line of a text starts an import. -/
def IsQuiet (cs : List Char) : Prop :=
  ∀ front back, cs = front ++ '\n' :: back → ¬ StartsImport back

/-- Whether no line of a text starts an import. -/
structure IsCalm (cs : List Char) : Prop where
  /-- The first line does not, -/
  first : ¬ StartsImport cs
  /-- and no later one does. -/
  later : IsQuiet cs

/-! ### Calm texts -/

section Calm

variable {cs front back : List Char}

/-- A blank in front changes nothing about the word a text starts with. -/
theorem startsWith_of_blank {w : String} {c : Char} (hc : isBlank c = true) :
    StartsWith w (c :: cs) ↔ StartsWith w cs := by
  unfold StartsWith
  rw [List.dropWhile_cons_of_pos hc]

/-- A text that goes on with no blank starts with its first word. -/
theorem startsWith_of_head {w : String} (hw : w ≠ "") (hhead : ∀ c ∈ cs.head?, isBlank c = false)
    (h : StartsWith w cs) : ∃ x rest, cs = w.toList ++ x :: rest ∧ isBlank x = true := by
  obtain ⟨x, rest, heq, hx⟩ := h
  cases cs with
  | nil => simp [mt String.toList_eq_nil_iff.mp hw] at heq
  | cons c cs =>
    rw [List.dropWhile_cons_of_neg (by simp [hhead c rfl])] at heq
    exact ⟨x, rest, heq, hx⟩

/-- A text that starts with a word does so whatever follows. -/
theorem StartsWith.append {w : String} (h : StartsWith w front) (back : List Char) :
    StartsWith w (front ++ back) := by
  obtain ⟨x, rest, heq, hx⟩ := h
  refine ⟨x, rest ++ back, ?_, hx⟩
  have hsome : ¬ (front.dropWhile isBlank).isEmpty := by simp [heq]
  rw [List.dropWhile_append, if_neg hsome, heq, List.append_assoc, List.cons_append]

/-- A text without a line end does not change what later lines start. -/
theorem isQuiet_append (hno : '\n' ∉ front) (h : IsQuiet back) : IsQuiet (front ++ back) := by
  intro shown hidden heq
  rcases List.append_eq_append_iff.mp heq with ⟨more, -, hback⟩ | ⟨more, rfl, hhidden⟩
  · exact h more hidden hback
  · cases more with
    | nil => exact h [] hidden hhidden.symm
    | cons x more =>
      obtain ⟨rfl, -⟩ := List.cons.inj hhidden
      simp at hno

namespace IsCalm

/-- Nothing is calm. -/
theorem nil : IsCalm [] := by
  refine ⟨?_, fun front back heq => by simp at heq⟩
  have hnone : ∀ w, ¬ StartsWith w [] := by
    rintro w ⟨x, rest, heq, -⟩
    simp at heq
  exact fun hstart => hstart.elim (hnone _) (hnone _)

/-- The beginning of a calm text is calm. -/
theorem of_append (h : IsCalm (front ++ back)) : IsCalm front := by
  have hstarts : ∀ cs, StartsImport cs → StartsImport (cs ++ back) :=
    fun cs hcs => hcs.imp (·.append back) (·.append back)
  refine ⟨mt (hstarts front) h.first, fun shown hidden heq hstart => ?_⟩
  exact h.later shown (hidden ++ back) (by simp [heq]) (hstarts hidden hstart)

/-- A blank keeps a text calm. -/
theorem blank {c : Char} (hc : isBlank c = true) (h : IsCalm cs) : IsCalm (c :: cs) := by
  refine ⟨?_, fun front back heq => ?_⟩
  · exact mt (Or.imp (startsWith_of_blank hc).mp (startsWith_of_blank hc).mp) h.first
  · cases front with
    | nil => exact (List.cons.inj heq).2 ▸ h.first
    | cons x front => exact h.later front back (List.cons.inj heq).2

/-- A text that goes on with a word is calm unless that is a keyword. -/
theorem word {w : List Char} (hne : w ≠ []) (hw : ∀ c ∈ w, isWord c = true)
    (hplain : w ≠ "from".toList ∧ w ≠ "import".toList) (hback : ∀ c ∈ back.head?, isWord c = false)
    (h : IsQuiet back) : IsCalm (w ++ back) := by
  have hkeyword : ∀ k : String, k ≠ "" → (∀ c ∈ k.toList, isWord c = true) → w ≠ k.toList →
      ¬ StartsWith k (w ++ back) := by
    intro k hk hkword hother hstart
    have hhead : ∀ c ∈ (w ++ back).head?, isBlank c = false := by
      obtain ⟨c, cs, rfl⟩ := List.exists_cons_of_ne_nil hne
      rintro x ⟨⟩
      exact isBlank_of_isWord (hw c List.mem_cons_self)
    obtain ⟨x, rest, heq, hx⟩ := startsWith_of_head hk hhead hstart
    have hrest : ∀ c ∈ (x :: rest).head?, isWord c = false := by
      rintro c ⟨⟩
      exact isWord_of_isBlank hx
    exact hother (append_inj_of_head hw hback hkword hrest heq).1
  refine ⟨?_, isQuiet_append (fun hmem => ?_) h⟩
  · rintro (hstart | hstart)
    · exact hkeyword "from" (by decide) (forall_mem_of_all (by decide)) hplain.1 hstart
    · exact hkeyword "import" (by decide) (forall_mem_of_all (by decide)) hplain.2 hstart
  · have hfeed := hw '\n' hmem
    revert hfeed
    decide

/-- A text that goes on with a sign is calm. -/
theorem sign {c : Char} (hc : c ∈ ",()#".toList) (h : IsQuiet cs) : IsCalm (c :: cs) := by
  have hsigns : ∀ x ∈ ",()#".toList, isBlank x = false ∧ x ≠ 'f' ∧ x ≠ 'i' ∧ '\n' ∉ [x] :=
    forall_mem_of_all (by decide)
  obtain ⟨hblank, hf, hi, hfeed⟩ := hsigns c hc
  have hhead : ∀ x ∈ (c :: cs).head?, isBlank x = false := by
    rintro x ⟨⟩
    exact hblank
  refine ⟨?_, isQuiet_append hfeed h⟩
  rintro (hstart | hstart)
  · obtain ⟨x, rest, heq, -⟩ := startsWith_of_head (by decide) hhead hstart
    exact hf (List.cons.inj heq).1
  · obtain ⟨x, rest, heq, -⟩ := startsWith_of_head (by decide) hhead hstart
    exact hi (List.cons.inj heq).1

/-- What fills keeps a text calm. -/
theorem filler {f : List Char} (hf : IsFiller f) (h : IsCalm cs) : IsCalm (f ++ cs) := by
  induction hf with
  | nil => exact h
  | blank hc _ ih => exact ih.blank (isBlank_of_mem_blanks _ hc)
  | @comment body f hbody _ ih =>
    have hline : '\n' ∉ body := fun hmem => hbody '\n' hmem (by decide)
    have hquiet : IsQuiet (body ++ '\n' :: (f ++ cs)) :=
      isQuiet_append hline (ih.blank (by decide)).later
    have hcalm : IsCalm ('#' :: (body ++ '\n' :: (f ++ cs))) := sign (by decide) hquiet
    simpa using hcalm

end IsCalm

end Calm

/-! ### Import lists -/

/-- Whether a text in front of a calm one that goes on with no word is calm with it. -/
def KeepsCalm (f : List Char) : Prop :=
  ∀ back, (∀ c ∈ back.head?, isWord c = false) → IsCalm back → IsCalm (f ++ back)

/-- What fills keeps calm whatever stands behind it. -/
theorem IsFiller.keepsCalm {f : List Char} (h : IsFiller f) : KeepsCalm f :=
  fun _ _ hback => IsCalm.filler h hback

/-- A name keeps a text calm behind which no word goes on. -/
theorem IsImportName.isCalm {n : String} (h : IsImportName n) {back : List Char}
    (hhead : ∀ c ∈ back.head?, isWord c = false) (hback : IsCalm back) :
    IsCalm (n.toList ++ back) :=
  IsCalm.word h.toList_ne_nil h.word
    ⟨mt String.toList_inj.mp h.plain.1, mt String.toList_inj.mp h.plain.2.1⟩ hhead hback.later

/-- A written item keeps calm whatever stands behind it. -/
theorem ImportItem.keepsCalm {i : ImportItem} (h : i.IsWritten IsFiller) : KeepsCalm i.text := by
  intro back hhead hback
  have htrail : IsCalm (i.trail ++ back) := IsCalm.filler h.trail hback
  have hword : ∀ c ∈ (i.trail ++ back).head?, isWord c = false :=
    h.trail.isPadding.head_not_word fun _ => hhead
  suffices hrest :
      IsCalm (i.name.toList ++ ((i.alias?.elim [] ImportAlias.text) ++ (i.trail ++ back))) by
    have hall := IsCalm.filler h.lead hrest
    simpa [ImportItem.text] using hall
  cases ha : i.alias? with
  | none => exact h.name.isCalm hword htrail
  | some a =>
    obtain ⟨⟨hbefore, hne⟩, ⟨hbehind, hne'⟩, hname⟩ := h.another a ha
    have hother := IsCalm.filler hbehind (hname.isCalm hword htrail)
    have has :=
      IsCalm.word (w := "as".toList) (by decide) (forall_mem_of_all (by decide)) (by decide)
      (hbehind.isPadding.head_not_word fun hnil => absurd hnil hne') hother.later
    have hall := h.name.isCalm (hbefore.isPadding.head_not_word fun hnil => absurd hnil hne)
      (IsCalm.filler hbefore has)
    simpa [ImportAlias.text] using hall

/-- Texts that keep calm do so with commas between them. -/
theorem keepsCalm_join {fs : List (List Char)} (h : ∀ f ∈ fs, KeepsCalm f) :
    KeepsCalm (join [','] fs) := by
  induction fs with
  | nil => exact fun _ _ hback => hback
  | cons f fs ih =>
    obtain ⟨hf, hfs⟩ := List.forall_mem_cons.mp h
    cases fs with
    | nil => exact hf
    | cons g fs =>
      intro back hhead hback
      have hrest := ih hfs back hhead hback
      have hcomma : IsCalm (',' :: (join [','] (g :: fs) ++ back)) := .sign (by decide) hrest.later
      have hall := hf _ (by rintro c ⟨⟩; decide) hcomma
      simpa [join] using hall

/-- **A list keeps a text calm.** -/
theorem ImportList.keepsCalm {l : ImportList} (h : l.IsWritten) : KeepsCalm l.text := by
  have hfields : KeepsCalm (join [','] l.fields) := by
    refine keepsCalm_join fun f hf => ?_
    rcases List.mem_append.mp hf with hf | hf
    · obtain ⟨i, hi, rfl⟩ := List.mem_map.mp hf
      exact ImportItem.keepsCalm (h.isFiller i hi)
    · exact (h.closing f hf).isFiller.keepsCalm
  intro back hhead hback
  unfold text
  cases l.frame with
  | bare => exact hfields back hhead hback
  | enclosed =>
    have hclose : IsCalm (')' :: back) := .sign (by decide) hback.later
    have hlist := hfields _ (by rintro c ⟨⟩; decide) hclose
    have hopen : IsCalm ('(' :: (join [','] l.fields ++ ')' :: back)) :=
      .sign (by decide) hlist.later
    simpa using hopen

/-! ### Patterns -/

section Patterns

variable {c : Cursor} {marks : Marks} {k : Next} {r : MatchState}

/-- A match that is tied to the start of a line and wants a keyword finds it there. -/
theorem of_run_keyword {w : String} {q : Pattern}
    (h : (lineStart ++ blanks ++ lit w ++ (char CharSet.blank).seq q).run k ⟨c, marks⟩ = some r) :
    c.OpensLine ∧ StartsWith w c.rest := by
  obtain ⟨hopen, h⟩ := of_run_lineStart h
  have h := of_run_every h
  obtain ⟨back, hback, h⟩ := of_run_lit h
  obtain ⟨x, rest, hrest, hx, -⟩ := of_run_char h
  rw [Cursor.rest_behind] at hback hrest
  exact ⟨hopen, x, rest, by rw [← hrest]; exact hback, hx⟩

/-- A match of the first form opens a line and starts with its keyword. -/
theorem of_matchAt?_fromImport {m : Match} (h : fromImport.matchAt? c = some m) :
    c.OpensLine ∧ StartsWith "from" c.rest := by
  obtain ⟨st, hst, -⟩ := Option.map_eq_some_iff.mp h
  exact of_run_keyword (q := .many CharSet.blank) hst

/-- So does a match of the second form. -/
theorem of_matchAt?_plainImport {m : Match} (h : plainImport.matchAt? c = some m) :
    c.OpensLine ∧ StartsWith "import" c.rest := by
  obtain ⟨st, hst, -⟩ := Option.map_eq_some_iff.mp h
  exact of_run_keyword (q := .every CharSet.blank) hst

/-- **Behind its first line a quiet text has no match of either pattern.** -/
theorem matchAt?_eq_none_of_isQuiet {front back : List Char} (h : IsQuiet (front ++ back))
    (hne : front ≠ []) :
    fromImport.matchAt? ((Cursor.start (front ++ back)).behind front back) = none ∧
      plainImport.matchAt? ((Cursor.start (front ++ back)).behind front back) = none := by
  have hno : ((Cursor.start (front ++ back)).behind front back).OpensLine →
      ¬ StartsImport back := by
    obtain ⟨init, last, rfl⟩ := (List.eq_nil_or_concat front).resolve_left hne
    rw [List.concat_eq_append] at *
    intro hopen
    rw [Cursor.opensLine_behind_iff] at hopen
    exact h init back (by simp [hopen])
  constructor
  · rw [Option.eq_none_iff_forall_not_mem]
    intro m hm
    obtain ⟨hopen, hstart⟩ := of_matchAt?_fromImport hm
    exact hno hopen (.inl hstart)
  · rw [Option.eq_none_iff_forall_not_mem]
    intro m hm
    obtain ⟨hopen, hstart⟩ := of_matchAt?_plainImport hm
    exact hno hopen (.inr hstart)

end Patterns

end ProjectSurvey.Reference
