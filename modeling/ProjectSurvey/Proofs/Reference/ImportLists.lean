import Mathlib.Data.List.Forall2
import ProjectSurvey.Proofs.Reference.ImportItems

/-!
# Import lists as they are written

The names of an import stand with commas between them, on one line or in parentheses. The reader
begins by trimming parentheses and blanks off the list as a whole, which takes blanks off its first
and its last field and leaves the others as they are (`exists_trim_join`). **If every field is
legible, exactly the names are read** (`ImportList.importedNames_text`); **if one is not, something
is read that is no name** (`ImportList.exists_mem_importedNames`).
-/

namespace ProjectSurvey.Reference

open Text

/-! ### Lists -/

/-- What stands around the fields of a list. -/
inductive ImportFrame where
  /-- Nothing: the list ends with its line. -/
  | bare
  /-- Parentheses, and what stands behind a comma after the last name, if there is one. -/
  | enclosed (closing? : Option (List Char))

namespace ImportFrame

/-- What stands behind a comma after the last name. -/
def closing : ImportFrame → List (List Char)
  | bare => []
  | enclosed closing? => closing?.toList

/-- Whether a text may stand between the words of a list. -/
def Between : ImportFrame → List Char → Prop
  | bare => ConsistsOf " \t"
  | enclosed _ => IsFiller

/-- What may stand between the items of a list fills. -/
theorem Between.isFiller {frame : ImportFrame} {cs : List Char} (h : frame.Between cs) :
    IsFiller cs := by
  cases frame with
  | bare => exact ConsistsOf.isFiller h (by decide)
  | enclosed => exact h

end ImportFrame

/-- The list of an import. -/
structure ImportList where
  /-- Its fields, one for each name. -/
  items : List ImportItem
  /-- What stands around them. -/
  frame : ImportFrame

namespace ImportList

/-- The names of a list. -/
def names (l : ImportList) : List String := l.items.map ImportItem.name

/-- What stands between the commas of a list. -/
def fields (l : ImportList) : List (List Char) := l.items.map ImportItem.text ++ l.frame.closing

/-- A list as it is written. -/
def text (l : ImportList) : List Char :=
  match l.frame with
  | .bare => join [','] l.fields
  | .enclosed _ => '(' :: (join [','] l.fields ++ [')'])

/-- Whether a list can be written. -/
structure IsWritten (l : ImportList) : Prop where
  /-- It has a name. -/
  ne_nil : l.items ≠ []
  /-- Its fields can be written, -/
  items : ∀ i ∈ l.items, i.IsWritten l.frame.Between
  /-- and so can what stands behind a last comma. -/
  closing : ∀ f ∈ l.frame.closing, l.frame.Between f

/-- Whether the commas of a list stand between its fields only, and so in no comment. -/
def CommasSeparate (l : ImportList) : Prop := ∀ f ∈ l.fields, ',' ∉ f

/-- Whether the reader of import lists sees all names of a list and nothing else. -/
structure IsLegible (l : ImportList) : Prop where
  /-- It sees the name of every field, -/
  items : ∀ i ∈ l.items, i.IsLegible
  /-- and no comment stands behind a last comma. -/
  closing : ∀ f ∈ l.frame.closing, '#' ∉ f

end ImportList

/-! ### What is trimmed off -/

/-- What is trimmed off a list. -/
def listEdge : CharSet := fun c => "() \t\n".toList.contains c

/-- The edges of a list are no part of a word. -/
theorem listEdge_of_isWord {c : Char} (h : isWord c = true) : listEdge c = false := by
  have hedge : ∀ x ∈ "() \t\n".toList, isWord x = false := forall_mem_of_all (by decide)
  rw [← Bool.not_eq_true]
  intro hc
  rw [hedge c (List.contains_iff_mem.mp hc)] at h
  cases h

/-- The edges of a list are blanks but for the parentheses. -/
theorem isBlank_of_listEdge {c : Char} (h : listEdge c = true) (hopen : c ≠ '(')
    (hclose : c ≠ ')') : isBlank c = true := by
  have hedge : ∀ x ∈ "() \t\n".toList, x = '(' ∨ x = ')' ∨ isBlank x = true :=
    forall_mem_of_all (by decide)
  exact ((hedge c (List.contains_iff_mem.mp h)).resolve_left hopen).resolve_left hclose

/-- What fills holds no parenthesis. -/
theorem IsFiller.not_paren {cs : List Char} (h : IsFiller cs) : ∀ c ∈ cs, c ≠ '(' ∧ c ≠ ')' := by
  have hblank : ∀ x ∈ " \t\x0c\r\n".toList, x ≠ '(' ∧ x ≠ ')' := forall_mem_of_all (by decide)
  have hbody : ∀ x : Char, x ∉ "\n()".toList → x ≠ '(' ∧ x ≠ ')' := by
    intro x hx
    exact ⟨fun heq => hx (heq ▸ by decide), fun heq => hx (heq ▸ by decide)⟩
  induction h with
  | nil => simp
  | blank hc _ ih => exact List.forall_mem_cons.mpr ⟨hblank _ hc, ih⟩
  | @comment body cs hno _ ih =>
    refine List.forall_mem_cons.mpr ⟨by decide, fun c hc => ?_⟩
    rcases List.mem_append.mp hc with hc | hc
    · exact hbody c (hno c hc)
    · rcases List.mem_cons.mp hc with rfl | hc
      · decide
      · exact ih c hc

/-- Whether one text is another with blanks taken off at its beginning. -/
def IsCutLeft (cs cut : List Char) : Prop :=
  ∃ front, cs = front ++ cut ∧ ∀ c ∈ front, isBlank c = true

/-- Whether one text is another with blanks taken off at its end. -/
def IsCutRight (cs cut : List Char) : Prop :=
  ∃ back, cs = cut ++ back ∧ ∀ c ∈ back, isBlank c = true

/-- Trimming the edges cuts what fills on the left, -/
theorem IsFiller.isCutLeft {cs : List Char} (h : IsFiller cs) :
    IsCutLeft cs (trimLeft listEdge cs) := by
  obtain ⟨front, hfront, hall⟩ := exists_trimLeft listEdge cs
  refine ⟨front, hfront, fun c hc => ?_⟩
  obtain ⟨hopen, hclose⟩ := h.not_paren c (by rw [hfront]; exact List.mem_append_left _ hc)
  exact isBlank_of_listEdge (hall c hc) hopen hclose

/-- and on the right. -/
theorem IsFiller.isCutRight {cs : List Char} (h : IsFiller cs) :
    IsCutRight cs (trimRight listEdge cs) := by
  obtain ⟨back, hback, hall⟩ := exists_trimRight listEdge cs
  refine ⟨back, hback, fun c hc => ?_⟩
  obtain ⟨hopen, hclose⟩ := h.not_paren c (by rw [hback]; exact List.mem_append_right _ hc)
  exact isBlank_of_listEdge (hall c hc) hopen hclose

/-- Cutting nothing is a cut on the left, -/
theorem IsCutLeft.refl (cs : List Char) : IsCutLeft cs cs := ⟨[], rfl, by simp⟩

/-- and on the right. -/
theorem IsCutRight.refl (cs : List Char) : IsCutRight cs cs :=
  ⟨[], (List.append_nil cs).symm, by simp⟩

/-- Cutting off blanks neither takes nor leaves a comment sign. -/
theorem IsCutLeft.comment_mem_iff {cs cut : List Char} (h : IsCutLeft cs cut) :
    '#' ∈ cut ↔ '#' ∈ cs := by
  obtain ⟨front, rfl, hblank⟩ := h
  rw [List.mem_append, or_iff_right fun hmem => absurd (hblank '#' hmem) (by decide)]

/-- A cut on the right leaves a comment in. -/
theorem IsCutRight.comment_mem_iff {cs cut : List Char} (h : IsCutRight cs cut) :
    '#' ∈ cut ↔ '#' ∈ cs := by
  obtain ⟨back, rfl, hblank⟩ := h
  rw [List.mem_append, or_iff_left fun hmem => absurd (hblank '#' hmem) (by decide)]

/-- Padding cut on the left is padding. -/
theorem IsCutLeft.isPadding {cs cut : List Char} (h : IsCutLeft cs cut) (hcs : IsPadding cs) :
    IsPadding cut := by
  obtain ⟨front, rfl, hblank⟩ := h
  exact hcs.of_append_left hblank

/-- Padding cut on the right is padding. -/
theorem IsCutRight.isPadding {cs cut : List Char} (h : IsCutRight cs cut) (hcs : IsPadding cs) :
    IsPadding cut := by
  obtain ⟨back, rfl, -⟩ := h
  exact hcs.of_append_right

namespace ImportItem

variable {i j : ImportItem}

/-- Whether one field is another with blanks taken off around it. -/
structure IsCut (i j : ImportItem) : Prop where
  /-- The name is the same, -/
  name : j.name = i.name
  /-- and so is the alias. -/
  another : j.alias? = i.alias?
  /-- Blanks may be missing in front -/
  lead : IsCutLeft i.lead j.lead
  /-- and behind. -/
  trail : IsCutRight i.trail j.trail

/-- An item is a cut of itself. -/
theorem IsCut.refl (i : ImportItem) : i.IsCut i := ⟨rfl, rfl, .refl _, .refl _⟩

/-- An item that is placed stays so when it is cut, -/
theorem IsCut.isPlaced (h : i.IsCut j) (hi : i.IsPlaced) : j.IsPlaced :=
  ⟨h.lead.isPadding hi.lead, h.trail.isPadding hi.trail, h.name ▸ hi.name, h.another ▸ hi.another⟩

/-- and it is as legible as before. -/
theorem IsCut.isLegible_iff (h : i.IsCut j) : j.IsLegible ↔ i.IsLegible := by
  have hlead := not_congr h.lead.comment_mem_iff
  have htrail := not_congr h.trail.comment_mem_iff
  constructor
  · rintro ⟨hl, ht, ha⟩
    rw [h.another] at ht ha
    exact ⟨hlead.mp hl, fun hnone => htrail.mp (ht hnone), ha⟩
  · rintro ⟨hl, ht, ha⟩
    rw [← h.another] at ht ha
    exact ⟨hlead.mpr hl, fun hnone => htrail.mpr (ht hnone), ha⟩

/-- What is left of a field is a part of it. -/
theorem IsCut.subset_text (h : i.IsCut j) : j.text ⊆ i.text := by
  obtain ⟨front, hfront, -⟩ := h.lead
  obtain ⟨back, hback, -⟩ := h.trail
  intro c
  rw [text, text, h.name, h.another, hfront, hback]
  simp only [List.mem_append]
  tauto

/-- What is written with less between its parts is written with more. -/
theorem IsWritten.mono {between between' : List Char → Prop} (h : i.IsWritten between)
    (hbetween : ∀ cs, between cs → between' cs) : i.IsWritten between' := by
  refine ⟨hbetween _ h.lead, hbetween _ h.trail, h.name, fun a ha => ?_⟩
  obtain ⟨⟨hbefore, hne⟩, ⟨hbehind, hne'⟩, hname⟩ := h.another a ha
  exact ⟨⟨hbetween _ hbefore, hne⟩, ⟨hbetween _ hbehind, hne'⟩, hname⟩

/-- A written item is placed. -/
theorem IsWritten.isPlaced (h : i.IsWritten IsFiller) : i.IsPlaced := by
  refine ⟨h.lead.isPadding, h.trail.isPadding, h.name, fun a ha => ?_⟩
  obtain ⟨⟨hbefore, hne⟩, ⟨-, hne'⟩, -⟩ := h.another a ha
  exact ⟨hbefore.isPadding, hne, hne'⟩

/-- A field is a text that ends with a word character, and what stands behind. -/
theorem exists_text_eq (hname : IsImportName i.name)
    (halias : ∀ a ∈ i.alias?, IsImportName a.name) : ∃ front c, isWord c = true ∧
      ∀ trail, { i with trail := trail }.text = front ++ [c] ++ trail := by
  cases ha : i.alias? with
  | none =>
    obtain ⟨front, c, hsplit, hc⟩ := hname.exists_concat
    exact ⟨i.lead ++ front, c, hc, fun trail => by simp [text, hsplit]⟩
  | some a =>
    obtain ⟨front, c, hsplit, hc⟩ := (halias a ha).exists_concat
    exact ⟨i.lead ++ (i.name.toList ++ (a.before ++ ("as".toList ++ (a.behind ++ front)))), c, hc,
      fun trail => by simp [text, ImportAlias.text, hsplit]⟩

/-- Trimming a list at its beginning takes blanks off its first field. -/
theorem trimLeft_join (hname : IsImportName i.name) (fs : List (List Char)) :
    trimLeft listEdge (join [','] (i.text :: fs)) =
      join [','] ({ i with lead := trimLeft listEdge i.lead }.text :: fs) := by
  obtain ⟨back, hback, -⟩ := exists_join_cons ',' fs
  obtain ⟨c, cs, hsplit⟩ := List.exists_cons_of_ne_nil hname.toList_ne_nil
  have hc : listEdge c = false := listEdge_of_isWord (hname.word c (by simp [hsplit]))
  rw [hback, hback, text, text, hsplit]
  simp only [List.append_assoc, List.cons_append]
  exact trimLeft_append i.lead (trimLeft_cons hc _)

/-- Trimming a list at its end takes blanks off its last field. -/
theorem trimRight_join (hname : IsImportName i.name) (halias : ∀ a ∈ i.alias?, IsImportName a.name)
    (fs : List (List Char)) :
    trimRight listEdge (join [','] (fs ++ [i.text])) =
      join [','] (fs ++ [{ i with trail := trimRight listEdge i.trail }.text]) := by
  obtain ⟨front, hfront⟩ := exists_join_concat ',' fs
  obtain ⟨word, c, hc, htext⟩ := exists_text_eq hname halias
  have hself : i.text = word ++ [c] ++ i.trail := htext i.trail
  have hword : trimRight listEdge (front ++ word ++ [c]) = front ++ word ++ [c] :=
    trimRight_concat (listEdge_of_isWord hc) _
  rw [hfront, hfront, hself, htext, ← List.append_assoc, ← List.append_assoc,
    trimRight_append i.trail hword]
  simp only [List.append_assoc]

end ImportItem

/-- **Trimming a list takes blanks off its first and its last field and leaves the others.** -/
theorem exists_trim_join {items : List ImportItem} {closing : List (List Char)} (hne : items ≠ [])
    (hitems : ∀ i ∈ items, i.IsWritten IsFiller) (hclosing : ∀ f ∈ closing, IsFiller f)
    (hone : closing.length ≤ 1) :
    ∃ items' closing', List.Forall₂ ImportItem.IsCut items items' ∧
      List.Forall₂ IsCutRight closing closing' ∧
      trim listEdge (join [','] (items.map ImportItem.text ++ closing)) =
        join [','] (items'.map ImportItem.text ++ closing') := by
  obtain ⟨i, is, rfl⟩ := List.exists_cons_of_ne_nil hne
  obtain ⟨hi, his⟩ := List.forall_mem_cons.mp hitems
  let first : ImportItem := { i with lead := trimLeft listEdge i.lead }
  have hfirst : i.IsCut first := ⟨rfl, rfl, hi.lead.isCutLeft, .refl _⟩
  have hleft : trimLeft listEdge (join [','] ((i :: is).map ImportItem.text ++ closing)) =
      join [','] ((first :: is).map ImportItem.text ++ closing) :=
    ImportItem.trimLeft_join hi.name (is.map ImportItem.text ++ closing)
  have hcut : List.Forall₂ ImportItem.IsCut (i :: is) (first :: is) :=
    .cons hfirst (List.forall₂_same.mpr fun j _ => .refl j)
  rw [trim, hleft]
  rcases closing with _ | ⟨f, more⟩
  · let cutLast (j : ImportItem) : ImportItem := { j with trail := trimRight listEdge j.trail }
    have hcutLast : ∀ j ∈ i :: is, ∀ k, j.IsCut k → k.trail = j.trail → j.IsCut (cutLast k) := by
      intro j hj k hk htrail
      exact ⟨hk.name, hk.another, hk.lead, htrail ▸ (hitems j hj).trail.isCutRight⟩
    rcases List.eq_nil_or_concat is with rfl | ⟨front, last, rfl⟩
    · refine ⟨[cutLast first], [], .cons (hcutLast i (by simp) first hfirst rfl) .nil, .nil, ?_⟩
      exact ImportItem.trimRight_join (i := first) hi.name (fun a ha => (hi.another a ha).2.2) []
    · rw [List.concat_eq_append] at *
      have hlast := hitems last (by simp)
      refine ⟨first :: (front ++ [cutLast last]), [], .cons hfirst ?_, .nil, ?_⟩
      · exact List.rel_append (List.forall₂_same.mpr fun j _ => .refl j)
          (.cons (hcutLast last (by simp) last (.refl _) rfl) .nil)
      · have hright := ImportItem.trimRight_join hlast.name (fun a ha => (hlast.another a ha).2.2)
          ((first :: front).map ImportItem.text)
        simpa using hright
  · obtain rfl : more = [] := by simpa using hone
    have hf := (hclosing f (by simp)).isCutRight
    have hcomma : listEdge ',' = false := by decide
    refine ⟨first :: is, [trimRight listEdge f], hcut, .cons hf .nil, ?_⟩
    rw [join_concat (by simp), join_concat (by simp)]
    exact trimRight_append f (trimRight_concat hcomma _)

/-! ### What is read -/

/-- Of a list without parentheses and blanks around it the names are read field by field. -/
theorem importedNames_eq {list : List Char} {fields : List (List Char)}
    (htrim : trim listEdge list = join [','] fields) (hne : fields ≠ [])
    (hcommas : ∀ f ∈ fields, ',' ∉ f) :
    importedNames list = (fields.map fun f => String.ofList (beforeAlias f)).filter
      fun name => name ≠ "" && name ≠ "*" := by
  unfold importedNames
  change (((pieces ',' (trim listEdge list)).map _).filter _) = _
  rw [htrim, pieces_join hne hcommas]

/-- Items cut at their edges are read as the names of the items. -/
theorem read_of_isCut {items items' : List ImportItem}
    (hcut : List.Forall₂ ImportItem.IsCut items items') (hplaced : ∀ i ∈ items, i.IsPlaced)
    (hlegible : ∀ i ∈ items, i.IsLegible) :
    ((items'.map ImportItem.text).map fun f => String.ofList (beforeAlias f)) =
      items.map ImportItem.name := by
  induction hcut with
  | nil => rfl
  | @cons i j is js h _ ih =>
    obtain ⟨hi, his⟩ := List.forall_mem_cons.mp hplaced
    obtain ⟨hl, hls⟩ := List.forall_mem_cons.mp hlegible
    have hread := ImportItem.beforeAlias_eq (h.isPlaced hi) (h.isLegible_iff.mpr hl)
    have hname : String.ofList (beforeAlias j.text) = i.name := by
      rw [hread, String.ofList_toList, h.name]
    show String.ofList (beforeAlias j.text) :: ((js.map ImportItem.text).map _) = _
    rw [hname, ih his hls, List.map_cons]

/-- Lists related element by element relate each element of the first to one of the second. -/
theorem exists_of_forall₂_of_mem {α : Type} {R : α → α → Prop} {xs ys : List α}
    (h : List.Forall₂ R xs ys) {x : α} (hx : x ∈ xs) : ∃ y ∈ ys, R x y := by
  induction h with
  | nil => cases hx
  | @cons x' y xs ys hr _ ih =>
    rcases List.mem_cons.mp hx with rfl | hx
    · exact ⟨y, List.mem_cons_self, hr⟩
    · obtain ⟨y', hy', hr'⟩ := ih hx
      exact ⟨y', List.mem_cons_of_mem y hy', hr'⟩

namespace ImportList

variable {l : ImportList}

/-- The parentheses of a list are trimmed off. -/
theorem trim_text (l : ImportList) :
    trim listEdge l.text = trim listEdge (join [','] l.fields) := by
  unfold text
  cases l.frame with
  | bare => rfl
  | enclosed =>
    have hedge : ∀ c ∈ ['('], listEdge c = true := forall_mem_of_all (by decide)
    have hedge' : ∀ c ∈ [')'], listEdge c = true := forall_mem_of_all (by decide)
    exact trim_append _ hedge hedge'

/-- The fields of either frame are written as those in parentheses. -/
theorem IsWritten.isFiller (h : l.IsWritten) : ∀ i ∈ l.items, i.IsWritten IsFiller :=
  fun i hi => (h.items i hi).mono fun _ hcs => hcs.isFiller

/-- What is read of a list is read of its fields with blanks taken off some. -/
theorem exists_importedNames_eq (h : l.IsWritten) (hcommas : l.CommasSeparate) :
    ∃ items closing, List.Forall₂ ImportItem.IsCut l.items items ∧
      List.Forall₂ IsCutRight l.frame.closing closing ∧
      importedNames l.text = ((items.map ImportItem.text ++ closing).map fun f =>
        String.ofList (beforeAlias f)).filter fun name => name ≠ "" && name ≠ "*" := by
  have hone : l.frame.closing.length ≤ 1 := by
    match l.frame with
    | .bare => exact Nat.zero_le 1
    | .enclosed none => exact Nat.zero_le 1
    | .enclosed (some _) => exact le_rfl
  obtain ⟨items, closing, hitems, hclosing, htrim⟩ := exists_trim_join h.ne_nil h.isFiller
    (fun f hf => (h.closing f hf).isFiller) hone
  refine ⟨items, closing, hitems, hclosing, importedNames_eq (l.trim_text.trans htrim) ?_ ?_⟩
  · obtain ⟨i, hi⟩ := List.exists_mem_of_ne_nil _ h.ne_nil
    obtain ⟨j, hj, -⟩ := exists_of_forall₂_of_mem hitems hi
    exact List.append_ne_nil_of_left_ne_nil (List.ne_nil_of_mem (List.mem_map_of_mem hj)) _
  · intro f hf hmem
    rcases List.mem_append.mp hf with hf | hf
    · obtain ⟨j, hj, rfl⟩ := List.mem_map.mp hf
      obtain ⟨i, hi, hcut⟩ := exists_of_forall₂_of_mem hitems.flip hj
      exact hcommas _ (List.mem_append_left _ (List.mem_map_of_mem hi)) (hcut.subset_text hmem)
    · obtain ⟨g, hg, back, rfl, -⟩ := exists_of_forall₂_of_mem hclosing.flip hf
      exact hcommas _ (List.mem_append_right _ hg) (List.mem_append_left _ hmem)

/-- **Of a list that is legible exactly the names are read.** -/
theorem importedNames_text (h : l.IsWritten) (hcommas : l.CommasSeparate) (hlegible : l.IsLegible) :
    importedNames l.text = l.names := by
  obtain ⟨items, closing, hitems, hclosing, hread⟩ := exists_importedNames_eq h hcommas
  have hnames := read_of_isCut hitems (fun i hi => (h.isFiller i hi).isPlaced)
    hlegible.items
  have hkept : ∀ n ∈ l.names, (n ≠ "" && n ≠ "*") = true := by
    intro n hn
    obtain ⟨i, hi, rfl⟩ := List.mem_map.mp hn
    have hname := (h.items i hi).name
    have hstar : i.name ≠ "*" := by
      intro heq
      have hword := hname.word '*' (by rw [heq]; decide)
      revert hword
      decide
    simp [hname.ne_empty, hstar]
  have hnothing : ∀ f ∈ closing, String.ofList (beforeAlias f) = "" := by
    intro f hf
    obtain ⟨g, hg, hcut⟩ : ∃ g ∈ l.frame.closing, IsCutRight g f :=
      exists_of_forall₂_of_mem hclosing.flip hf
    have hpadding := hcut.isPadding (h.closing g hg).isFiller.isPadding
    have hno : '#' ∉ f := mt hcut.comment_mem_iff.mp (hlegible.closing g hg)
    rw [beforeAlias_of_blank (hpadding.isBlank_of_noComment hno)]
  have hdropped : (closing.map fun f => String.ofList (beforeAlias f)).filter
      (fun name => name ≠ "" && name ≠ "*") = [] := by
    refine List.filter_eq_nil_iff.mpr fun n hn => ?_
    obtain ⟨f, hf, rfl⟩ := List.mem_map.mp hn
    rw [hnothing f hf]
    decide
  rw [hread, List.map_append, hnames, List.filter_append, hdropped, List.append_nil]
  exact List.filter_eq_self.mpr hkept

/-- **Of a list that is not legible something is read that is no name.** -/
theorem exists_mem_importedNames (h : l.IsWritten) (hcommas : l.CommasSeparate)
    (hlegible : ¬ l.IsLegible) : ∃ s ∈ importedNames l.text, ∃ c ∈ s.toList, isWord c = false := by
  obtain ⟨items, closing, hitems, hclosing, hread⟩ := exists_importedNames_eq h hcommas
  -- a comment sign or a blank is neither a word character nor the star that is dropped
  suffices hfield : ∃ f ∈ items.map ImportItem.text ++ closing,
      ∃ c ∈ beforeAlias f, c = '#' ∨ isBlank c = true by
    obtain ⟨f, hf, c, hc, hkind⟩ := hfield
    refine ⟨String.ofList (beforeAlias f), ?_, c, by rwa [String.toList_ofList], ?_⟩
    · rw [hread]
      refine List.mem_filter.mpr ⟨List.mem_map_of_mem hf, ?_⟩
      have hne : ∀ s : String, (c ∈ s.toList → False) → String.ofList (beforeAlias f) ≠ s := by
        rintro s hs rfl
        exact hs (by rwa [String.toList_ofList])
      have hempty := hne "" (by simp)
      have hstar := hne "*" (by
        intro hmem
        obtain rfl : c = '*' := by simpa using hmem
        revert hkind
        decide)
      simp [hempty, hstar]
    · rcases hkind with rfl | hblank
      · decide
      · exact isWord_of_isBlank hblank
  by_cases hall : ∀ i ∈ l.items, i.IsLegible
  · have hcomment : ∃ g ∈ l.frame.closing, '#' ∈ g := by
      by_contra hno
      push Not at hno
      exact hlegible ⟨hall, hno⟩
    obtain ⟨g, hg, hmem⟩ := hcomment
    obtain ⟨f, hf, hcut⟩ := exists_of_forall₂_of_mem hclosing hg
    have hpadding := hcut.isPadding (h.closing g hg).isFiller.isPadding
    exact ⟨f, List.mem_append_right _ hf, '#',
      mem_beforeAlias_of_comment hpadding (hcut.comment_mem_iff.mpr hmem), .inl rfl⟩
  · push Not at hall
    obtain ⟨i, hi, hno⟩ := hall
    obtain ⟨j, hj, hcut⟩ := exists_of_forall₂_of_mem hitems hi
    have hread := ImportItem.exists_mem_beforeAlias (hcut.isPlaced (h.isFiller i hi).isPlaced)
      (mt hcut.isLegible_iff.mp hno)
    exact ⟨j.text, List.mem_append_left _ (List.mem_map_of_mem hj), hread⟩

end ImportList

end ProjectSurvey.Reference
