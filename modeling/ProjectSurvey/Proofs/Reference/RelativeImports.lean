import ProjectSurvey.Proofs.Reference.ImportMatches

/-!
# Relative imports in every layout

A relative import counts by dots how far it goes up and lists the names it wants, on one line or in
parentheses over several, with aliases and comments. **It refers to what its list names exactly if
it is legible** (`extract_eq_references_iff`): there are blanks in front of the first dot, between
the last one and the keyword and between that and the list, no blanks between the dots, and no
comment between a name and what ends it. An import that is not so spaced refers to nothing, and in a
list a comment becomes part of the next name (`extract_commented`).
-/

namespace ProjectSurvey.Reference

open Text Pattern

/-- A relative import with its layout. -/
structure RelativeImport where
  /-- What stands in front of each of the dots. -/
  ups : List (List Char)
  /-- What stands between the last dot and the second keyword. -/
  beforeKeyword : List Char
  /-- What stands between that and the list. -/
  beforeList : List Char
  /-- The list. -/
  list : ImportList
  /-- What stands behind the list. -/
  tail : List Char

/-- What stands in front of a name that is so many dots up. -/
def ascent (dots : Nat) : String :=
  if dots = 1 then "./" else String.join (List.replicate (dots - 1) "../")

/-- The dots of an import make a path that ascends. -/
theorem upward_eq_ascent (dots : Nat) : upward dots = ascent dots := by
  unfold upward ascent
  split
  · rfl
  · rw [← String.toList_inj, String.toList_ofList, String.toList_join, List.flatMap_replicate]

namespace RelativeImport

/-- What stands behind the first keyword up to the last dot. -/
def dots (s : RelativeImport) : List Char := s.ups.flatMap (· ++ ['.'])

/-- What stands behind the last dot. -/
def rest (s : RelativeImport) : List Char :=
  s.beforeKeyword ++ ("import".toList ++ (s.beforeList ++ (s.list.text ++ s.tail)))

/-- An import as it is written. -/
def text (s : RelativeImport) : List Char := "from".toList ++ (s.dots ++ s.rest)

/-- What an import refers to. -/
def references (s : RelativeImport) : List String :=
  (s.list.names.map (ascent s.ups.length ++ ·)).eraseDups

/-- Whether an import can be written. -/
structure IsWritten (s : RelativeImport) : Prop where
  /-- It has a dot. -/
  ne_nil : s.ups ≠ []
  /-- Blanks may stand in front of the dots, -/
  ups : ∀ u ∈ s.ups, ConsistsOf " \t\x0c" u
  /-- behind them -/
  beforeKeyword : ConsistsOf " \t\x0c" s.beforeKeyword
  /-- and in front of the list. -/
  beforeList : ConsistsOf " \t\x0c" s.beforeList
  /-- The list can be written. -/
  list : s.list.IsWritten
  /-- Without parentheses it is set apart from the keyword, and blanks behind it belong to it. -/
  bare : s.list.frame = .bare → s.beforeList ≠ [] ∧ ∀ c ∈ s.tail.head?, c ∉ " \t".toList
  /-- Only blanks and comments follow, the last of which may end with the text. -/
  tail : IsFiller (s.tail ++ ['\n'])

/-- Whether an import has the blanks that its pattern wants. -/
structure IsSpaced (s : RelativeImport) : Prop where
  /-- The first dot is set apart from the keyword in front, -/
  first : ∀ u ∈ s.ups.head?, u ≠ []
  /-- the others follow at once, -/
  others : ∀ u ∈ s.ups.tail, u = []
  /-- and the second keyword is set apart from the dots -/
  beforeKeyword : s.beforeKeyword ≠ []
  /-- and from the list. -/
  beforeList : s.beforeList ≠ []

/-- Whether an import is read as it is meant. -/
structure IsLegible (s : RelativeImport) : Prop extends s.IsSpaced where
  /-- The list is. -/
  list : s.list.IsLegible

end RelativeImport

/-! ### What an import refers to -/

/-- The references of a text with one import of names are those of that. -/
theorem ofIndented_of_findAll {text : List Char} {m : Match} (hfrom : fromImport.findAll text = [m])
    (hplain : plainImport.findAll text = []) : ofIndented text = ofFromImport m := by
  let located : List (Nat × String) := (ofFromImport m).map fun r => (m.start.offset, r)
  have hsorted : located.mergeSort (fun a b => decide (a.1 ≤ b.1)) = located := by
    refine List.mergeSort_of_pairwise (List.pairwise_map.mpr (List.pairwise_of_forall ?_))
    simp
  unfold ofIndented
  simp only [hfrom, hplain, List.flatMap_cons, List.flatMap_nil, List.append_nil]
  change (located.mergeSort _).map Prod.snd = _
  rw [hsorted, List.map_map]
  exact List.map_id _

namespace RelativeImport

variable {s : RelativeImport}

/-- The blanks of the layout are blank. -/
theorem isBlank_of_consistsOf {cs : List Char} (h : ConsistsOf " \t\x0c" cs) :
    ∀ c ∈ cs, isBlank c = true := by
  have hblank : ∀ c ∈ " \t\x0c".toList, isBlank c = true := forall_mem_of_all (by decide)
  exact fun c hc => hblank c (h c hc)

/-- From the list on a text is calm. -/
theorem IsWritten.isCalm (h : s.IsWritten) : IsCalm (s.list.text ++ s.tail) := by
  have htail : IsCalm s.tail := by
    have hclosed := IsCalm.filler h.tail IsCalm.nil
    rw [List.append_nil] at hclosed
    exact hclosed.of_append
  refine ImportList.keepsCalm h.list s.tail ?_ htail
  have hhead : ∀ c ∈ (s.tail ++ ['\n'] ++ []).head?, isWord c = false :=
    h.tail.isPadding.head_not_word (by simp)
  intro c hc
  refine hhead c ?_
  cases htext : s.tail with
  | nil => simp [htext] at hc
  | cons x tail => simpa [htext] using hc

/-- No later line of an import starts another one. -/
theorem IsWritten.isQuiet (h : s.IsWritten) : IsQuiet s.text := by
  have hfeed : ∀ {cs : List Char}, ConsistsOf " \t\x0c" cs → '\n' ∉ cs :=
    fun hcs hmem => absurd (hcs '\n' hmem) (by decide)
  have hdots : '\n' ∉ s.dots := by
    intro hmem
    obtain ⟨u, hu, hmem⟩ := List.mem_flatMap.mp hmem
    rcases List.mem_append.mp hmem with hmem | hmem
    · exact hfeed (h.ups u hu) hmem
    · revert hmem
      decide
  exact isQuiet_append (by decide) (isQuiet_append hdots (isQuiet_append (hfeed h.beforeKeyword)
    (isQuiet_append (by decide) (isQuiet_append (hfeed h.beforeList) h.isCalm.later))))

/-- Without blanks between them dots are nothing but dots. -/
theorem flatMap_dots {us : List (List Char)} (h : ∀ u ∈ us, u = []) :
    us.flatMap (· ++ ['.']) = List.replicate us.length '.' := by
  induction us with
  | nil => rfl
  | cons u us ih =>
    obtain ⟨rfl, hus⟩ := List.forall_mem_cons.mp h
    rw [List.flatMap_cons, ih hus]
    rfl

/-- **An import with the blanks that the pattern wants is found.** -/
theorem exists_match (h : s.IsWritten) (hspaced : s.IsSpaced) :
    ∃ m, fromImport.matchAt? (Cursor.start s.text) = some m ∧
      m.groupText 1 = List.replicate s.ups.length '.' ∧ m.groupText 2 = [] ∧
      importedNames (m.groupText 3) = importedNames s.list.text := by
  have htail : s.list.frame = .bare → ∀ c ∈ s.tail.head?, listChar c = false := by
    have hfiller : ∀ c ∈ " \t\x0c\r\n#".toList, c ∈ " \t".toList ∨ listChar c = false :=
      forall_mem_of_all (by decide)
    intro hbare c hc
    refine (hfiller c (h.tail.mem_of_head c ?_)).resolve_left ((h.bare hbare).2 c hc)
    rw [List.head?_append, hc]
    rfl
  obtain ⟨lead, shown, hsplit, hlead, hhead, hread, hfound⟩ := ImportList.exists_found h.list htail
  obtain ⟨u, us, hups⟩ := List.exists_cons_of_ne_nil h.ne_nil
  have hu : u ≠ [] := hspaced.first u (by simp [hups])
  have hus : us.flatMap (· ++ ['.']) = List.replicate us.length '.' :=
    flatMap_dots fun u' hu' => hspaced.others u' (by simp [hups, hu'])
  have hrest : (Cursor.start s.text).rest = "from".toList ++ (u ++
      (List.replicate s.ups.length '.' ++ (s.beforeKeyword ++ ("import".toList ++
        ((s.beforeList ++ lead) ++ (shown ++ s.tail)))))) := by
    show s.text = _
    rw [text, dots, rest, hups, List.flatMap_cons, hus, hsplit, List.length_cons,
      List.replicate_succ]
    simp
  obtain ⟨m, hm, -, hups', hname, hlist⟩ := exists_matchAt?_fromImport (.inl rfl) hrest
    ⟨hu, isBlank_of_consistsOf (h.ups u (by simp [hups]))⟩
    ⟨by simp [hups], fun x hx => (List.mem_replicate.mp hx).2⟩
    ⟨hspaced.beforeKeyword, isBlank_of_consistsOf h.beforeKeyword⟩
    ⟨List.append_ne_nil_of_left_ne_nil hspaced.beforeList _,
      List.forall_mem_append.mpr ⟨isBlank_of_consistsOf h.beforeList, hlead⟩⟩ hhead hfound
  exact ⟨m, hm, hups', hname, by rw [hlist, hread]⟩

/-- **No other import is found.** -/
theorem isSpaced_of_match (h : s.IsWritten) {m : Match}
    (hm : fromImport.matchAt? (Cursor.start s.text) = some m) : s.IsSpaced := by
  obtain ⟨front, back, hne, hfrom, hblank, hleads⟩ := leadsToImport_of_matchAt? hm
  obtain ⟨u, us, hups⟩ := List.exists_cons_of_ne_nil h.ne_nil
  have hparen : s.beforeList = [] → ∃ more, s.list.text ++ s.tail = '(' :: more := by
    intro hnil
    cases hframe : s.list.frame with
    | bare => exact absurd hnil (h.bare hframe).1
    | enclosed => exact ⟨_, by rw [ImportList.text, hframe]; rfl⟩
  have hdropped : s.text.dropWhile isBlank = s.text :=
    List.dropWhile_cons_of_neg (by decide)
  have hsplit : u ++ ('.' :: (us.flatMap (· ++ ['.']) ++ s.rest)) = front ++ back := by
    have hall := List.append_cancel_left (hdropped.symm.trans hfrom)
    rw [dots, hups] at hall
    simpa using hall
  have hmore : ∃ more, u = front ++ more ∧
      back = more ++ '.' :: (us.flatMap (· ++ ['.']) ++ s.rest) := by
    rcases List.append_eq_append_iff.mp hsplit with ⟨more, hfront, hdot⟩ | ⟨more, hu, hback⟩
    · -- the blanks cannot go on beyond the dot
      cases more with
      | nil => exact ⟨[], by simpa using hfront.symm, by simpa using hdot.symm⟩
      | cons x more =>
        obtain ⟨rfl, -⟩ := List.cons.inj hdot
        exact absurd (hblank '.' (by simp [hfront])) (by decide)
    · exact ⟨more, hu, hback⟩
  obtain ⟨more, rfl, rfl⟩ := hmore
  have hblanks : ∀ v ∈ more :: us, ∀ c ∈ v, isBlank c = true := by
    have hall : ∀ v ∈ (front ++ more) :: us, ∀ c ∈ v, isBlank c = true :=
      fun v hv => isBlank_of_consistsOf (h.ups v (hups ▸ hv))
    obtain ⟨hu, hus⟩ := List.forall_mem_cons.mp hall
    exact List.forall_mem_cons.mpr ⟨fun c hc => hu c (List.mem_append_right front hc), hus⟩
  have hdots : LeadsToImport ((more :: us).flatMap (· ++ ['.']) ++ s.rest) := by simpa using hleads
  obtain ⟨hnil, hleads⟩ := leadsToImport_dots hblanks hdots
  obtain ⟨hgap, hgap'⟩ := leadsToImport_keyword (isBlank_of_consistsOf h.beforeKeyword)
    (isBlank_of_consistsOf h.beforeList) h.isCalm hparen hleads
  refine ⟨?_, ?_, hgap, hgap'⟩
  · rw [hups]
    rintro v ⟨⟩
    exact List.append_ne_nil_of_left_ne_nil hne _
  · rw [hups]
    exact fun v hv => hnil v (List.mem_cons_of_mem more hv)

/-- An import with the blanks that the pattern wants refers to what is read of its list, and any
other one to nothing. -/
theorem ofIndented_text (h : s.IsWritten) :
    (s.IsSpaced → ofIndented s.text =
      (importedNames s.list.text).map (ascent s.ups.length ++ ·)) ∧
    (¬ s.IsSpaced → ofIndented s.text = []) := by
  have hlater : ∀ front back, front ≠ [] → s.text = front ++ back →
      fromImport.matchAt? ((Cursor.start s.text).behind front back) = none ∧
        plainImport.matchAt? ((Cursor.start s.text).behind front back) = none := by
    intro front back hne hsplit
    have hquiet := h.isQuiet
    rw [hsplit] at hquiet ⊢
    exact matchAt?_eq_none_of_isQuiet hquiet hne
  have hplain : plainImport.findAll s.text = [] := by
    refine findAll_eq_nil ?_ fun front back hne hsplit => (hlater front back hne hsplit).2
    rw [Option.eq_none_iff_forall_not_mem]
    intro m hm
    have hhead : ∀ c ∈ s.text.head?, isBlank c = false := by
      rintro c ⟨⟩
      decide
    obtain ⟨x, rest, heq, -⟩ :=
      startsWith_of_head (by decide) hhead (of_matchAt?_plainImport hm).2
    cases (List.cons.inj heq).1
  constructor
  · intro hspaced
    obtain ⟨m, hm, hdots, hname, hlist⟩ := exists_match h hspaced
    have hne : s.text ≠ [] := List.cons_ne_nil _ _
    have hfound : fromImport.findAll s.text = [m] :=
      findAll_eq_singleton hne hm fun front back hne hsplit => (hlater front back hne hsplit).1
    have hups : s.ups.length ≠ 0 := mt List.length_eq_zero_iff.mp h.ne_nil
    rw [ofIndented_of_findAll hfound hplain, ofFromImport, hdots, hname, hlist,
      List.length_replicate, ← upward_eq_ascent]
    exact if_neg hups
  · intro hno
    have hfound : fromImport.findAll s.text = [] := by
      refine findAll_eq_nil ?_ fun front back hne hsplit => (hlater front back hne hsplit).1
      rw [Option.eq_none_iff_forall_not_mem]
      exact fun m hm => hno (isSpaced_of_match h hm)
    unfold ofIndented
    simp only [hfound, hplain, List.flatMap_nil, List.append_nil, List.mergeSort_nil, List.map_nil]

/-- References in an indented language are extracted once each. -/
theorem extract_python (text : List Char) : extract "python" text = (ofIndented text).eraseDups :=
  distinct_eq_eraseDups _

/-- **An import refers to what its list names exactly if it is legible**: the pattern finds its
blanks, no comment stands between a name and what ends it, and none behind a last comma. -/
theorem extract_eq_references_iff (h : s.IsWritten) (hcommas : s.list.CommasSeparate) :
    extract "python" s.text = s.references ↔ s.IsLegible := by
  obtain ⟨hspaced, hunspaced⟩ := ofIndented_text h
  rw [extract_python, references]
  constructor
  · intro heq
    have hword : ∀ n ∈ s.list.names, ∀ c ∈ n.toList, isWord c = true := by
      intro n hn
      obtain ⟨i, hi, rfl⟩ := List.mem_map.mp hn
      exact (h.list.items i hi).name.word
    have hspaced' : s.IsSpaced := by
      by_contra hno
      obtain ⟨i, hi⟩ := List.exists_mem_of_ne_nil _ h.list.ne_nil
      have hmem : ascent s.ups.length ++ i.name ∈
          (s.list.names.map (ascent s.ups.length ++ ·)).eraseDups :=
        List.mem_eraseDups.mpr (List.mem_map_of_mem (List.mem_map_of_mem hi))
      rw [← heq, hunspaced hno] at hmem
      cases hmem
    refine ⟨hspaced', ?_⟩
    by_contra hno
    obtain ⟨n, hn, c, hc, hother⟩ := ImportList.exists_mem_importedNames h.list hcommas hno
    have hmem : ascent s.ups.length ++ n ∈ (ofIndented s.text).eraseDups := by
      rw [hspaced hspaced']
      exact List.mem_eraseDups.mpr (List.mem_map_of_mem hn)
    rw [heq, List.mem_eraseDups] at hmem
    obtain ⟨n', hn', hsame⟩ := List.mem_map.mp hmem
    have hnames : n' = n := by
      rw [← String.toList_inj, String.toList_append, String.toList_append] at hsame
      exact String.toList_inj.mp (List.append_cancel_left hsame)
    rw [hword n (hnames ▸ hn') c hc] at hother
    cases hother
  · intro hlegible
    rw [hspaced hlegible.toIsSpaced, ImportList.importedNames_text h.list hcommas hlegible.list]

/-- An import of two names on lines of their own, the second one with an alias and a comment. -/
def renamed : RelativeImport where
  ups := [[' '], []]
  beforeKeyword := [' ']
  beforeList := [' ']
  list :=
    { items :=
        [⟨"\n    ".toList, "reader", none, []⟩,
          ⟨"\n    ".toList, "writer", some ⟨[' '], [' '], "output"⟩, "  # renamed\n".toList⟩]
      frame := .enclosed none }
  tail := ['\n']

/-- An import with a comment behind its last name is read as the names. -/
theorem extract_renamed : renamed.IsWritten ∧ renamed.list.CommasSeparate ∧ renamed.IsLegible ∧
    extract "python" "from .. import (\n    reader,\n    writer as output  # renamed\n)\n".toList =
      ["../reader", "../writer"] := by
  have hcomment : IsFiller "  # renamed\n".toList := .blank (by decide) (.blank (by decide)
    (@IsFiller.comment " renamed".toList [] (forall_mem_of_all (by decide)) .nil))
  have hwritten : renamed.IsWritten := by
    refine ⟨by decide, by decide, by decide, by decide, ⟨by decide, fun i hi => ?_, nofun⟩, nofun,
      isFiller_of_blanks (by decide)⟩
    rcases List.mem_pair.mp hi with rfl | rfl
    · exact ⟨isFiller_of_blanks (by decide), .nil, by decide, nofun⟩
    · refine ⟨isFiller_of_blanks (by decide), hcomment, by decide, ?_⟩
      rintro a ⟨⟩
      exact ⟨⟨isFiller_of_blanks (by decide), by decide⟩,
        ⟨isFiller_of_blanks (by decide), by decide⟩, by decide⟩
  have hcommas : renamed.list.CommasSeparate := by
    unfold ImportList.CommasSeparate
    decide
  have hlegible : renamed.IsLegible := by
    refine ⟨⟨by decide, by decide, by decide, by decide⟩, fun i hi => ?_, nofun⟩
    rcases List.mem_pair.mp hi with rfl | rfl
    · exact ⟨by decide, by decide, nofun⟩
    · exact ⟨by decide, nofun, by rintro a ⟨⟩; decide⟩
  have htext : renamed.text =
    "from .. import (\n    reader,\n    writer as output  # renamed\n)\n".toList := by decide
  refine ⟨hwritten, hcommas, hlegible, ?_⟩
  rw [← htext, (extract_eq_references_iff hwritten hcommas).mpr hlegible]
  decide

/-- An import of two names on lines of their own, the first one with a comment behind its comma. -/
def commented : RelativeImport where
  ups := [[' ']]
  beforeKeyword := [' ']
  beforeList := [' ']
  list :=
    { items := [⟨"\n    ".toList, "a", none, []⟩, ⟨"  # first\n    ".toList, "b", none, []⟩]
      frame := .enclosed (some ['\n']) }
  tail := ['\n']

/-- The comment is taken for a part of the second name. -/
theorem extract_commented : commented.IsWritten ∧ commented.references = ["./a", "./b"] ∧
    extract "python" "from . import (\n    a,  # first\n    b,\n)\n".toList =
      ["./a", "./# first\n    b"] := by
  have hcomment : IsFiller "  # first\n    ".toList := .blank (by decide) (.blank (by decide)
    (@IsFiller.comment " first".toList "    ".toList (forall_mem_of_all (by decide))
      (isFiller_of_blanks (by decide))))
  have hwritten : commented.IsWritten := by
    refine ⟨by decide, by decide, by decide, by decide, ⟨by decide, fun i hi => ?_, fun f hf => ?_⟩,
      nofun, isFiller_of_blanks (by decide)⟩
    · rcases List.mem_pair.mp hi with rfl | rfl
      · exact ⟨isFiller_of_blanks (by decide), .nil, by decide, nofun⟩
      · exact ⟨hcomment, .nil, by decide, nofun⟩
    · obtain rfl := List.mem_singleton.mp hf
      exact isFiller_of_blanks (by decide)
  have hspaced : commented.IsSpaced := ⟨by decide, by decide, by decide, by decide⟩
  have htext : commented.text = "from . import (\n    a,  # first\n    b,\n)\n".toList := by decide
  refine ⟨hwritten, by decide, ?_⟩
  rw [← htext, extract_python, (ofIndented_text hwritten).1 hspaced]
  decide

end RelativeImport

end ProjectSurvey.Reference
