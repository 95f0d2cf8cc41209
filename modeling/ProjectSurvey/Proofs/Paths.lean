import Mathlib.Data.List.TakeWhile
import ProjectSurvey.Walk

/-!
# Names and the paths made of them

A walk and a lookup meet in the text of a path: one puts names together with slashes, the other
takes the text apart at the slashes. **Text and names determine each other**
(`components_ofSegments`, `ofSegments_injective`), as long as every name is one that a directory can
hold (`IsName`): not empty, neither a single dot nor two, and without slash and zero. The components
of any path are such names, but for two dots, which are a step up, and for zeros
(`areComponents_components`); a path that is joined to another one adds its components
(`components_join`).
-/

namespace ProjectSurvey

namespace Text

/-! ### Pieces around one separator -/

/-- A text without the separator is one piece. -/
theorem pieces_of_not_mem {sep : Char} {cs : List Char} (h : sep ∉ cs) : pieces sep cs = [cs] := by
  induction cs with
  | nil => rfl
  | cons c cs ih =>
    rw [List.mem_cons, not_or] at h
    obtain ⟨hc, hcs⟩ := h
    rw [pieces_cons, ih hcs]
    simp [pieceStep, Ne.symm hc]

/-- The first piece ends at the first separator. -/
theorem pieces_append_cons {sep : Char} {front : List Char} (h : sep ∉ front) (cs : List Char) :
    pieces sep (front ++ sep :: cs) = front :: pieces sep cs := by
  induction front with
  | nil =>
    rw [List.nil_append, pieces_cons]
    obtain ⟨p, ps, hps⟩ := List.exists_cons_of_ne_nil (pieces_ne_nil sep cs)
    rw [hps]
    simp [pieceStep]
  | cons c front ih =>
    rw [List.mem_cons, not_or] at h
    obtain ⟨hc, hfront⟩ := h
    rw [List.cons_append, pieces_cons, ih hfront]
    simp [pieceStep, Ne.symm hc]

/-- A separator anywhere divides the pieces in two. -/
theorem pieces_append_sep (sep : Char) (front cs : List Char) :
    pieces sep (front ++ sep :: cs) = pieces sep front ++ pieces sep cs := by
  induction front with
  | nil => exact pieces_append_cons List.not_mem_nil cs
  | cons c front ih =>
    rw [List.cons_append, pieces_cons, pieces_cons, ih]
    obtain ⟨p, ps, hps⟩ := List.exists_cons_of_ne_nil (pieces_ne_nil sep front)
    rw [hps, List.cons_append]
    by_cases hc : c = sep <;> simp [pieceStep, hc]

/-- A piece holds no separator and nothing that the text does not hold. -/
theorem of_mem_pieces {sep : Char} {cs p : List Char} (h : p ∈ pieces sep cs) :
    sep ∉ p ∧ p ⊆ cs := by
  induction cs generalizing p with
  | nil =>
    rw [pieces_nil, List.mem_singleton] at h
    subst h
    exact ⟨List.not_mem_nil, List.nil_subset _⟩
  | cons c cs ih =>
    obtain ⟨q, qs, hqs⟩ := List.exists_cons_of_ne_nil (pieces_ne_nil sep cs)
    rw [hqs] at ih
    rw [pieces_cons, hqs] at h
    have hlater : ∀ {p}, p ∈ q :: qs → sep ∉ p ∧ p ⊆ c :: cs := fun hp =>
      ⟨(ih hp).1, List.subset_cons_of_subset c (ih hp).2⟩
    by_cases hc : c = sep
    · rw [pieceStep, if_pos hc, List.mem_cons] at h
      rcases h with rfl | h
      · exact ⟨List.not_mem_nil, List.nil_subset _⟩
      · exact hlater h
    · rw [pieceStep, if_neg hc, List.mem_cons] at h
      rcases h with rfl | h
      · obtain ⟨hsep, hsubset⟩ := ih List.mem_cons_self
        refine ⟨?_, List.cons_subset_cons c hsubset⟩
        rw [List.mem_cons, not_or]
        exact ⟨Ne.symm hc, hsep⟩
      · exact hlater (List.mem_cons_of_mem q h)

/-- Before the last separator stands all that is in front of it. -/
theorem beforeLast?_append_cons {sep : Char} (front : List Char) {cs : List Char}
    (h : sep ∉ cs) : beforeLast? sep (front ++ sep :: cs) = some front := by
  unfold beforeLast?
  rw [List.reverse_append, List.reverse_cons, List.append_assoc, List.dropWhile_append_of_pos]
  · simp
  · intro c hc
    rw [bne_iff_ne]
    rintro rfl
    exact h (List.mem_reverse.mp hc)

/-- Without a separator there is nothing before it. -/
theorem beforeLast?_of_not_mem {sep : Char} {cs : List Char} (h : sep ∉ cs) :
    beforeLast? sep cs = none := by
  unfold beforeLast?
  rw [List.dropWhile_eq_nil_iff.mpr]
  intro c hc
  rw [bne_iff_ne]
  rintro rfl
  exact h (List.mem_reverse.mp hc)

/-- After the last separator stands all that is behind it. -/
theorem afterLast_append_cons {sep : Char} (front : List Char) {cs : List Char} (h : sep ∉ cs) :
    afterLast sep (front ++ sep :: cs) = cs := by
  unfold afterLast
  rw [List.reverse_append, List.reverse_cons, List.append_assoc, List.takeWhile_append_of_pos]
  · simp
  · intro c hc
    rw [bne_iff_ne]
    rintro rfl
    exact h (List.mem_reverse.mp hc)

/-- A text without a separator apart, every text is split by the last one in it. -/
theorem exists_lastSplit (sep : Char) (cs : List Char) :
    sep ∉ cs ∨ ∃ front back, cs = front ++ sep :: back ∧ sep ∉ back := by
  induction cs with
  | nil => exact .inl List.not_mem_nil
  | cons c cs ih =>
    rcases ih with h | ⟨front, back, rfl, h⟩
    · by_cases hc : sep = c
      · exact .inr ⟨[], cs, by rw [hc, List.nil_append], h⟩
      · exact .inl (by simp [hc, h])
    · exact .inr ⟨c :: front, back, rfl, h⟩

/-- Without a separator all the text is after it. -/
theorem afterLast_of_not_mem {sep : Char} {cs : List Char} (h : sep ∉ cs) :
    afterLast sep cs = cs := by
  unfold afterLast
  rw [List.takeWhile_eq_self_iff.mpr, List.reverse_reverse]
  intro c hc
  rw [bne_iff_ne]
  rintro rfl
  exact h (List.mem_reverse.mp hc)

end Text

namespace Path

/-! ### Names -/

/-- What a directory can hold as a name. -/
structure IsName (name : String) : Prop where
  /-- It is not empty. -/
  nonempty : name ≠ ""
  /-- It holds no slash. -/
  noSlash : '/' ∉ name.toList
  /-- It does not hold the zero character. -/
  noZero : Char.ofNat 0 ∉ name.toList
  /-- It is not the name of the directory itself. -/
  notDot : name ≠ "."
  /-- It is not the name of the directory around it. -/
  notDots : name ≠ ".."

instance (name : String) : Decidable (IsName name) :=
  decidable_of_iff
    (name ≠ "" ∧ '/' ∉ name.toList ∧ Char.ofNat 0 ∉ name.toList ∧ name ≠ "." ∧ name ≠ "..")
    ⟨fun ⟨h₁, h₂, h₃, h₄, h₅⟩ => ⟨h₁, h₂, h₃, h₄, h₅⟩,
      fun h => ⟨h.nonempty, h.noSlash, h.noZero, h.notDot, h.notDots⟩⟩

/-- Lists of names. -/
def AreNames (names : List String) : Prop := ∀ n ∈ names, IsName n

instance (names : List String) : Decidable (AreNames names) :=
  inferInstanceAs (Decidable (∀ n ∈ names, IsName n))

/-- No names are names. -/
@[simp] theorem areNames_nil : AreNames [] := by
  intro n hn
  cases hn

/-- Names are names one by one. -/
@[simp] theorem areNames_cons {n : String} {names : List String} :
    AreNames (n :: names) ↔ IsName n ∧ AreNames names := List.forall_mem_cons

/-- Names in front of names are names. -/
@[simp] theorem areNames_append {names more : List String} :
    AreNames (names ++ more) ↔ AreNames names ∧ AreNames more := List.forall_mem_append

/-- What a path can have as a component. -/
structure IsComponent (n : String) : Prop where
  /-- It is not empty. -/
  nonempty : n ≠ ""
  /-- It holds no slash. -/
  noSlash : '/' ∉ n.toList
  /-- It is not the name of the directory itself. -/
  notDot : n ≠ "."

/-- Lists of components. -/
def AreComponents (names : List String) : Prop := ∀ n ∈ names, IsComponent n

/-- A name is a component of a path. -/
theorem IsName.isComponent {n : String} (h : IsName n) : IsComponent n :=
  ⟨h.nonempty, h.noSlash, h.notDot⟩

/-- Names are components of a path. -/
theorem AreNames.areComponents {names : List String} (h : AreNames names) : AreComponents names :=
  fun n hn => (h n hn).isComponent

/-- A name is the last segment of itself. -/
theorem IsName.lastSegment_eq {n : String} (h : IsName n) : lastSegment n = n := by
  unfold lastSegment
  rw [Text.afterLast_of_not_mem h.noSlash, String.ofList_toList]

/-! ### Segments -/

/-- No segments make the empty path. -/
@[simp] theorem ofSegments_nil : ofSegments [] = "" := String.intercalate_nil

/-- One segment makes itself. -/
@[simp] theorem ofSegments_singleton (n : String) : ofSegments [n] = n :=
  String.intercalate_singleton

/-- A segment in front of others has a slash behind it. -/
theorem ofSegments_cons {names : List String} (h : names ≠ []) (n : String) :
    ofSegments (n :: names) = n ++ "/" ++ ofSegments names :=
  String.intercalate_cons_of_ne_nil h

/-- Segments in two parts have a slash between them. -/
theorem ofSegments_append {names more : List String} (hn : names ≠ []) (hm : more ≠ []) :
    ofSegments (names ++ more) = ofSegments names ++ "/" ++ ofSegments more :=
  String.intercalate_append_of_ne_nil hn hm

/-- Every path has a segment. -/
theorem segments_ne_nil (path : String) : segments path ≠ [] := by
  unfold segments
  rw [ne_eq, List.map_eq_nil_iff]
  exact Text.pieces_ne_nil '/' _

/-- No segment holds a slash. -/
theorem noSlash_of_mem_segments {path n : String} (h : n ∈ segments path) : '/' ∉ n.toList := by
  obtain ⟨p, hp, rfl⟩ := List.mem_map.mp h
  rw [String.toList_ofList]
  exact (Text.of_mem_pieces hp).1

/-- A slash divides the segments in two. -/
theorem segments_append_slash (front back : String) :
    segments (front ++ "/" ++ back) = segments front ++ segments back := by
  have htext : (front ++ "/" ++ back).toList = front.toList ++ '/' :: back.toList := by simp
  unfold segments
  rw [htext, Text.pieces_append_sep, List.map_append]

/-- Segments are put together as texts are joined by a slash. -/
theorem ofSegments_map_ofList (ps : List (List Char)) :
    ofSegments (ps.map String.ofList) = String.ofList (Text.join ['/'] ps) := by
  induction ps with
  | nil => rfl
  | cons p ps ih =>
    cases ps with
    | nil => simp [Text.join]
    | cons q ps =>
      rw [List.map_cons, ofSegments_cons (by simp), ih, Text.join, String.ofList_append,
        String.ofList_append]

/-- A path is made of its segments. -/
theorem ofSegments_segments (path : String) : ofSegments (segments path) = path := by
  rw [segments, ofSegments_map_ofList, Text.join_pieces, String.ofList_toList]

/-- The segments of a path are the texts without slashes that it was made of. -/
theorem segments_ofSegments_of_noSlash {names : List String} (hne : names ≠ [])
    (h : ∀ n ∈ names, '/' ∉ n.toList) : segments (ofSegments names) = names := by
  induction names with
  | nil => contradiction
  | cons n names ih =>
    obtain ⟨hn, hnames⟩ := List.forall_mem_cons.mp h
    by_cases hne' : names = []
    · subst hne'
      simp [segments, Text.pieces_of_not_mem hn]
    · have hrest := ih hne' hnames
      unfold segments at hrest ⊢
      rw [ofSegments_cons hne', String.append_assoc, String.toList_append, String.toList_append,
        show "/".toList = ['/'] from rfl, List.singleton_append,
        Text.pieces_append_cons hn, List.map_cons, hrest, String.ofList_toList]

/-- The segments of a path are the components it was made of. -/
theorem segments_ofSegments {names : List String} (hne : names ≠ []) (h : AreComponents names) :
    segments (ofSegments names) = names :=
  segments_ofSegments_of_noSlash hne fun n hn => (h n hn).noSlash

/-- Components put together are taken apart again. -/
theorem AreComponents.components_ofSegments {names : List String} (h : AreComponents names) :
    components (ofSegments names) = names := by
  by_cases hne : names = []
  · subst hne
    decide
  · unfold components
    rw [segments_ofSegments hne h, List.filter_eq_self]
    intro n hn
    simp [(h n hn).nonempty, (h n hn).notDot]

/-- The components of a path are the names it was made of. -/
theorem components_ofSegments {names : List String} (h : AreNames names) :
    components (ofSegments names) = names := h.areComponents.components_ofSegments

/-- Different names make different paths. -/
theorem ofSegments_injective {names more : List String} (hn : AreNames names)
    (hm : AreNames more) (h : ofSegments names = ofSegments more) : names = more := by
  rw [← components_ofSegments hn, h, components_ofSegments hm]

/-- Names make the empty path only when there are none. -/
theorem ofSegments_eq_empty_iff {names : List String} (h : AreNames names) :
    ofSegments names = "" ↔ names = [] := by
  constructor
  · intro heq
    exact ofSegments_injective h areNames_nil (heq.trans ofSegments_nil.symm)
  · rintro rfl
    exact ofSegments_nil

/-! ### The last name -/

/-- A name in a directory stands behind the directory's segments. -/
theorem pathIn_ofSegments {names : List String} (h : AreNames names) (n : String) :
    Walk.pathIn (ofSegments names) n = ofSegments (names ++ [n]) := by
  unfold Walk.pathIn
  by_cases hne : names = []
  · subst hne
    simp
  · rw [if_neg fun heq => hne ((ofSegments_eq_empty_iff h).mp heq),
      ofSegments_append hne (List.cons_ne_nil n []), ofSegments_singleton]

/-- The last segment stands behind a slash. -/
theorem toList_ofSegments_concat {names : List String} (hne : names ≠ []) (n : String) :
    (ofSegments (names ++ [n])).toList = (ofSegments names).toList ++ '/' :: n.toList := by
  rw [ofSegments_append hne (List.cons_ne_nil n []), ofSegments_singleton, String.toList_append,
    String.toList_append, show "/".toList = ['/'] from rfl, List.append_assoc,
    List.singleton_append]

/-- The last component is the name of the path. -/
theorem name_ofSegments_concat {names : List String} {n : String}
    (h : AreComponents (names ++ [n])) : Path.name (ofSegments (names ++ [n])) = n := by
  rw [Path.name, h.components_ofSegments, List.getLastD_concat]

/-- The last segment is found behind the last slash. -/
theorem lastSegment_ofSegments_concat (names : List String) {n : String} (hn : IsName n) :
    lastSegment (ofSegments (names ++ [n])) = n := by
  by_cases hne : names = []
  · subst hne
    rw [List.nil_append, ofSegments_singleton, hn.lastSegment_eq]
  · rw [lastSegment, toList_ofSegments_concat hne, Text.afterLast_append_cons _ hn.noSlash,
      String.ofList_toList]

/-- Paths that differ in the last name only come in the order of that name. -/
theorem ofSegments_concat_lt (names : List String) {a b : String} (h : a < b) :
    ofSegments (names ++ [a]) < ofSegments (names ++ [b]) := by
  by_cases hne : names = []
  · subst hne
    simpa using h
  · rw [String.lt_iff, toList_ofSegments_concat hne, toList_ofSegments_concat hne]
    refine List.append_left_lt ?_
    show ['/'] ++ a.toList < ['/'] ++ b.toList
    exact List.append_left_lt h

/-- The parent of a path is all but its last segment. -/
theorem parent_ofSegments_concat (names : List String) {n : String} (hn : IsName n) :
    parent (ofSegments (names ++ [n])) = ofSegments names := by
  unfold parent
  by_cases hne : names = []
  · subst hne
    rw [List.nil_append, ofSegments_singleton, Text.beforeLast?_of_not_mem hn.noSlash]
    simp
  · rw [toList_ofSegments_concat hne, Text.beforeLast?_append_cons _ hn.noSlash]
    exact String.ofList_toList

/-- Which path lies directly in which other one. -/
theorem parent_ofSegments_eq_iff {names around : List String} (h : AreNames names)
    (haround : AreNames around) :
    parent (ofSegments names) = ofSegments around ∧ ofSegments names ≠ "" ↔
      names ≠ [] ∧ names.dropLast = around := by
  rw [ne_eq, ofSegments_eq_empty_iff h, and_comm]
  refine and_congr_right ?_
  intro hne
  have hlast := List.dropLast_concat_getLast hne
  rw [← hlast, areNames_append] at h
  obtain ⟨hfront, hname⟩ := h
  rw [← hlast, parent_ofSegments_concat _ (hname _ List.mem_cons_self), List.dropLast_concat]
  exact ⟨ofSegments_injective hfront haround, congrArg ofSegments⟩

/-! ### Paths from the root of the disk -/

/-- The path of a location is absolute. -/
theorem text_eq (l : Location) : l.text = "/" ++ ofSegments l := rfl

/-- The components of a location's path are the location. -/
theorem AreComponents.components_text {l : Location} (h : AreComponents l) :
    components l.text = l := by
  have hfilter := h.components_ofSegments
  unfold components segments at hfilter ⊢
  rw [text_eq, String.toList_append, show "/".toList = [] ++ ['/'] from rfl, List.append_assoc,
    List.singleton_append, Text.pieces_append_cons List.not_mem_nil, List.map_cons,
    List.filter_cons_of_neg (by decide)]
  exact hfilter

/-- So it is for a location of plain names. -/
theorem components_text {l : Location} (h : AreNames l) : components l.text = l :=
  h.areComponents.components_text

/-- Components put together do not end with a slash. -/
theorem AreComponents.getLast?_ofSegments {names : List String} (h : AreComponents names) :
    (ofSegments names).toList.getLast? ≠ some '/' := by
  by_cases hne : names = []
  · subst hne
    simp
  · rw [← List.dropLast_concat_getLast hne]
    have hname := h _ (List.getLast_mem hne)
    have hnonempty : (names.getLast hne).toList ≠ [] :=
      fun hnil => hname.nonempty (String.toList_eq_nil_iff.mp hnil)
    have hsame : (ofSegments (names.dropLast ++ [names.getLast hne])).toList.getLast? =
        (names.getLast hne).toList.getLast? := by
      by_cases hfront : names.dropLast = []
      · rw [hfront, List.nil_append, ofSegments_singleton]
      · rw [toList_ofSegments_concat hfront, List.getLast?_append, List.getLast?_cons]
        cases hq : (names.getLast hne).toList.getLast? with
        | none => exact absurd (List.getLast?_eq_none_iff.mp hq) hnonempty
        | some c => rfl
    rw [hsame]
    intro heq
    exact hname.noSlash (List.mem_of_getLast? heq)

/-- Neither do names. -/
theorem getLast?_ofSegments {names : List String} (h : AreNames names) :
    (ofSegments names).toList.getLast? ≠ some '/' := h.areComponents.getLast?_ofSegments

/-- Components put together are a relative path. -/
theorem AreComponents.isAbsolute_ofSegments {names : List String} (h : AreComponents names) :
    isAbsolute (ofSegments names) = false := by
  cases names with
  | nil => decide
  | cons n names =>
    obtain ⟨hn, -⟩ := List.forall_mem_cons.mp h
    obtain ⟨c, cs, hcs⟩ := List.exists_cons_of_ne_nil
      fun hnil => hn.nonempty (String.toList_eq_nil_iff.mp hnil)
    have hc : c ≠ '/' := by
      rintro rfl
      exact hn.noSlash (hcs ▸ List.mem_cons_self)
    have hhead : (ofSegments (n :: names)).toList.head? = some c := by
      by_cases hne : names = []
      · subst hne
        rw [ofSegments_singleton, hcs]
        rfl
      · rw [ofSegments_cons hne, String.append_assoc, String.toList_append, hcs]
        rfl
    unfold isAbsolute
    rw [hhead]
    simpa using hc

/-- So are names. -/
theorem isAbsolute_ofSegments {names : List String} (h : AreNames names) :
    isAbsolute (ofSegments names) = false := h.areComponents.isAbsolute_ofSegments

/-- The path of a location starts with a slash. -/
theorem isAbsolute_text (l : Location) : isAbsolute l.text = true := by
  unfold isAbsolute Location.text
  simp

/-- An absolute path means the same everywhere. -/
theorem join_of_isAbsolute (directory : String) {path : String} (h : isAbsolute path = true) :
    join directory path = path :=
  if_pos h

/-- A location's path joined to a directory leaves the directory out. -/
theorem join_text (directory : String) (l : Location) : join directory l.text = l.text :=
  join_of_isAbsolute directory (isAbsolute_text l)

/-- The path of a file below a root is that of the file on the disk. -/
theorem join_text_ofSegments {root names : List String} (hroot : AreNames root)
    (hne : names ≠ []) (h : AreNames names) :
    join (Location.text root) (ofSegments names) = Location.text (root ++ names) := by
  unfold join
  rw [isAbsolute_ofSegments h]
  by_cases hroot' : root = []
  · subst hroot'
    rfl
  · have hend := getLast?_ofSegments hroot
    have hlast : (Location.text root).toList.getLast? ≠ some '/' := by
      rw [text_eq, String.toList_append, List.getLast?_append]
      cases hq : (ofSegments root).toList.getLast? with
      | none =>
        rw [List.getLast?_eq_none_iff, String.toList_eq_nil_iff,
          ofSegments_eq_empty_iff hroot] at hq
        exact absurd hq hroot'
      | some c =>
        rw [hq] at hend
        exact hend
    have hnonempty : Location.text root ≠ "" := by
      rw [text_eq, ne_eq, String.append_eq_empty_iff]
      rintro ⟨h, -⟩
      exact absurd h (by decide)
    rw [if_neg Bool.false_ne_true, if_neg (not_or.mpr ⟨hnonempty, hlast⟩), text_eq, text_eq,
      ofSegments_append hroot' hne, String.append_assoc, String.append_assoc, String.append_assoc]

/-- A location has no longer a path than what stands below it. -/
theorem utf8ByteSize_text_le {l m : Location} (hl : AreNames l) (hm : AreNames m) :
    l.text.utf8ByteSize ≤ (l ++ m).text.utf8ByteSize := by
  by_cases hne : m = []
  · rw [hne, List.append_nil]
  · rw [← join_text_ofSegments hl hne hm]
    unfold join
    rw [isAbsolute_ofSegments hm, if_neg Bool.false_ne_true]
    split <;> simp only [String.utf8ByteSize_append] <;> omega

/-- There is no zero character in the path of a location of plain names. -/
theorem holdsZero_text {l : Location} (h : AreNames l) : holdsZero l.text = false := by
  have hzero : Char.ofNat 0 ∉ (ofSegments l).toList := by
    induction l with
    | nil => simp
    | cons n l ih =>
      obtain ⟨hn, hl⟩ := areNames_cons.mp h
      by_cases hne : l = []
      · subst hne
        rw [ofSegments_singleton]
        exact hn.noZero
      · rw [ofSegments_cons hne, String.toList_append, String.toList_append, List.mem_append,
          List.mem_append, not_or, not_or]
        exact ⟨⟨hn.noZero, by decide⟩, ih hl⟩
  unfold holdsZero
  rw [text_eq, String.toList_append, Bool.eq_false_iff, ne_eq, List.contains_iff_mem,
    List.mem_append, not_or]
  exact ⟨by decide, hzero⟩

/-! ### Paths with steps up -/

/-- Lists of names and steps up. -/
def AreSteps (names : List String) : Prop := ∀ n ∈ names, n = ".." ∨ IsName n

/-- A component of a path is made of characters of the path. -/
theorem of_mem_components {path n : String} (h : n ∈ components path) :
    IsComponent n ∧ n.toList ⊆ path.toList := by
  unfold components segments at h
  rw [List.mem_filter, List.mem_map] at h
  obtain ⟨⟨p, hp, rfl⟩, hn⟩ := h
  obtain ⟨hslash, hsubset⟩ := Text.of_mem_pieces hp
  rw [Bool.and_eq_true, decide_eq_true_eq, decide_eq_true_eq] at hn
  rw [String.toList_ofList]
  exact ⟨⟨hn.1, by rwa [String.toList_ofList], hn.2⟩, hsubset⟩

/-- A component without a zero character is a step: up, or to a name. -/
theorem IsComponent.isStep {n : String} (h : IsComponent n) (hzero : Char.ofNat 0 ∉ n.toList) :
    n = ".." ∨ IsName n := by
  by_cases hdots : n = ".."
  · exact .inl hdots
  · exact .inr ⟨h.nonempty, h.noSlash, hzero, h.notDot, hdots⟩

/-- What a path is taken apart into are components. -/
theorem areComponents_components (path : String) : AreComponents (components path) :=
  fun _ hn => (of_mem_components hn).1

/-- A path that holds no zero character has none among its characters. -/
theorem not_mem_of_holdsZero {path : String} (h : holdsZero path = false) :
    Char.ofNat 0 ∉ path.toList := by
  intro hmem
  unfold holdsZero at h
  rw [List.contains_iff_mem.mpr hmem] at h
  cases h

/-- The components of a path without a zero character are steps. -/
theorem areSteps_components {path : String} (h : holdsZero path = false) :
    AreSteps (components path) := by
  intro n hn
  obtain ⟨hcomponent, hsubset⟩ := of_mem_components hn
  exact hcomponent.isStep fun hzero => not_mem_of_holdsZero h (hsubset hzero)

/-- A segment is made of characters of the path it is in. -/
theorem toList_subset_ofSegments {names : List String} {n : String} (h : n ∈ names) :
    n.toList ⊆ (ofSegments names).toList := by
  induction names with
  | nil => cases h
  | cons m names ih =>
    by_cases hne : names = []
    · subst hne
      rw [List.mem_singleton.mp h, ofSegments_singleton]
      exact List.Subset.refl _
    · rw [ofSegments_cons hne, String.toList_append, String.toList_append]
      rcases List.mem_cons.mp h with rfl | h
      · rw [List.append_assoc]
        exact List.subset_append_left _ _
      · exact List.subset_append_of_subset_right _ (ih h)

/-- Components are steps when their path holds no zero character. -/
theorem areSteps_of_holdsZero_text {names : List String} (hnames : AreComponents names)
    (h : holdsZero (Location.text names) = false) : AreSteps names := by
  intro n hn
  refine (hnames n hn).isStep ?_
  intro hzero
  refine not_mem_of_holdsZero h ?_
  rw [text_eq, String.toList_append]
  exact List.mem_append_right _ (toList_subset_ofSegments hn hzero)

/-- A slash divides the components in two. -/
theorem components_of_toList {path : String} {front back : List Char}
    (h : path.toList = front ++ '/' :: back) :
    components path = components (String.ofList front) ++ components (String.ofList back) := by
  unfold components segments
  rw [h, Text.pieces_append_sep, String.toList_ofList, String.toList_ofList, List.map_append,
    List.filter_append]

/-- A path seen from a directory goes on from the components of the directory. -/
theorem components_join (directory : String) {path : String} (h : isAbsolute path = false) :
    components (join directory path) = components directory ++ components path := by
  unfold join
  rw [h, if_neg Bool.false_ne_true]
  split
  · next hend =>
    rcases hend with rfl | hend
    · rw [String.empty_append]
      rfl
    · obtain ⟨front, hfront⟩ := List.getLast?_eq_some_iff.mp hend
      have hpath : (directory ++ path).toList = front ++ '/' :: path.toList := by
        rw [String.toList_append, hfront, List.append_assoc, List.singleton_append]
      rw [components_of_toList hpath, components_of_toList hfront, String.ofList_toList]
      simp [show components (String.ofList []) = [] by decide]
  · have hpath : (directory ++ "/" ++ path).toList = directory.toList ++ '/' :: path.toList := by
      simp
    rw [components_of_toList hpath, String.ofList_toList, String.ofList_toList]

/-- A name is no absolute path. -/
theorem IsName.isAbsolute_eq_false {n : String} (hn : IsName n) : isAbsolute n = false := by
  have hrelative : isAbsolute (ofSegments [n]) = false := isAbsolute_ofSegments (by simpa using hn)
  rwa [ofSegments_singleton] at hrelative

/-- A name joined to a directory is one more component. -/
theorem components_join_name (directory : String) {n : String} (hn : IsName n) :
    components (join directory n) = components directory ++ [n] := by
  have hcomponents : components (ofSegments [n]) = [n] := components_ofSegments (by simpa using hn)
  rw [ofSegments_singleton] at hcomponents
  rw [components_join directory hn.isAbsolute_eq_false, hcomponents]

/-- A zero character in the directory stays in the joined path. -/
theorem holdsZero_join {directory path : String} (hpath : isAbsolute path = false)
    (h : holdsZero directory = true) : holdsZero (join directory path) = true := by
  unfold join
  rw [hpath, if_neg Bool.false_ne_true]
  unfold holdsZero at h ⊢
  rw [List.contains_iff_mem] at h ⊢
  split <;> simp [h]

/-- What is joined to an absolute path is absolute. -/
theorem isAbsolute_join {directory : String} (h : isAbsolute directory = true) (path : String) :
    isAbsolute (join directory path) = true := by
  unfold join
  by_cases hpath : isAbsolute path = true
  · rw [if_pos hpath, hpath]
  · rw [if_neg hpath]
    have hhead : directory.toList.head? = some '/' := by simpa [isAbsolute] using h
    unfold isAbsolute
    split <;> simp [hhead]

end Path

end ProjectSurvey
