import Mathlib.Logic.Relation
import ProjectSurvey.Proofs.Paths
import ProjectSurvey.Reference.Resolution

/-!
# Resolution as a walk

A reference is resolved by evaluating the text of a path. Here the same is said without any text: a
reference is a walk along its segments through a tree of directories, and what it means is the first
known spelling of the place where the walk ends. **Resolution is that walk and that look-up**
(`resolve_isWalk`): a walk that climbs above the root resolves to nothing, even if it comes back,
segments that lead nowhere make no difference, and the more files are known the more references
resolve.

The text of a path keeps as many steps up as the walk has climbed above the root. So the invariant
of the proof is that either text and walk are at the same place (`walkStep_eq`), or the text begins
with a step up, and then it does so for ever (`getLast?_foldl_walkStep`).
-/

namespace ProjectSurvey

namespace Path

/-! ### Paths that go down only -/

/-- What a path is made of that goes down only. -/
structure IsPlain (name : String) : Prop extends IsComponent name where
  /-- It is not the name of the directory around it. -/
  notDots : name ≠ ".."

/-- Lists of names that go down. -/
def ArePlain (names : List String) : Prop := ∀ n ∈ names, IsPlain n

instance (name : String) : Decidable (IsPlain name) :=
  decidable_of_iff (name ≠ "" ∧ '/' ∉ name.toList ∧ name ≠ "." ∧ name ≠ "..")
    ⟨fun ⟨h₁, h₂, h₃, h₄⟩ => ⟨⟨h₁, h₂, h₃⟩, h₄⟩,
      fun h => ⟨h.nonempty, h.noSlash, h.notDot, h.notDots⟩⟩

instance (names : List String) : Decidable (ArePlain names) :=
  inferInstanceAs (Decidable (∀ n ∈ names, IsPlain n))

/-- Plain names are components. -/
theorem ArePlain.areComponents {names : List String} (h : ArePlain names) : AreComponents names :=
  fun n hn => (h n hn).toIsComponent

/-- Plain names are plain without the last. -/
theorem ArePlain.dropLast {names : List String} (h : ArePlain names) : ArePlain names.dropLast :=
  fun n hn => h n (List.dropLast_subset names hn)

/-- Plain names with one behind them are plain when it is. -/
theorem arePlain_concat {names : List String} {n : String} :
    ArePlain (names ++ [n]) ↔ ArePlain names ∧ IsPlain n := by
  simp only [ArePlain, List.forall_mem_append, List.forall_mem_singleton]

/-- The directory of a file is its path without its name. -/
theorem directory_ofSegments {names : List String} (h : AreComponents names) :
    directory (ofSegments names) = ofSegments names.dropLast := by
  unfold directory
  rcases List.eq_nil_or_concat names with rfl | ⟨front, n, rfl⟩
  · simp [Text.beforeLast?_of_not_mem]
  · have hn : '/' ∉ n.toList := (h n (by simp)).noSlash
    have hfront : AreComponents front := fun m hm => h m (by simp [hm])
    rw [List.concat_eq_append, List.dropLast_concat]
    by_cases hne : front = []
    · subst hne
      simp [Text.beforeLast?_of_not_mem hn]
    · rw [toList_ofSegments_concat hne, Text.beforeLast?_append_cons _ hn]
      have hend := hfront.getLast?_ofSegments
      have htext : (ofSegments front).toList ≠ [] := by
        intro hnil
        have hcomponents := hfront.components_ofSegments
        rw [String.toList_eq_nil_iff.mp hnil] at hcomponents
        exact hne (hcomponents.symm.trans (by decide))
      -- nothing is trimmed: the text does not end with a slash
      have htrim : Text.trimRight (· == '/') (ofSegments front).toList =
          (ofSegments front).toList := by
        unfold Text.trimRight
        rw [List.getLast?_eq_head?_reverse] at hend
        cases hreverse : (ofSegments front).toList.reverse with
        | nil => exact absurd (List.reverse_eq_nil_iff.mp hreverse) htext
        | cons c cs =>
          rw [hreverse] at hend
          have hc : c ≠ '/' := by simpa using hend
          rw [List.dropWhile_cons_of_neg (by simpa using hc), ← hreverse, List.reverse_reverse]
      simp [htrim, htext]

/-- The segments of a path seen from a directory are those of the directory and its own. -/
theorem segments_join {names : List String} (h : AreComponents names) {path : String}
    (hpath : isAbsolute path = false) :
    segments (join (ofSegments names) path) = names ++ segments path ∧
      isAbsolute (join (ofSegments names) path) = false := by
  unfold join
  rw [hpath, if_neg Bool.false_ne_true]
  by_cases hne : names = []
  · subst hne
    simpa using hpath
  · have htext : ofSegments names ≠ "" := by
      intro hempty
      have hcomponents := h.components_ofSegments
      rw [hempty] at hcomponents
      exact hne (hcomponents.symm.trans (by decide))
    rw [if_neg (not_or.mpr ⟨htext, h.getLast?_ofSegments⟩)]
    constructor
    · rw [segments_append_slash, segments_ofSegments hne h]
    · have habsolute := h.isAbsolute_ofSegments
      unfold isAbsolute at habsolute ⊢
      cases htoList : (ofSegments names).toList with
      | nil => exact absurd (String.toList_eq_nil_iff.mp htoList) htext
      | cons c cs => simpa [htoList] using habsolute

/-- A path that does not start at the root has no slashes in front. -/
theorem leading_of_relative {path : String} (h : isAbsolute path = false) :
    leading path.toList = [] := by
  unfold isAbsolute at h
  unfold leading
  split <;> simp_all

/-- Which paths start at the root, by their segments. -/
theorem isAbsolute_iff (path : String) :
    isAbsolute path = true ↔ path ≠ "" ∧ (segments path).head? = some "" := by
  unfold isAbsolute segments
  rw [ne_eq, ← String.toList_eq_nil_iff]
  cases path.toList with
  | nil => simp
  | cons c cs =>
    obtain ⟨p, ps, hps⟩ := List.exists_cons_of_ne_nil (Text.pieces_ne_nil '/' cs)
    rw [Text.pieces_cons, hps]
    by_cases hc : c = '/' <;> simp [Text.pieceStep, hc]

end Path

namespace Reference

open ProjectSurvey.Path

/-! ### Walks -/

/-- One segment of a walk that has come to a place: empty segments and single dots stay, two dots go
up, which nothing does at the root. -/
def step? (place : List String) (segment : String) : Option (List String) :=
  if segment = "" ∨ segment = "." then some place
  else if segment = ".." then (if place = [] then none else some place.dropLast)
  else some (place ++ [segment])

/-- The place to which a walk comes, if it never climbs above the root. -/
def walk? (place segments : List String) : Option (List String) := segments.foldlM step? place

/-- Whether some beginning of a walk climbs above the root. -/
def Climbs (place segments : List String) : Prop :=
  ∃ before after, segments = before ++ ".." :: after ∧ walk? place before = some []

variable {place segments directory source : List String}

/-- A walk over nothing stays. -/
@[simp] theorem walk?_nil : walk? place [] = some place := rfl

/-- A walk takes its first step first. -/
@[simp] theorem walk?_cons (segment : String) :
    walk? place (segment :: segments) = (step? place segment).bind (walk? · segments) := by
  unfold walk?
  rw [List.foldlM_cons]
  rfl

/-- A walk in two parts goes the second from where the first ended. -/
theorem walk?_append (more : List String) :
    walk? place (segments ++ more) = (walk? place segments).bind (walk? · more) := by
  unfold walk?
  rw [List.foldlM_append]
  rfl

/-- An empty segment stays. -/
@[simp] theorem step?_empty : step? place "" = some place := rfl

/-- A dot stays. -/
@[simp] theorem step?_dot : step? place "." = some place := rfl

/-- A plain segment goes down. -/
theorem step?_of_isPlain {n : String} (h : IsPlain n) : step? place n = some (place ++ [n]) := by
  simp [step?, h.nonempty, h.notDot, h.notDots]

/-- Two dots go up. -/
@[simp] theorem step?_dots_concat (n : String) : step? (place ++ [n]) ".." = some place := by
  simp [step?]

/-- The only step that fails goes up from the top. -/
theorem step?_eq_none_iff {segment : String} :
    step? place segment = none ↔ segment = ".." ∧ place = [] := by
  unfold step?
  split
  · next h => rcases h with rfl | rfl <;> simp
  · split
    · next h => by_cases hplace : place = [] <;> simp [h, hplace]
    · next h => simp [h]

/-- A walk comes to a place unless it climbs above the root. -/
theorem walk?_eq_none_iff : walk? place segments = none ↔ Climbs place segments := by
  induction segments generalizing place with
  | nil => simp [Climbs]
  | cons segment segments ih =>
    rw [walk?_cons]
    cases hstep : step? place segment with
    | none =>
      obtain ⟨rfl, rfl⟩ := step?_eq_none_iff.mp hstep
      simp only [Option.bind_none, true_iff]
      exact ⟨[], segments, rfl, rfl⟩
    | some next =>
      rw [Option.bind_some, ih]
      constructor
      · rintro ⟨before, after, rfl, hbefore⟩
        exact ⟨segment :: before, after, rfl, by simp [hstep, hbefore]⟩
      · rintro ⟨before, after, heq, hbefore⟩
        cases before with
        | nil =>
          -- the first step would itself climb
          obtain ⟨rfl, rfl⟩ := List.cons.inj heq
          cases hbefore
          cases hstep
        | cons first before =>
          obtain ⟨rfl, rfl⟩ := List.cons.inj heq
          refine ⟨before, after, rfl, ?_⟩
          simpa [hstep] using hbefore

/-- A walk over plain names appends them. -/
theorem walk?_of_arePlain (h : ArePlain segments) :
    walk? place segments = some (place ++ segments) := by
  induction segments generalizing place with
  | nil => simp
  | cons n segments ih =>
    obtain ⟨hn, hsegments⟩ := List.forall_mem_cons.mp h
    simp [step?_of_isPlain hn, ih hsegments]

/-- Slashes in front of a walk lead nowhere. -/
theorem walk?_trimLeft (path : String) :
    walk? place (Path.segments (String.ofList (Text.trimLeft (· == '/') path.toList))) =
      walk? place (Path.segments path) := by
  unfold Path.segments Text.trimLeft
  rw [String.toList_ofList]
  induction path.toList with
  | nil => rfl
  | cons c cs ih =>
    by_cases hc : c = '/'
    · obtain ⟨p, ps, hps⟩ := List.exists_cons_of_ne_nil (Text.pieces_ne_nil '/' cs)
      rw [List.dropWhile_cons_of_pos (by simp [hc]), ih, Text.pieces_cons, hps]
      simp [Text.pieceStep, hc]
    · rw [List.dropWhile_cons_of_neg (by simp [hc])]

/-! ### The text and the walk -/

/-- A step from plain names ends at plain names. -/
theorem arePlain_of_step? {segment : String} {next : List String} (hplace : ArePlain place)
    (hsegment : '/' ∉ segment.toList) (h : step? place segment = some next) : ArePlain next := by
  unfold step? at h
  split at h
  · cases h
    exact hplace
  · next hstays =>
    split at h
    · split at h
      · cases h
      · cases h
        exact hplace.dropLast
    · next hdots =>
      cases h
      rw [not_or] at hstays
      exact arePlain_concat.mpr ⟨hplace, ⟨⟨hstays.1, hsegment, hstays.2⟩, hdots⟩⟩

/-- **One segment leads the text where it leads the walk**, and where the walk climbs the text keeps
a step up. -/
theorem walkStep_eq (hplace : ArePlain place) (segment : String) :
    walkStep false place.reverse segment =
      ((step? place segment).map List.reverse).getD [".."] := by
  unfold walkStep step?
  by_cases hstays : segment = "" ∨ segment = "."
  · simp [hstays]
  · rw [if_neg hstays, if_neg hstays]
    by_cases hdots : segment = ".."
    · subst hdots
      rw [if_neg (not_not_intro rfl), if_pos rfl]
      rcases List.eq_nil_or_concat place with rfl | ⟨front, n, rfl⟩
      · simp
      · have hn : n ≠ ".." := (hplace n (by simp)).notDots
        simp [hn]
    · simp [hdots]

/-- A text that begins with a step up keeps it. -/
theorem getLast?_foldl_walkStep {seen : List String} (h : seen.getLast? = some "..")
    (segments : List String) :
    (segments.foldl (walkStep false) seen).getLast? = some ".." := by
  induction segments generalizing seen with
  | nil => exact h
  | cons segment segments ih =>
    rw [List.foldl_cons]
    apply ih
    unfold walkStep
    split
    · exact h
    · split
      · cases seen with
        | nil => cases h
        | cons s rest => simpa using h
      · cases seen with
        | nil => cases h
        | cons s rest =>
          by_cases hs : s = ".."
          · simpa [hs] using h
          · cases rest with
            | nil => exact absurd (by simpa using h) hs
            | cons s' rest => simpa [hs] using h

/-- Where the walk comes to a place, so does the text. -/
theorem foldl_walkStep_of_walk? {place' : List String} (hplace : ArePlain place)
    (hsegments : ∀ s ∈ segments, '/' ∉ s.toList) (h : walk? place segments = some place') :
    segments.foldl (walkStep false) place.reverse = place'.reverse ∧ ArePlain place' := by
  induction segments generalizing place with
  | nil =>
    cases h
    exact ⟨rfl, hplace⟩
  | cons segment segments ih =>
    obtain ⟨hsegment, hrest⟩ := List.forall_mem_cons.mp hsegments
    rw [walk?_cons] at h
    obtain ⟨next, hstep, h⟩ := Option.bind_eq_some_iff.mp h
    rw [List.foldl_cons, walkStep_eq hplace, hstep]
    exact ih (arePlain_of_step? hplace hsegment hstep) hrest h

/-- Where the walk climbs above the root, the text begins with a step up. -/
theorem foldl_walkStep_of_climbs (hplace : ArePlain place)
    (hsegments : ∀ s ∈ segments, '/' ∉ s.toList) (h : Climbs place segments) :
    (segments.foldl (walkStep false) place.reverse).getLast? = some ".." := by
  obtain ⟨before, after, rfl, hbefore⟩ := h
  obtain ⟨htext, -⟩ := foldl_walkStep_of_walk? hplace
    (fun s hs => hsegments s (List.mem_append_left _ hs)) hbefore
  rw [List.foldl_append, htext, List.foldl_cons]
  exact getLast?_foldl_walkStep rfl after

/-- The text of a place. -/
def textOf (place : List String) : String := if place = [] then "." else ofSegments place

/-- Whether a path begins with a step up. -/
def GoesUp (path : String) : Prop := path = ".." ∨ "../".toList.isPrefixOf path.toList = true

/-- What starts with two dots goes up. -/
theorem goesUp_ofSegments (rest : List String) : GoesUp (ofSegments (".." :: rest)) := by
  by_cases hrest : rest = []
  · subst hrest
    exact .inl (ofSegments_singleton "..")
  · apply Or.inr
    rw [ofSegments_cons hrest, List.isPrefixOf_iff_prefix, String.toList_append]
    exact List.prefix_append _ _

/-- The text of a place does not go up. -/
theorem not_goesUp_textOf (h : ArePlain place) : ¬ GoesUp (textOf place) := by
  unfold textOf
  cases place with
  | nil => simp [GoesUp]
  | cons n rest =>
    rw [if_neg (List.cons_ne_nil n rest)]
    have hsegments := segments_ofSegments (List.cons_ne_nil n rest) h.areComponents
    have hn : n ≠ ".." := (h n List.mem_cons_self).notDots
    rintro (heq | hprefix)
    · rw [heq, show Path.segments ".." = [".."] by decide] at hsegments
      exact hn (List.cons.inj hsegments).1.symm
    · obtain ⟨cs, hcs⟩ := List.isPrefixOf_iff_prefix.mp hprefix
      unfold Path.segments at hsegments
      rw [← hcs, show "../".toList ++ cs = ['.', '.'] ++ '/' :: cs from rfl,
        Text.pieces_append_cons (by decide), List.map_cons] at hsegments
      exact hn (List.cons.inj hsegments).1.symm

/-- The path that a text without a slash in front means is the place of its walk from the root. -/
theorem normalise_eq {path : String} (hpath : isAbsolute path = false) :
    (∀ place, walk? [] (Path.segments path) = some place →
      normalise path = textOf place ∧ ArePlain place) ∧
      (Climbs [] (Path.segments path) → GoesUp (normalise path)) := by
  have hplain : ArePlain [] := fun n hn => by cases hn
  have hslash : ∀ s ∈ Path.segments path, '/' ∉ s.toList := fun s hs => noSlash_of_mem_segments hs
  have hnormalise : normalise path = if ofSegments
      ((Path.segments path).foldl (walkStep false) []).reverse = "" then "." else
        ofSegments ((Path.segments path).foldl (walkStep false) []).reverse := by
    unfold normalise
    simp [leading_of_relative hpath]
  rw [hnormalise]
  constructor
  · intro place hwalk
    obtain ⟨htext, hplace⟩ := foldl_walkStep_of_walk? hplain hslash hwalk
    rw [List.reverse_nil] at htext
    rw [htext, List.reverse_reverse]
    refine ⟨?_, hplace⟩
    unfold textOf
    by_cases hnil : place = []
    · simp [hnil]
    · have htext : ofSegments place ≠ "" := by
        intro hempty
        have hcomponents := hplace.areComponents.components_ofSegments
        rw [hempty] at hcomponents
        exact hnil (hcomponents.symm.trans (by decide))
      rw [if_neg htext, if_neg hnil]
  · intro hclimbs
    have hlast := foldl_walkStep_of_climbs hplain hslash hclimbs
    rw [List.reverse_nil, ← List.head?_reverse] at hlast
    obtain ⟨rest, hrest⟩ := List.head?_eq_some_iff.mp hlast
    rw [hrest]
    have hup := goesUp_ofSegments rest
    rwa [if_neg]
    intro hempty
    rw [hempty] at hup
    exact absurd hup (by simp [GoesUp])

/-- Where a walk starts: at the root if the reference starts with a slash, else at a directory. -/
def startOf (directory : List String) (reference : String) : List String :=
  if isAbsolute reference then [] else directory

/-- **The path that a reference means is the place to which its walk comes**, if it comes to one. -/
theorem basePath?_eq (hsource : ArePlain source) (reference : String) :
    basePath? (ofSegments source) reference =
      (walk? (startOf source.dropLast reference) (Path.segments reference)).map textOf := by
  have hjoined : ∃ joined, isAbsolute joined = false ∧
      walk? [] (Path.segments joined) =
        walk? (startOf source.dropLast reference) (Path.segments reference) ∧
      basePath? (ofSegments source) reference =
        if normalise joined = ".." ∨ "../".toList.isPrefixOf (normalise joined).toList then none
        else some (normalise joined) := by
    unfold basePath? startOf
    cases habsolute : isAbsolute reference with
    | true =>
      refine ⟨String.ofList (Text.trimLeft (· == '/') reference.toList), ?_, ?_, rfl⟩
      · unfold isAbsolute Text.trimLeft
        rw [String.toList_ofList]
        cases hdrop : reference.toList.dropWhile (· == '/') with
        | nil => rfl
        | cons c cs =>
          have hc := List.head?_dropWhile_not (· == '/') reference.toList
          rw [hdrop] at hc
          simpa using hc
      · exact walk?_trimLeft reference
    | false =>
      have hdirectory := hsource.dropLast
      obtain ⟨hsegments, hrelative⟩ := segments_join hdirectory.areComponents habsolute
      refine ⟨join (ofSegments source.dropLast) reference, hrelative, ?_, ?_⟩
      · rw [hsegments, walk?_append, walk?_of_arePlain hdirectory]
        rfl
      · rw [directory_ofSegments hsource.areComponents]
        rfl
  obtain ⟨joined, hrelative, hwalk, hbase⟩ := hjoined
  obtain ⟨hcomes, hclimbs⟩ := normalise_eq hrelative
  rw [hbase, ← hwalk]
  cases hplace : walk? [] (Path.segments joined) with
  | none => exact if_pos (hclimbs (walk?_eq_none_iff.mp hplace))
  | some place =>
    obtain ⟨htext, hplain⟩ := hcomes place hplace
    rw [htext]
    exact if_neg (not_goesUp_textOf hplain)

/-! ### What is looked up -/

/-- The spellings under which a place is looked up, in order: the place itself, the place with each
extension, and each index file in it with each extension. The root has no spellings of its own. -/
def spellings (place : List String) (profile : Option ResolutionProfile) : List String :=
  let extensions := (profile.map ResolutionProfile.extensions).getD []
  let indexNames := (profile.map ResolutionProfile.indexNames).getD []
  (if place = [] then [] else ofSegments place :: extensions.map (ofSegments place ++ ·)) ++
    indexNames.flatMap fun index => extensions.map fun ext => ofSegments (place ++ [index]) ++ ext

/-- Whether an answer is the first known one of some spellings, or none because none is known. -/
inductive IsFirstKnown (known spellings : List String) : Option String → Prop where
  /-- A spelling is known, and none before it is. -/
  | found {before after : List String} {target : String} :
      spellings = before ++ target :: after → target ∈ known → (∀ c ∈ before, c ∉ known) →
      IsFirstKnown known spellings (some target)
  /-- No spelling is known. -/
  | nothing : (∀ c ∈ spellings, c ∉ known) → IsFirstKnown known spellings none

/-- The candidates for a place are its spellings in order. -/
theorem candidates_textOf (hplace : ArePlain place) (profile : Option ResolutionProfile) :
    candidates (textOf place) profile = spellings place profile := by
  unfold textOf
  by_cases hroot : place = []
  · subst hroot
    cases profile <;> simp [candidates, spellings]
  · have hcomponents := hplace.areComponents.components_ofSegments
    have hempty : ofSegments place ≠ "" := by
      intro heq
      rw [heq] at hcomponents
      exact hroot (hcomponents.symm.trans (by decide))
    have hdot : ofSegments place ≠ "." := by
      intro heq
      rw [heq] at hcomponents
      exact hroot (hcomponents.symm.trans (by decide))
    have hindex : ∀ index, ofSegments (place ++ [index]) = ofSegments place ++ "/" ++ index := by
      intro index
      rw [ofSegments_append hroot (List.cons_ne_nil index []), ofSegments_singleton]
    cases profile <;> simp [candidates, spellings, hroot, hempty, hdot, hindex]

/-- The first of the known spellings is what the search finds. -/
theorem isFirstKnown_find? (known spellings : List String) :
    IsFirstKnown known spellings (spellings.find? fun c => known.contains c) := by
  cases hfind : spellings.find? fun c => known.contains c with
  | none =>
    apply IsFirstKnown.nothing
    simpa using hfind
  | some target =>
    obtain ⟨hknown, before, after, heq, hbefore⟩ := List.find?_eq_some_iff_append.mp hfind
    apply IsFirstKnown.found heq
    · simpa using hknown
    · simpa using hbefore

/-- Of more known files at least one is found where one of fewer was. -/
theorem isSome_of_isFirstKnown {known more spellings : List String} {answer answer' : Option String}
    (hsubset : known ⊆ more) (h : IsFirstKnown known spellings answer)
    (h' : IsFirstKnown more spellings answer') (hanswer : answer.isSome = true) :
    answer'.isSome = true := by
  cases h with
  | nothing => cases hanswer
  | found heq hknown _ =>
    cases h' with
    | found => rfl
    | nothing h => exact absurd (hsubset hknown) (h _ (by simp [heq]))

/-- A reference is resolved by walking it and looking its spellings up. -/
theorem resolve_eq (hsource : ArePlain source) (reference : String) (known : List String)
    (profile : Option ResolutionProfile) :
    resolve (ofSegments source) reference known profile =
      (walk? (startOf source.dropLast reference) (Path.segments reference)).bind fun place =>
        (spellings place profile).find? fun c => known.contains c := by
  unfold resolve
  rw [basePath?_eq hsource]
  cases hwalk : walk? (startOf source.dropLast reference) (Path.segments reference) with
  | none => rfl
  | some place =>
    have hstart : ArePlain (startOf source.dropLast reference) := by
      unfold startOf
      split
      · exact fun n hn => by cases hn
      · exact hsource.dropLast
    obtain ⟨-, hplace⟩ :=
      foldl_walkStep_of_walk? hstart (fun s hs => noSlash_of_mem_segments hs) hwalk
    rw [Option.map_some, Option.bind_some, Option.bind_some, lookUp, candidates_textOf hplace]

/-! ### Segments that lead nowhere -/

/-- Segments that lead nowhere: an empty one, a single dot, or a name and a step back up. -/
inductive IsIdle : List String → Prop where
  /-- An empty segment. -/
  | empty : IsIdle [""]
  /-- A single dot. -/
  | dot : IsIdle ["."]
  /-- A step down and up again. -/
  | detour {name : String} : IsPlain name → IsIdle [name, ".."]

/-- Putting segments that lead nowhere into a path, somewhere behind its first segment. -/
inductive PutsIn : String → String → Prop where
  /-- The segments behind the first one are parted where the idle ones are put. -/
  | behind {path first : String} {before idle after : List String} :
      Path.segments path = first :: (before ++ after) → IsIdle idle →
      PutsIn path (ofSegments (first :: (before ++ (idle ++ after))))

/-- Idle segments lead nowhere else. -/
theorem walk?_of_isIdle {idle : List String} (h : IsIdle idle) : walk? place idle = some place := by
  cases h with
  | empty => simp
  | dot => simp
  | detour hname => simp [step?_of_isPlain hname]

/-- There is no slash in an idle segment. -/
theorem noSlash_of_isIdle {idle : List String} (h : IsIdle idle) : ∀ n ∈ idle, '/' ∉ n.toList := by
  cases h with
  | empty => simp
  | dot => simp
  | detour hname => simpa using hname.noSlash

/-- **Segments that lead nowhere leave a path that is not empty what it is**: it starts where it
started and comes to where it came. -/
theorem PutsIn.keeps {path padded : String} (h : PutsIn path padded) (hpath : path ≠ "") :
    padded ≠ "" ∧ isAbsolute padded = isAbsolute path ∧
      ∀ place, walk? place (Path.segments padded) = walk? place (Path.segments path) := by
  obtain ⟨hsegments, hidle⟩ := h
  rename_i first before idle after
  have hslash : ∀ n ∈ first :: (before ++ (idle ++ after)), '/' ∉ n.toList := by
    have hown : ∀ n ∈ first :: (before ++ after), '/' ∉ n.toList := fun n hn =>
      noSlash_of_mem_segments (hsegments ▸ hn)
    simp only [List.forall_mem_cons, List.forall_mem_append] at hown ⊢
    exact ⟨hown.1, hown.2.1, noSlash_of_isIdle hidle, hown.2.2⟩
  have hpadded := segments_ofSegments_of_noSlash (List.cons_ne_nil _ _) hslash
  have hnonempty : ofSegments (first :: (before ++ (idle ++ after))) ≠ "" := by
    have hrest : before ++ (idle ++ after) ≠ [] := by cases hidle <;> simp
    rw [ofSegments_cons hrest]
    simp
  refine ⟨hnonempty, ?_, ?_⟩
  · rw [Bool.eq_iff_iff, isAbsolute_iff, isAbsolute_iff, hpadded, hsegments]
    simp [hnonempty, hpath]
  · intro place
    rw [hpadded, hsegments]
    simp only [walk?_cons, walk?_append, walk?_of_isIdle hidle, Option.bind_some]

/-! ### The main statement -/

/-- What answers to references are that resolve them by a walk from a directory. -/
structure IsWalk (directory : List String) (profile : Option ResolutionProfile)
    (answer : String → List String → Option String) : Prop where
  /-- A walk that climbs above the root finds nothing. -/
  outside : ∀ {reference}, Climbs (startOf directory reference) (Path.segments reference) →
    ∀ known, answer reference known = none
  /-- A walk that comes to a place finds the first known spelling of it. -/
  inside : ∀ {reference place},
    walk? (startOf directory reference) (Path.segments reference) = some place →
      ∀ known, IsFirstKnown known (spellings place profile) (answer reference known)
  /-- Segments that lead nowhere, however many are put in, change no answer. -/
  padded : ∀ {reference padded}, reference ≠ "" → Relation.ReflTransGen PutsIn reference padded →
    ∀ known, answer padded known = answer reference known
  /-- More known files make no answer none. -/
  grows : ∀ {known more}, known ⊆ more → ∀ reference, (answer reference known).isSome = true →
    (answer reference more).isSome = true

/-- **Resolution is a walk and a look-up.** -/
theorem resolve_isWalk (hsource : ArePlain source) (profile : Option ResolutionProfile) :
    IsWalk source.dropLast profile fun reference known =>
      resolve (ofSegments source) reference known profile := by
  have hinside : ∀ {reference place},
      walk? (startOf source.dropLast reference) (Path.segments reference) = some place →
        ∀ known, IsFirstKnown known (spellings place profile)
          (resolve (ofSegments source) reference known profile) := by
    intro reference place hwalk known
    rw [resolve_eq hsource, hwalk, Option.bind_some]
    exact isFirstKnown_find? known _
  have houtside : ∀ {reference},
      Climbs (startOf source.dropLast reference) (Path.segments reference) →
        ∀ known, resolve (ofSegments source) reference known profile = none := by
    intro reference hclimbs known
    rw [resolve_eq hsource, walk?_eq_none_iff.mpr hclimbs, Option.bind_none]
  refine ⟨houtside, hinside, ?_, ?_⟩
  · intro reference padded hnonempty hputs known
    -- one more insertion keeps what all those before it kept
    suffices h : padded ≠ "" ∧ resolve (ofSegments source) padded known profile =
        resolve (ofSegments source) reference known profile from h.2
    induction hputs with
    | refl => exact ⟨hnonempty, rfl⟩
    | tail _ hlast ih =>
      obtain ⟨hmiddle, hsame⟩ := ih
      obtain ⟨hpadded, habsolute, hwalk⟩ := hlast.keeps hmiddle
      refine ⟨hpadded, ?_⟩
      rw [← hsame, resolve_eq hsource, resolve_eq hsource, hwalk]
      unfold startOf
      rw [habsolute]
  · intro known more hsubset reference hsome
    cases hwalk : walk? (startOf source.dropLast reference) (Path.segments reference) with
    | none =>
      rw [houtside (walk?_eq_none_iff.mp hwalk)] at hsome
      cases hsome
    | some place =>
      exact isSome_of_isFirstKnown hsubset (hinside hwalk known) (hinside hwalk more) hsome

/-- The profile of a language with one extension and one name for index files. -/
def scriptProfile : ResolutionProfile := ⟨[".js"], ["index"]⟩

/-- A file in a directory of a directory, and a reference that goes up, down and up again. -/
theorem resolve_isWalk_upAndDown :
    ArePlain ["src", "ui", "menu.js"] ∧
      IsFirstKnown ["src/data/index.js", "src/data"]
        (spellings ["src", "data"] (some scriptProfile))
        (resolve "src/ui/menu.js" ".././a/../data/" ["src/data/index.js", "src/data"]
          (some scriptProfile)) ∧
      resolve "src/ui/menu.js" "../../../src/data" ["src/data"] (some scriptProfile) = none := by
  have hsource : ArePlain ["src", "ui", "menu.js"] := by decide
  have htext : ofSegments ["src", "ui", "menu.js"] = "src/ui/menu.js" := by decide
  have hwalk := resolve_isWalk hsource (some scriptProfile)
  rw [htext] at hwalk
  refine ⟨hsource, hwalk.inside (by decide) _, hwalk.outside ?_ _⟩
  exact ⟨["..", ".."], ["src", "data"], by rfl, by decide⟩

/-- **The empty reference has one segment only, and what is put behind it makes the reference start
with a slash**: it means the root then, and no longer the directory of the file. -/
theorem resolve_puttingIntoEmpty :
    ArePlain ["src", "a.js"] ∧ PutsIn "" "/." ∧
      resolve "src/a.js" "/." ["src/index.js"] (some scriptProfile) ≠
        resolve "src/a.js" "" ["src/index.js"] (some scriptProfile) := by
  have hputs : PutsIn "" (ofSegments ("" :: ([] ++ (["."] ++ [])))) :=
    .behind (by decide) .dot
  have htext : ofSegments ("" :: ([] ++ (["."] ++ []))) = "/." := by decide
  rw [htext] at hputs
  exact ⟨by decide, hputs, by decide⟩

end Reference

end ProjectSurvey
