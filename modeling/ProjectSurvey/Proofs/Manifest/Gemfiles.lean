import Mathlib.Data.List.Nodup
import ProjectSurvey.Proofs.Manifest.GemLines
import ProjectSurvey.Proofs.Text.Lines

/-!
# Gemfiles

A Gemfile is a tree of lines and blocks (`Gemfile`), and a gem stands inside some blocks, of which
the groups may be for development (`GemPlace.IsForDevelopment`). The reader keeps one flag, which
every line that ends a block clears, whatever that block was. **A gem is put among those for
development exactly if a group around it mentions development or tests and no block inside that
group has ended before it** (`GemPlace.isRead`, `ofGemfile_reads`), so that it is put where it
belongs exactly if that agrees with what the groups around it say. Behind an inner block a gem of a
group for development is taken for one of the product (`not_isPutRight_behind_block`).
-/

namespace ProjectSurvey.Manifest

open Text

/-! ### The blocks of a Gemfile -/

/-- A Gemfile: lines one after another, and blocks with more of them inside. -/
inductive Gemfile
  | nil
  | note (n : GemNote) (rest : Gemfile)
  | gem (g : GemLine) (rest : Gemfile)
  | block (o : GemOpening) (body : Gemfile) (e : GemClosing) (rest : Gemfile)

/-- A block around a place in a Gemfile. -/
structure GemScope where
  opening : GemOpening
  /-- Whether a block inside it has ended before that place. -/
  interrupted : Bool

/-- A gem with the blocks around it, the innermost first. -/
structure GemPlace where
  gem : GemLine
  scopes : List GemScope

/-- A block behind the end of another one inside it. -/
def GemScope.interrupt (s : GemScope) : GemScope := { s with interrupted := true }

namespace Gemfile

/-- The lines of a Gemfile. -/
def lines : Gemfile → List (List Char)
  | nil => []
  | note n rest => n.text :: lines rest
  | gem g rest => g.text :: lines rest
  | block o body e rest => o.text :: lines body ++ e.text :: lines rest

/-- The gems of a Gemfile that stands inside some blocks. -/
def placesIn : List GemScope → Gemfile → List GemPlace
  | _, nil => []
  | ss, note _ rest => placesIn ss rest
  | ss, gem g rest => ⟨g, ss⟩ :: placesIn ss rest
  | ss, block o body _ rest =>
    placesIn (⟨o, false⟩ :: ss) body ++ placesIn (ss.map GemScope.interrupt) rest

/-- The gems of a Gemfile. -/
def places (file : Gemfile) : List GemPlace := file.placesIn []

end Gemfile

/-! ### What a gem is for -/

/-- The characters of the name of a group. -/
def isGroupChar (c : Char) : Bool := isWord c || c == '-'

/-- Whether a name stands in a text, and not as part of a longer one. -/
def StandsIn (name : String) (cs : List Char) : Prop :=
  ∃ front back, cs = front ++ (name.toList ++ back) ∧
    (∀ c ∈ front.getLast?, isGroupChar c = false) ∧ ∀ c ∈ back.head?, isGroupChar c = false

/-- Whether a block is a group that names development or tests. -/
def GemOpening.IsForDevelopment (o : GemOpening) : Prop :=
  o.keyword = "group" ∧ ∃ name ∈ ["development", "test"], StandsIn name o.arguments

/-- A group that names one of the two mentions it. -/
theorem GemOpening.IsForDevelopment.mentions {o : GemOpening} (h : o.IsForDevelopment) :
    o.mentions = true := by
  obtain ⟨hkeyword, name, hname, front, back, hargs, -, -⟩ := h
  have hoccurs : occursIn name o.core = true := by
    rw [occursIn_iff, core, hargs]
    exact ⟨o.keyword.toList ++ front, back ++ "do".toList, by simp⟩
  unfold GemOpening.mentions
  rw [hkeyword]
  simp only [List.mem_cons, List.not_mem_nil, or_false] at hname
  rcases hname with rfl | rfl <;> simp [hoccurs]

/-- Whether the flag of the reader is up inside some blocks. -/
def opensIn (ss : List GemScope) : Bool := ss.any fun s => s.opening.mentions && !s.interrupted

/-- An interrupted block keeps the flag up no longer. -/
theorem opensIn_interrupt (ss : List GemScope) : opensIn (ss.map GemScope.interrupt) = false := by
  simp [opensIn, GemScope.interrupt]

/-- The flag is up inside a block that mentions development or tests, or where it was up before. -/
theorem opensIn_cons (o : GemOpening) (ss : List GemScope) :
    opensIn (⟨o, false⟩ :: ss) = (o.mentions || opensIn ss) := by
  simp [opensIn]

namespace GemPlace

/-- Whether a gem is for development: a group around it says so. -/
def IsForDevelopment (p : GemPlace) : Prop := ∃ s ∈ p.scopes, s.opening.IsForDevelopment

/-- Whether a gem is read as one for development: a group around it mentions development or tests,
and no block inside that has ended before. -/
def isRead (p : GemPlace) : Bool := opensIn p.scopes

/-- Whether a gem is put where it belongs, with its first version. -/
structure IsPutRight (p : GemPlace) (m : Manifest) : Prop where
  development : p.gem.pair ∈ m.development ↔ p.IsForDevelopment
  production : p.gem.pair ∈ m.production ↔ ¬ p.IsForDevelopment

end GemPlace

/-! ### The run over a file -/

/-- The manifest with some more gems. -/
def withGems (places : List GemPlace) (m : Manifest) : Manifest :=
  places.foldl (fun m p => withGem p.isRead p.gem.pair m) m

/-- **The reader puts each gem where the flag of its place says.** The induction goes over the tree:
inside the blocks `ss` the flag is `opensIn ss`, and behind a block it is down. -/
theorem foldl_gemStep (file : Gemfile) (ss : List GemScope) (m : Manifest) :
    ∃ flag, file.lines.foldl gemStep (opensIn ss, m) = (flag, withGems (file.placesIn ss) m) := by
  induction file generalizing ss m with
  | nil => exact ⟨opensIn ss, rfl⟩
  | note n rest ih =>
    rw [Gemfile.lines, List.foldl_cons, gemStep_of_note]
    exact ih ss m
  | gem g rest ih =>
    rw [Gemfile.lines, List.foldl_cons, gemStep_of_gem]
    exact ih ss (withGem (opensIn ss) g.pair m)
  | block o body e rest ihbody ihrest =>
    obtain ⟨flag, hbody⟩ := ihbody (⟨o, false⟩ :: ss) m
    obtain ⟨last, hrest⟩ := ihrest (ss.map GemScope.interrupt)
      (withGems (body.placesIn (⟨o, false⟩ :: ss)) m)
    rw [opensIn_interrupt] at hrest
    refine ⟨last, ?_⟩
    rw [Gemfile.lines, List.cons_append, List.foldl_cons, gemStep_of_opening, ← opensIn_cons,
      List.foldl_append, hbody, List.foldl_cons, gemStep_of_closing, hrest]
    simp only [Gemfile.placesIn, withGems, List.foldl_append]

/-- The gems of a file are added to the list of development or to that of production, in order. -/
theorem withGems_eq (places : List GemPlace) (m : Manifest) : withGems places m =
    { m with
      development := (places.filter (·.isRead)).foldl
        (fun t p => Assoc.insert p.gem.pair.1 p.gem.pair.2 t) m.development
      production := (places.filter (!·.isRead)).foldl
        (fun t p => Assoc.insert p.gem.pair.1 p.gem.pair.2 t) m.production } := by
  induction places generalizing m with
  | nil => rfl
  | cons p places ih =>
    refine (ih (withGem p.isRead p.gem.pair m)).trans ?_
    cases hread : p.isRead <;> simp [withGem, hread]

/-! ### What is read -/

/-- What is read of the gems of a file. -/
structure IsReadAs (m : Manifest) (places : List GemPlace) : Prop where
  /-- The gems for development are those whose place says so to the reader, in their order. -/
  development : m.development = (places.filter (·.isRead)).map (·.gem.pair)
  /-- All others are for the product. -/
  production : m.production = (places.filter (!·.isRead)).map (·.gem.pair)
  /-- A gem is put where it belongs exactly if the reader and the groups around it agree, -/
  isPutRight_iff : ∀ p ∈ places, p.IsPutRight m ↔ (p.isRead = true ↔ p.IsForDevelopment)
  /-- as they do if no block has ended inside of one around it before, and every group around it
  that mentions development or tests names one of them. -/
  isPutRight_of_plain : ∀ p ∈ places,
    (∀ s ∈ p.scopes, s.interrupted = false ∧
      (s.opening.mentions = true → s.opening.IsForDevelopment)) → p.IsPutRight m

/-- Where no block has ended inside the others and only development is mentioned, the flag is
right. -/
theorem GemPlace.isRead_iff_of_plain {p : GemPlace}
    (h : ∀ s ∈ p.scopes, s.interrupted = false ∧
      (s.opening.mentions = true → s.opening.IsForDevelopment)) :
    p.isRead = true ↔ p.IsForDevelopment := by
  unfold isRead opensIn IsForDevelopment
  rw [List.any_eq_true]
  constructor
  · rintro ⟨s, hs, hread⟩
    rw [Bool.and_eq_true] at hread
    exact ⟨s, hs, (h s hs).2 hread.1⟩
  · rintro ⟨s, hs, hmeant⟩
    exact ⟨s, hs, by simp [hmeant.mentions, (h s hs).1]⟩

section Distinct

variable {places : List GemPlace} (hnames : (places.map fun p => p.gem.name.text).Nodup)
include hnames

/-- Different gems come one after another. -/
theorem foldl_insert_filter (keep : GemPlace → Bool) :
    (places.filter keep).foldl (fun t p => Assoc.insert p.gem.pair.1 p.gem.pair.2 t) [] =
      (places.filter keep).map (·.gem.pair) := by
  apply Assoc.foldl_insert_of_nodup
  exact (List.filter_sublist.map fun p : GemPlace => p.gem.name.text).nodup hnames

/-- A gem is among those kept exactly when it is one to keep. -/
theorem pair_mem_iff {p : GemPlace} (hp : p ∈ places) (keep : GemPlace → Bool) :
    p.gem.pair ∈ (places.filter keep).map (·.gem.pair) ↔ keep p = true := by
  rw [List.mem_map]
  constructor
  · rintro ⟨q, hq, hsame⟩
    obtain ⟨hq, hkeep⟩ := List.mem_filter.mp hq
    rwa [← List.inj_on_of_nodup_map hnames hq hp (congrArg Prod.fst hsame)]
  · exact fun hkeep => ⟨p, List.mem_filter.mpr ⟨hp, hkeep⟩, rfl⟩

/-- Added to a blank manifest the gems make up its two lists. -/
theorem withGems_blank (name : String) : withGems places (blank name) =
    { blank name with
      development := (places.filter (·.isRead)).map (·.gem.pair)
      production := (places.filter (!·.isRead)).map (·.gem.pair) } := by
  rw [withGems_eq, ← foldl_insert_filter hnames (·.isRead),
    ← foldl_insert_filter hnames (!·.isRead)]
  rfl

/-- A gem is put right exactly when the flag of its place is. -/
theorem isPutRight_iff {p : GemPlace} (hp : p ∈ places) (name : String) :
    p.IsPutRight (withGems places (blank name)) ↔ (p.isRead = true ↔ p.IsForDevelopment) := by
  have hdevelopment := pair_mem_iff hnames hp (·.isRead)
  have hproduction := pair_mem_iff hnames hp (!·.isRead)
  rw [Bool.not_eq_true'] at hproduction
  rw [withGems_blank hnames]
  constructor
  · exact fun h => hdevelopment.symm.trans h.development
  · intro h
    refine ⟨hdevelopment.trans h, hproduction.trans ?_⟩
    rw [← h, Bool.not_eq_true]

end Distinct

/-- **What is read of a Gemfile with different gems.** -/
theorem ofGemfile_reads (file : Gemfile) {text : List Char}
    (hnames : (file.places.map fun p => p.gem.name.text).Nodup)
    (htext : BreaksInto text file.lines) : IsReadAs (ofGemfile text) file.places := by
  have hread : ofGemfile text = withGems file.places (blank "Gemfile") := by
    obtain ⟨flag, hrun⟩ := foldl_gemStep file [] (blank "Gemfile")
    unfold ofGemfile
    rw [lines_eq_of_breaksInto htext]
    exact congrArg Prod.snd hrun
  have hall := withGems_blank hnames "Gemfile"
  rw [hread]
  exact ⟨congrArg development hall, congrArg production hall,
    fun p hp => isPutRight_iff hnames hp "Gemfile",
    fun p hp hplain => (isPutRight_iff hnames hp "Gemfile").mpr
      (GemPlace.isRead_iff_of_plain hplain)⟩

/-! ### Behind an inner block -/

/-- An opening with two blanks of indentation at each depth. -/
def GemOpening.indented (depth : Nat) (keyword arguments : String)
    (hkeyword : keyword ∈ ["group", "platforms", "source"])
    (hhead : ∃ c ∈ arguments.toList.head?, isWord c = false)
    (hlast : ∃ c ∈ arguments.toList.getLast?, isWord c = false) : GemOpening :=
  ⟨List.replicate (2 * depth) ' ', keyword, arguments.toList, [],
    isGap_replicate rfl _, hkeyword, hhead, hlast, List.forall_mem_nil _⟩

/-- A gem without a version. -/
def GemLine.indented (depth : Nat) (name : Quoted) : GemLine where
  indent := List.replicate (2 * depth) ' '
  gap := [' ']
  name := name
  version := none
  tail := []
  isGap_indent := isGap_replicate rfl _
  gap_ne_nil := List.cons_ne_nil _ _
  isGap_gap := List.forall_mem_singleton.mpr rfl
  bare _ front back c rest heq := by simp at heq

def GemClosing.indented (depth : Nat) : GemClosing :=
  ⟨List.replicate (2 * depth) ' ', [], isGap_replicate rfl _, List.forall_mem_nil _⟩

/-- A group for development. -/
def developmentGroup : GemOpening :=
  .indented 0 "group" " :development " (by decide) ⟨' ', rfl, rfl⟩ ⟨' ', rfl, rfl⟩

/-- The group of the example names development. -/
theorem isForDevelopment_developmentGroup : developmentGroup.IsForDevelopment :=
  ⟨rfl, "development", by decide, [' ', ':'], [' '], rfl, by rintro c ⟨⟩; rfl, by rintro c ⟨⟩; rfl⟩

/-- A gem that stands behind an inner block of the group. -/
def gemBehind : GemLine := .indented 1 ⟨'\'', "b", rfl, by decide, forall_mem_of_all (by decide)⟩

/-- A group for development with a block inside, and a gem behind that. -/
def nestedGemfile : Gemfile :=
  .block developmentGroup
    (.block (.indented 1 "platforms" " :ruby " (by decide) ⟨' ', rfl, rfl⟩ ⟨' ', rfl, rfl⟩)
      (.gem (.indented 2 ⟨'\'', "a", rfl, by decide, forall_mem_of_all (by decide)⟩) .nil)
      (.indented 1) (.gem gemBehind .nil))
    (.indented 0) .nil

/-- It is written like this. -/
def nestedText : String :=
  "group :development do\n  platforms :ruby do\n    gem 'a'\n  end\n  gem 'b'\nend\n"

/-- Its text breaks into the lines of the file. -/
theorem breaksInto_nestedText : BreaksInto nestedText.toList nestedGemfile.lines := by
  have hone : ∀ l ∈ nestedGemfile.lines, IsOneLine l := by decide
  have htext : nestedText.toList = nestedGemfile.lines.flatMap (· ++ ['\n']) := by
    decide
  exact htext ▸ breaksInto_feeds hone

/-- The text is read as the gems of the file, each by the flag of its place. -/
theorem ofGemfile_reads_nested : IsReadAs (ofGemfile nestedText.toList) nestedGemfile.places :=
  ofGemfile_reads nestedGemfile (by decide) breaksInto_nestedText

/-- **Not every gem is put where it belongs**: one that stands in a group for development behind the
end of an inner block is taken for one of the product. -/
theorem not_isPutRight_behind_block :
    ¬ ∀ (file : Gemfile) (text : List Char), (file.places.map fun p => p.gem.name.text).Nodup →
      BreaksInto text file.lines → ∀ p ∈ file.places, p.IsPutRight (ofGemfile text) := by
  intro h
  have hright := h nestedGemfile nestedText.toList (by decide) breaksInto_nestedText
    ⟨gemBehind, [⟨developmentGroup, true⟩]⟩ (List.mem_cons_of_mem _ List.mem_cons_self)
  have hmem := hright.development.mpr
    ⟨⟨developmentGroup, true⟩, List.mem_singleton_self _, isForDevelopment_developmentGroup⟩
  have hread : (ofGemfile nestedText.toList).development = [("a", "*")] := by decide
  rw [hread] at hmem
  exact absurd hmem (by decide)

end ProjectSurvey.Manifest
