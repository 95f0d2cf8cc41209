import Mathlib.Data.List.Chain
import ProjectSurvey.Manifest.Lines
import ProjectSurvey.Proofs.Text.Parts

/-!
# Lines of a module file of Go

A line has some words with blanks around and between them, and perhaps a comment behind (`GoLine`).
**What the reader takes from a line are its words** (`GoLine.strip_before`, `Spells.words_eq`): no
comment begins in front of the one that the line has (`GoLine.before_comment`), and no line begins
like a requirement but one whose words do (`Spells.of_keyword`). Any words can be written so
(`GoLine.ofWords`).
-/

namespace ProjectSurvey.Manifest

open Text

/-! ### Lines of words -/

/-- Whether a text is a word of a module file: not empty, and no blank and no comment in it. -/
structure IsGoWord (w : String) : Prop where
  /-- There is something to it, -/
  ne_nil : w.toList ≠ []
  /-- no blank -/
  solid : ∀ c ∈ w.toList, isBlank c = false
  /-- and no beginning of a comment. -/
  plain : ¬ "//".toList <:+: w.toList

/-- Whether a text is some words with blanks between them. -/
inductive Spells : List String → List Char → Prop
  /-- No words. -/
  | nil : Spells [] []
  /-- One word. -/
  | single {w : String} (hw : IsGoWord w) : Spells [w] w.toList
  /-- A word in front of others. -/
  | cons {w v : String} {ws : List String} {gap cs : List Char} (hw : IsGoWord w) (hne : gap ≠ [])
      (hgap : IsGap gap) (hrest : Spells (v :: ws) cs) :
      Spells (w :: v :: ws) (w.toList ++ (gap ++ cs))

/-- Whether a text is a comment behind another one, or nothing. The comment begins with the first
two slashes of a line. -/
def IsRemark (front cs : List Char) : Prop :=
  cs = [] ∨ (∃ rest, cs = '/' :: '/' :: rest) ∧ ∀ c ∈ front.getLast?, c ≠ '/'

/-- A line of a module file. -/
structure GoLine where
  /-- Its words. -/
  words : List String
  /-- What stands in front of them. -/
  indent : List Char
  /-- How they are written. -/
  core : List Char
  /-- What stands behind them. -/
  trail : List Char
  /-- The comment, with its slashes. -/
  remark : List Char
  isGap_indent : IsGap indent
  spells : Spells words core
  isGap_trail : IsGap trail
  isRemark : IsRemark (indent ++ (core ++ trail)) remark
  /-- The keyword of requirements has a space behind it, and nothing more in front of a bracket. -/
  keyword : ∀ v rest, words = "require" :: v :: rest →
    "require ".toList <+: core ∧ (v = "(" → "require (".toList <+: core)

/-- Whether the words of a line are none of a requirement on a line of its own: another word than
the keyword comes first, or nothing behind it. -/
def IsOther (ws : List String) : Prop := ∀ v rest, ws ≠ "require" :: v :: rest

/-- Words that start with another one than the keyword are no requirement. -/
theorem isOther_of_ne {w : String} {ws : List String} (h : w ≠ "require") : IsOther (w :: ws) :=
  fun _ _ heq => h (List.cons.inj heq).1

/-- A line as it is written. -/
def GoLine.text (l : GoLine) : List Char := l.indent ++ (l.core ++ l.trail) ++ l.remark

/-- Whether no two slashes stand side by side. -/
def IsUncommented (cs : List Char) : Prop := cs.IsChain fun a b => ¬ (a = '/' ∧ b = '/')

/-- A text without a double slash has no comment. -/
theorem isUncommented_of_plain {cs : List Char} (h : ¬ "//".toList <:+: cs) :
    IsUncommented cs := by
  induction cs with
  | nil => exact .nil
  | cons c cs ih =>
    refine .cons (ih fun hin => h (hin.trans (List.suffix_cons c cs).isInfix)) ?_
    rintro d hd ⟨rfl, rfl⟩
    obtain ⟨rest, rfl⟩ := List.head?_eq_some_iff.mp hd
    exact h ⟨[], rest, rfl⟩

section Gap

variable {gap cs : List Char} (h : IsGap gap)
include h

/-- A blank is no slash. -/
theorem ne_slash_of_isGap : ∀ c ∈ gap, c ≠ '/' := by
  rintro c hc rfl
  exact absurd (h '/' hc) (by decide)

/-- Blanks hold no comment. -/
theorem isUncommented_of_isGap : IsUncommented gap := by
  apply isUncommented_of_plain
  intro hin
  exact ne_slash_of_isGap h '/' (hin.subset (by decide)) rfl

/-- Blanks in front of a text add no comment, -/
theorem isUncommented_gap_append (hcs : IsUncommented cs) : IsUncommented (gap ++ cs) :=
  List.isChain_append.mpr ⟨isUncommented_of_isGap h, hcs,
    fun x hx _ _ hslash => ne_slash_of_isGap h x (List.mem_of_mem_getLast? hx) hslash.1⟩

/-- and none behind it. -/
theorem isUncommented_append_gap (hcs : IsUncommented cs) : IsUncommented (cs ++ gap) :=
  List.isChain_append.mpr ⟨hcs, isUncommented_of_isGap h,
    fun _ _ y hy hslash => ne_slash_of_isGap h y (List.mem_of_mem_head? hy) hslash.2⟩

end Gap

namespace Spells

variable {ws : List String} {core : List Char}

/-- Behind a word with others behind it comes a blank. -/
theorem head?_gap {gap cs : List Char} (hne : gap ≠ []) (hgap : IsGap gap) :
    ∀ c ∈ (gap ++ cs).head?, isBlank c = true := by
  obtain ⟨b, gap, rfl⟩ := List.exists_cons_of_ne_nil hne
  rintro c ⟨⟩
  exact hgap b List.mem_cons_self

/-- Words spelled out hold no comment. -/
theorem isUncommented (h : Spells ws core) : IsUncommented core := by
  induction h with
  | nil => exact .nil
  | single hw => exact isUncommented_of_plain hw.plain
  | @cons w v ws gap cs hw hne hgap _ ih =>
    refine List.isChain_append.mpr ⟨isUncommented_of_plain hw.plain,
      isUncommented_gap_append hgap ih, fun _ _ y hy hslash => ?_⟩
    have hblank := head?_gap hne hgap y hy
    rw [hslash.2] at hblank
    exact absurd hblank (by decide)

/-- No words are spelled by nothing. -/
theorem eq_nil (h : Spells [] core) : core = [] := by
  cases h
  rfl

/-- A single word is spelled by itself. -/
theorem eq_toList {w : String} (h : Spells [w] core) : core = w.toList := by
  cases h
  rfl

/-- Words do not start with a blank. -/
theorem isBlank_head? (h : Spells ws core) : ∀ c ∈ core.head?, isBlank c = false := by
  cases h with
  | nil => simp
  | single hw => exact fun c hc => hw.solid c (List.mem_of_mem_head? hc)
  | cons hw _ _ _ =>
    rw [List.head?_append_of_ne_nil _ hw.ne_nil]
    exact fun c hc => hw.solid c (List.mem_of_mem_head? hc)

/-- A word is spelled by something. -/
theorem ne_nil_of_cons {w : String} (h : Spells (w :: ws) core) : core ≠ [] := by
  cases h with
  | single hw => exact hw.ne_nil
  | cons hw _ _ _ => exact List.append_ne_nil_of_left_ne_nil hw.ne_nil _

/-- Words do not end with a blank. -/
theorem isBlank_getLast? (h : Spells ws core) : ∀ c ∈ core.getLast?, isBlank c = false := by
  induction h with
  | nil => simp
  | single hw => exact fun c hc => hw.solid c (List.mem_of_mem_getLast? hc)
  | cons hw _ _ hrest ih =>
    rw [← List.append_assoc, List.getLast?_append_of_ne_nil _ hrest.ne_nil_of_cons]
    exact ih

/-- The words of a line are read. -/
theorem words_eq (h : Spells ws core) : Text.words core = ws.map String.toList := by
  induction h with
  | nil => rfl
  | @single w hw =>
    have hword : Text.words (w.toList ++ []) = w.toList :: Text.words [] :=
      words_append hw.ne_nil hw.solid (by simp)
    rwa [List.append_nil] at hword
  | cons hw hne hgap _ ih =>
    rw [words_append hw.ne_nil hw.solid (head?_gap hne hgap), words_append_of_isBlank hgap, ih]
    rfl

/-- Words start with the first character of the first. -/
theorem head?_eq {w : String} (h : Spells (w :: ws) core) : core.head? = w.toList.head? := by
  cases h with
  | single _ => rfl
  | cons hw _ _ _ => exact List.head?_append_of_ne_nil _ hw.ne_nil

/-- A line that begins with the keyword of requirements and a space has that for its first word, and
another one. What comes right behind the space begins that. -/
theorem of_keyword {more : List Char} (h : Spells ws ("require".toList ++ ' ' :: more)) :
    ∃ v rest, ws = "require" :: v :: rest ∧
      (more.head? = some '(' → v.toList.head? = some '(') := by
  generalize hmore : "require".toList ++ ' ' :: more = core at h
  cases h with
  | nil => cases hmore
  | single hw =>
    have hmem : ' ' ∈ "require".toList ++ ' ' :: more := by simp
    rw [hmore] at hmem
    exact absurd (hw.solid ' ' hmem) (by decide)
  | @cons w v rest gap cs hw hne hgap hrest =>
    obtain ⟨hword, hbehind⟩ := append_inj_of_head (p := fun c => !isBlank c)
      (forall_mem_of_all (by decide))
      (by rintro c ⟨⟩; rfl) (fun c hc => by simp [hw.solid c hc])
      (fun c hc => by simp [head?_gap hne hgap c hc]) hmore
    refine ⟨v, rest, by rw [String.toList_inj.mp hword], fun hopen => ?_⟩
    obtain ⟨b, gap, rfl⟩ := List.exists_cons_of_ne_nil hne
    obtain ⟨-, rfl⟩ := List.cons.inj hbehind
    cases gap with
    | nil => exact hrest.head?_eq.symm.trans hopen
    | cons b' gap =>
      obtain rfl : b' = '(' := Option.some.inj hopen
      exact absurd (hgap '(' (by simp)) (by decide)

end Spells

/-! ### Writing a line -/

instance (w : String) : Decidable (IsGoWord w) :=
  decidable_of_iff
    (w.toList ≠ [] ∧ w.toList.all (fun c => decide (isBlank c = false)) = true ∧
      ¬ occursIn "//" w.toList = true)
    ⟨fun h => ⟨h.1, forall_mem_of_all h.2.1, mt occursIn_iff.mpr h.2.2⟩,
      fun h => ⟨h.ne_nil, by simpa using h.solid, mt occursIn_iff.mp h.plain⟩⟩

/-- Words with a space between each two. -/
def spaced : List String → List Char
  | [] => []
  | [w] => w.toList
  | w :: v :: ws => w.toList ++ ([' '] ++ spaced (v :: ws))

/-- Words with single spaces between them are spelled. -/
theorem spells_spaced {ws : List String} (h : ∀ w ∈ ws, IsGoWord w) : Spells ws (spaced ws) := by
  induction ws with
  | nil => exact .nil
  | cons w ws ih =>
    obtain ⟨hw, hws⟩ := List.forall_mem_cons.mp h
    cases ws with
    | nil => exact .single hw
    | cons v ws => exact .cons hw (by simp) (List.forall_mem_singleton.mpr rfl) (ih hws)

/-- A line as it is usually written: tabs, the words with a space between each two, and behind
another space a comment. -/
def GoLine.ofWords (depth : Nat) (ws : List String) (h : ∀ w ∈ ws, IsGoWord w)
    (comment : Option String) : GoLine where
  words := ws
  indent := List.replicate depth '\t'
  core := spaced ws
  trail := comment.elim [] fun _ => [' ']
  remark := comment.elim [] fun c => '/' :: '/' :: c.toList
  isGap_indent := isGap_replicate (by decide) depth
  spells := spells_spaced h
  isGap_trail := by cases comment <;> simp [IsGap, isBlank]
  isRemark := by
    cases comment with
    | none => exact .inl rfl
    | some c => exact .inr ⟨⟨c.toList, rfl⟩, by simp [← List.append_assoc]⟩
  keyword := by
    rintro v rest rfl
    refine ⟨⟨spaced (v :: rest), rfl⟩, ?_⟩
    rintro rfl
    cases rest with
    | nil => exact ⟨[], rfl⟩
    | cons w rest => exact ⟨' ' :: spaced (w :: rest), rfl⟩

/-! ### What is read of a line -/

namespace GoLine

variable (l : GoLine)

/-- Before its comment a line is its indent, its core and its trail. -/
theorem before_comment : before "//" l.text = l.indent ++ (l.core ++ l.trail) := by
  have hplain : IsUncommented (l.indent ++ (l.core ++ l.trail)) :=
    isUncommented_gap_append l.isGap_indent
      (isUncommented_append_gap l.isGap_trail l.spells.isUncommented)
  have hremark := l.isRemark
  unfold text
  generalize l.indent ++ (l.core ++ l.trail) = front at hplain hremark ⊢
  have hnone : ∀ shown hidden, front = shown ++ hidden → hidden ≠ [] →
      ¬ "//".toList <+: hidden ++ l.remark := by
    rintro shown hidden rfl hne ⟨more, hmore⟩
    obtain ⟨x, hidden, rfl⟩ := List.exists_cons_of_ne_nil hne
    have hslashes : '/' :: '/' :: more = x :: (hidden ++ l.remark) := hmore
    clear hmore
    obtain ⟨rfl, hmore⟩ := List.cons.inj hslashes
    cases hidden with
    | nil =>
      -- the first slash would stand in front of the comment
      rcases hremark with hnil | ⟨-, hlast⟩
      · simp [hnil] at hmore
      · exact hlast '/' (by simp) rfl
    | cons y hidden =>
      obtain ⟨rfl, -⟩ : '/' = y ∧ more = hidden ++ l.remark := List.cons.inj hmore
      have hchain := (List.isChain_append.mp hplain).2.1
      exact (List.isChain_cons_cons.mp hchain).1 ⟨rfl, rfl⟩
  rw [before_append hnone]
  rcases hremark with hnil | ⟨⟨rest, hslashes⟩, -⟩
  · rw [hnil, before_nil (by decide), List.append_nil]
  · have hall : before "//" ("//".toList ++ rest) = [] := before_prefix (by decide) rest
    rw [hslashes]
    exact (congrArg (front ++ ·) hall).trans (List.append_nil front)

/-- What is read of a line are its words. -/
theorem strip_before : strip (before "//" l.text) = l.core := by
  rw [before_comment]
  exact (trim_append l.core l.isGap_indent l.isGap_trail).trans
    (trim_eq_self l.spells.isBlank_head? l.spells.isBlank_getLast?)

/-- A line with another first word, or with no second one, does not begin like a requirement. -/
theorem after?_keyword (h : IsOther l.words) (back : List Char) :
    after? ("require".toList ++ ' ' :: back) l.core = none := by
  rw [Option.eq_none_iff_forall_not_mem]
  intro rest hrest
  have hcore : l.core = "require".toList ++ ' ' :: (back ++ rest) :=
    (after?_eq_some_iff.mp hrest).trans (List.append_assoc ..)
  obtain ⟨v, others, hwords, -⟩ := (hcore ▸ l.spells).of_keyword
  exact h v others hwords

/-- A line with words has a core. -/
theorem isEmpty_core {w : String} {ws : List String} (h : l.words = w :: ws) :
    l.core.isEmpty = false :=
  List.isEmpty_eq_false_iff.mpr (h ▸ l.spells).ne_nil_of_cons

/-- What is declared by a text of two words. -/
theorem declared_eq {cs : List Char} {path version : String}
    (h : Text.words cs = [path, version].map String.toList) (found : Assoc String String) :
    goStep.declared found cs = Assoc.insert path version found := by
  unfold goStep.declared
  rw [h]
  simp

end GoLine

end ProjectSurvey.Manifest
