import ProjectSurvey.Proofs.Manifest.GoLines
import ProjectSurvey.Proofs.Text.Lines

/-!
# Module files of Go

A module file is a row of directives: remarks, requirements, one to a line or in blocks, and lines
and blocks of other kinds (`GoDirective`). **The packages that are read are those that are required,
each with the version that is required last** (`ofGoMod_requires`): a line does to the state of the
reader what its words say (`goStep_of_require`, `goStep_of_entry`, `goStep_of_other`), so that
behind every directive the reader is outside of all blocks again (`goRun_directive`).
-/

namespace ProjectSurvey.Manifest

open Text

/-! ### The step over a line -/

section Steps

variable {l : GoLine} {inBlock : Bool} {found : Assoc String String}

/-- A line is read by its core alone. -/
theorem goStep_eq (l : GoLine) (inBlock : Bool) (found : Assoc String String) :
    goStep (inBlock, found) l.text =
      if l.core.isEmpty then (inBlock, found)
      else if (after? "require (".toList l.core).isSome then (true, found)
      else if inBlock && l.core == [')'] then (false, found)
      else
        match after? "require ".toList l.core, inBlock with
        | some rest, _ => (inBlock, goStep.declared found rest)
        | none, true => (inBlock, goStep.declared found l.core)
        | none, false => (inBlock, found) := by
  rw [← l.strip_before]
  rfl

/-- A blank line changes nothing. -/
theorem goStep_of_nil (h : l.words = []) : goStep (inBlock, found) l.text = (inBlock, found) := by
  have hcore : l.core = [] := (h ▸ l.spells).eq_nil
  rw [goStep_eq, hcore]
  rfl

/-- A block of requirements is opened. -/
theorem goStep_of_open (h : l.words = ["require", "("]) :
    goStep (inBlock, found) l.text = (true, found) := by
  obtain ⟨rest, hrest⟩ := (l.keyword "(" [] h).2 rfl
  rw [goStep_eq, l.isEmpty_core h, if_neg Bool.false_ne_true, after?_eq_some_iff.mpr hrest.symm]
  rfl

/-- A bracket closes a block of either kind. -/
theorem goStep_of_close (h : l.words = [")"]) :
    goStep (inBlock, found) l.text = (false, found) := by
  have hcore : l.core = ")".toList := (h ▸ l.spells).eq_toList
  rw [goStep_eq, hcore]
  cases inBlock <;> rfl

/-- A requirement on a line of its own is read, inside a block and outside. -/
theorem goStep_of_require {path version : String} (h : l.words = ["require", path, version])
    (hpath : path.toList.head? ≠ some '(') :
    goStep (inBlock, found) l.text = (inBlock, Assoc.insert path version found) := by
  obtain ⟨rest, hrest⟩ := (l.keyword path [version] h).1
  have hcore : l.core = "require".toList ++ ' ' :: rest := hrest.symm
  have hopen : after? "require (".toList l.core = none := by
    rw [Option.eq_none_iff_forall_not_mem]
    intro more hmore
    obtain ⟨v, others, hwords, hhead⟩ := (after?_eq_some_iff.mp hmore ▸ l.spells).of_keyword
    obtain ⟨rfl, -⟩ : path = v ∧ [version] = others := by simpa [h] using hwords
    exact hpath (hhead rfl)
  have hwords : words rest = [path, version].map String.toList := by
    have hall := l.spells.words_eq
    rw [hcore, words_append (by decide) (forall_mem_of_all (by decide)) (by rintro c ⟨⟩; rfl),
      words_cons_of_isBlank (by decide), h] at hall
    exact (List.cons.inj hall).2
  have hclose : (l.core == [')']) = false := by
    rw [hcore]
    rfl
  rw [goStep_eq, l.isEmpty_core h, if_neg Bool.false_ne_true, hopen, hclose, Bool.and_false,
    after?_eq_some_iff.mpr hrest.symm]
  exact congrArg (inBlock, ·) (GoLine.declared_eq hwords found)

/-- A requirement inside a block is read. -/
theorem goStep_of_entry {path version : String} (h : l.words = [path, version])
    (hpath : path ≠ "require") :
    goStep (true, found) l.text = (true, Assoc.insert path version found) := by
  have hkeyword : IsOther l.words := h ▸ isOther_of_ne hpath
  have hclose : (l.core == [')']) = false := by
    rw [beq_eq_false_iff_ne]
    intro heq
    have hwords := l.spells.words_eq
    rw [heq, h] at hwords
    exact absurd (congrArg List.length hwords) (Nat.ne_of_beq_eq_false rfl)
  rw [goStep_eq, l.isEmpty_core h, if_neg Bool.false_ne_true,
    show after? "require (".toList l.core = none from l.after?_keyword hkeyword ['('],
    show after? "require ".toList l.core = none from l.after?_keyword hkeyword [], hclose]
  exact congrArg (true, ·) (GoLine.declared_eq (l.spells.words_eq.trans (congrArg _ h)) found)

/-- Outside of a block nothing else is read. -/
theorem goStep_of_other (h : IsOther l.words) :
    goStep (false, found) l.text = (false, found) := by
  rw [goStep_eq, show after? "require (".toList l.core = none from l.after?_keyword h ['('],
    show after? "require ".toList l.core = none from l.after?_keyword h []]
  simp

end Steps

/-! ### Directives -/

/-- A package that is required, with its version. -/
structure GoRequirement where
  path : String
  version : String
  ne_require : path ≠ "require"
  head?_ne : path.toList.head? ≠ some '('

/-- A directive of a module file. -/
inductive GoDirective
  /-- A line with a comment only, or with nothing on it. -/
  | remark
  /-- A requirement on a line of its own. -/
  | requirement (r : GoRequirement)
  /-- A block of requirements, perhaps with remarks among them. -/
  | requirements (entries : List (Option GoRequirement))
  /-- A line that begins with another keyword, as `module`, `go`, `toolchain` and `replace` are. -/
  | other (keyword : String) (hkeyword : keyword ≠ "require") (arguments : List String)
  /-- A block behind another keyword, as `replace`, `exclude` and `retract` are. -/
  | others (keyword : String) (hkeyword : keyword ≠ "require") (entries : List (List String))
      (hentries : ∀ e ∈ entries, IsOther e)

/-- The words on the line of an entry. -/
def GoRequirement.entryWords : Option GoRequirement → List String
  | none => []
  | some r => [r.path, r.version]

/-- What a requirement requires. -/
def GoRequirement.pair (r : GoRequirement) : String × String := (r.path, r.version)

namespace GoDirective

/-- The words on each line of a directive. -/
def lines : GoDirective → List (List String)
  | remark => [[]]
  | requirement r => [["require", r.path, r.version]]
  | requirements entries => ["require", "("] :: entries.map GoRequirement.entryWords ++ [[")"]]
  | other keyword _ arguments => [keyword :: arguments]
  | others keyword _ entries _ => [keyword, "("] :: entries ++ [[")"]]

/-- What a directive requires. -/
def required : GoDirective → List (String × String)
  | requirement r => [r.pair]
  | requirements entries => (entries.filterMap id).map GoRequirement.pair
  | remark | other .. | others .. => []

end GoDirective

/-! ### The run over a file -/

/-- What is read of some lines. -/
def goRun (s : Bool × Assoc String String) (ls : List GoLine) : Bool × Assoc String String :=
  ls.foldl (fun s l => goStep s l.text) s

/-- In a block each entry that is a requirement is declared. -/
theorem goRun_entries {entries : List (Option GoRequirement)} {ls : List GoLine}
    (h : ls.map GoLine.words = entries.map GoRequirement.entryWords) (found : Assoc String String) :
    goRun (true, found) ls =
      (true, Assoc.update found ((entries.filterMap id).map GoRequirement.pair)) := by
  induction entries generalizing ls found with
  | nil =>
    obtain rfl := List.map_eq_nil_iff.mp h
    rfl
  | cons entry entries ih =>
    obtain ⟨l, ls, rfl, hl, hls⟩ := List.map_eq_cons_iff.mp h
    cases entry with
    | none =>
      rw [goRun, List.foldl_cons, goStep_of_nil hl]
      exact ih hls found
    | some r =>
      rw [goRun, List.foldl_cons, goStep_of_entry hl r.ne_require]
      exact ih hls (Assoc.insert r.path r.version found)

/-- Directives other than requirements declare nothing. -/
theorem goRun_others {entries : List (List String)} {ls : List GoLine}
    (h : ls.map GoLine.words = entries) (hentries : ∀ e ∈ entries, IsOther e)
    (found : Assoc String String) : goRun (false, found) ls = (false, found) := by
  subst h
  rw [List.forall_mem_map] at hentries
  induction ls with
  | nil => rfl
  | cons l ls ih =>
    obtain ⟨hl, hls⟩ := List.forall_mem_cons.mp hentries
    rw [goRun, List.foldl_cons, goStep_of_other hl]
    exact ih hls

/-- A block between its first line and the bracket that closes it. -/
theorem goRun_block {first : List String} {entries : List (List String)} {ls : List GoLine}
    (h : ls.map GoLine.words = first :: entries ++ [[")"]]) :
    ∃ l between close, ls = l :: between ++ [close] ∧ l.words = first ∧
      between.map GoLine.words = entries ∧ close.words = [")"] := by
  obtain ⟨front, back, rfl, hfront, hback⟩ := List.map_eq_append_iff.mp h
  obtain ⟨l, between, rfl, hl, hbetween⟩ := List.map_eq_cons_iff.mp hfront
  obtain ⟨close, none, rfl, hclose, hnone⟩ := List.map_eq_cons_iff.mp hback
  obtain rfl := List.map_eq_nil_iff.mp hnone
  exact ⟨l, between, close, rfl, hl, hbetween, hclose⟩

/-- **Behind a directive the reader is outside of all blocks again, with what the directive
requires.** -/
theorem goRun_directive (d : GoDirective) {ls : List GoLine} (h : ls.map GoLine.words = d.lines)
    (found : Assoc String String) :
    goRun (false, found) ls = (false, Assoc.update found d.required) := by
  cases d with
  | remark =>
    exact goRun_others h (List.forall_mem_singleton.mpr nofun) found
  | requirement r =>
    obtain ⟨l, rfl, hl⟩ := List.map_eq_singleton_iff.mp h
    exact goStep_of_require hl r.head?_ne
  | requirements entries =>
    obtain ⟨l, between, close, rfl, hl, hbetween, hclose⟩ := goRun_block h
    have hentries := goRun_entries hbetween found
    rw [goRun] at hentries ⊢
    rw [List.cons_append, List.foldl_cons, goStep_of_open hl, List.foldl_append, hentries]
    exact goStep_of_close hclose
  | other keyword hkeyword arguments =>
    exact goRun_others h (List.forall_mem_singleton.mpr (isOther_of_ne hkeyword)) found
  | others keyword hkeyword entries hentries =>
    refine goRun_others h ?_ found
    rw [GoDirective.lines, List.forall_mem_append, List.forall_mem_cons, List.forall_mem_singleton]
    exact ⟨⟨isOther_of_ne hkeyword, hentries⟩, isOther_of_ne (by decide)⟩

/-- A file declares what its directives require, in their order. -/
theorem goRun_file (file : List GoDirective) {ls : List GoLine}
    (h : ls.map GoLine.words = file.flatMap GoDirective.lines) (found : Assoc String String) :
    goRun (false, found) ls = (false, Assoc.update found (file.flatMap GoDirective.required)) := by
  induction file generalizing ls found with
  | nil =>
    obtain rfl := List.map_eq_nil_iff.mp h
    rfl
  | cons d file ih =>
    obtain ⟨front, back, rfl, hfront, hback⟩ := List.map_eq_append_iff.mp h
    have hd := goRun_directive d hfront found
    rw [goRun] at hd ⊢
    rw [List.foldl_append, hd]
    refine (ih hback _).trans ?_
    simp [Assoc.update, List.foldl_append]

/-- Whether a table is what pairs make where a later value takes the place of an earlier one: the
keys in the order in which they come first, each with its last value. -/
structure HoldsLast (t : Assoc String String) (pairs : List (String × String)) : Prop where
  keys_eq : Assoc.keys t = (pairs.map Prod.fst).eraseDups
  get?_eq (key : String) :
    Assoc.get? key t = ((pairs.filter fun p => decide (p.1 = key)).getLast?).map Prod.snd

/-- **The packages that are read of a module file are those that its directives require**, in the
order in which they come first, each with the version that is required last; lines and blocks of
other kinds, remarks and comments add nothing. -/
theorem ofGoMod_requires (file : List GoDirective) {ls : List GoLine} {text : List Char}
    (hlines : ls.map GoLine.words = file.flatMap GoDirective.lines)
    (htext : BreaksInto text (ls.map GoLine.text)) :
    HoldsLast (ofGoMod text).production (file.flatMap GoDirective.required) := by
  have hrun : (ofGoMod text).production = Assoc.ofPairs (file.flatMap GoDirective.required) := by
    have hfile := congrArg Prod.snd (goRun_file file hlines [])
    rw [goRun, ← List.foldl_map] at hfile
    unfold ofGoMod
    rw [lines_eq_of_breaksInto htext]
    exact hfile
  rw [hrun]
  exact ⟨Assoc.keys_ofPairs _, fun key => Assoc.get?_ofPairs key _⟩

/-- A module file with a package that is required twice, and one that is only replaced. -/
def goModSample : List GoDirective :=
  [.other "module" (by decide) ["example.org/m"],
   .requirements [some ⟨"a.io/x", "v1.0.0", by decide, by decide⟩, none,
     some ⟨"b.io/y", "v2.0.0", by decide, by decide⟩],
   .others "replace" (by decide) [["c.io/z", "=>", "./z"]]
     (List.forall_mem_singleton.mpr (isOther_of_ne (by decide))),
   .requirement ⟨"a.io/x", "v1.1.0", by decide, by decide⟩]

/-- Its lines. -/
def goModLines : List GoLine :=
  [.ofWords 0 ["module", "example.org/m"] (by decide) none,
   .ofWords 0 ["require", "("] (by decide) none,
   .ofWords 1 ["a.io/x", "v1.0.0"] (by decide) (some " indirect"),
   .ofWords 1 [] (by decide) (some " later"),
   .ofWords 1 ["b.io/y", "v2.0.0"] (by decide) none,
   .ofWords 0 [")"] (by decide) none,
   .ofWords 0 ["replace", "("] (by decide) none,
   .ofWords 1 ["c.io/z", "=>", "./z"] (by decide) none,
   .ofWords 0 [")"] (by decide) none,
   .ofWords 0 ["require", "a.io/x", "v1.1.0"] (by decide) none]

/-- They are written like this. -/
def goModText : String :=
  "module example.org/m\nrequire (\n\ta.io/x v1.0.0 // indirect\n\t // later\n" ++
    "\tb.io/y v2.0.0\n)\nreplace (\n\tc.io/z => ./z\n)\nrequire a.io/x v1.1.0\n"

/-- A module that is required twice keeps its first place and gets its last version. -/
theorem ofGoMod_requires_later : HoldsLast (ofGoMod goModText.toList).production
    [("a.io/x", "v1.0.0"), ("b.io/y", "v2.0.0"), ("a.io/x", "v1.1.0")] := by
  have hlines : goModLines.map GoLine.words = goModSample.flatMap GoDirective.lines := rfl
  have hone : ∀ l ∈ goModLines.map GoLine.text, IsOneLine l := by decide
  have htext : goModText.toList = (goModLines.map GoLine.text).flatMap (· ++ ['\n']) := by
    decide +kernel
  exact ofGoMod_requires goModSample hlines (htext ▸ breaksInto_feeds hone)

end ProjectSurvey.Manifest
