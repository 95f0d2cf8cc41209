import ProjectSurvey.Proofs.Configuration.Loading
import ProjectSurvey.Proofs.Text.Integers

/-!
# The numbers of options

Three options are numbers with a least value: the depth of the walk, the size of the files that are
read and the lines of an oversized file. A value of the configuration file is one of them if it is
an integer or a text that writes one (`StandsFor`). **What is in range is taken over and whatever
else stands there counts as not made** (`Resolves`), so that the options of every configuration are
usable, and they stay so whatever a caller puts above them (`IsUsable.of_reaches`): a depth of less
than one is refused, and apart from that wishes change what they name and nothing else
(`IsOverridden`).
-/

namespace ProjectSurvey

namespace Configuration

open Yaml

/-! ### The settings of a file -/

/-- The mapping that a text means, if it means one. -/
def mappingOf? (text : List Char) : Option Document :=
  if (Text.strip text).isEmpty then none
  else (Document.ofText text).toOption.filter fun d => d.isTable d.root

/-- The mapping in the configuration file for a path, if there is one. -/
def mappingAt? (disk : Entry) (path : String) : Option Document := do
  let file ← (filePath disk path).toOption
  let l ← (disk.resolve file).toOption
  mappingOf? (← (disk.readText l.text).toOption)

/-- The value of a setting of a mapping, if there is one. -/
def settingOf? (d : Option Document) (part key : String) : Option Value :=
  d.bind fun d => setting d part key

/-- What integer a value stands for: an integer for itself and a text for the one it writes. -/
inductive StandsFor : Value → Int → Prop where
  | integer (n : Int) : StandsFor (.int n) n
  | text {s : String} {n : Int} : Text.WritesInteger s.toList n → StandsFor (.text s) n

/-- The integer of a setting is the one that its value stands for. -/
theorem integer?_eq_some_iff {v : Option Value} {n : Int} :
    integer? v = some n ↔ ∃ w, v = some w ∧ StandsFor w n := by
  constructor
  · intro h
    unfold integer? at h
    split at h
    · cases h
      exact ⟨_, rfl, .integer n⟩
    · exact ⟨_, rfl, .text (Text.integer?_eq_some_iff.mp h)⟩
    · cases h
  · rintro ⟨w, rfl, hw⟩
    cases hw with
    | integer => rfl
    | text hs => exact Text.integer?_eq_some_iff.mpr hs

/-- Whether the numbers of a configuration are those of a mapping, if there is one. -/
structure HasNumbers (c : Configuration) (d : Option Document) : Prop where
  /-- The depth, -/
  maxDepth : c.maxDepth = integer? (settingOf? d "analysis" "max_depth")
  /-- the size -/
  maxFileSize : c.maxFileSize = integer? (settingOf? d "analysis" "max_file_size")
  /-- and the lines. -/
  oversizedLines : c.oversizedLines = integer? (settingOf? d "rules" "oversized_file_lines")

/-- The empty configuration has no numbers, as no text has. -/
theorem hasNumbers_empty : empty.HasNumbers none := ⟨rfl, rfl, rfl⟩

/-- The numbers of a configuration are those of the mapping it is made of. -/
theorem hasNumbers_ofDocument {d : Document} {c : Configuration} (h : ofDocument d = .ok c) :
    c.HasNumbers d := by
  unfold ofDocument at h
  dsimp only at h
  obtain ⟨_, -, h⟩ := bind_eq_ok_iff.mp h
  -- Whether there are names to pass over instead decides how what follows is written.
  cases honly : (d.get? d.root "analysis").bind fun v => d.get? v "ignore_override"
  all_goals
    rw [honly] at h
    simp only [bind_eq_ok_iff] at h
  case none =>
    obtain ⟨_, -, _, -, _, -, _, -, h⟩ := h
    cases h
    exact ⟨rfl, rfl, rfl⟩
  case some v =>
    obtain ⟨_, -, _, -, _, -, _, -, _, -, h⟩ := h
    cases h
    exact ⟨rfl, rfl, rfl⟩

/-- The numbers of a configuration are those of its text. -/
theorem hasNumbers_ofText {text : List Char} {c : Configuration} (h : ofText text = .ok c) :
    c.HasNumbers (mappingOf? text) := by
  have hcomes := comesTo_ofText text
  rw [h] at hcomes
  unfold mappingOf?
  cases hcomes with
  | blank hblank =>
    rw [if_pos hblank]
    exact hasNumbers_empty
  | @nothing d hblank hmeans htruthy =>
    rw [if_neg (by simp [hblank]), hmeans]
    cases htable : d.isTable d.root with
    | false => simpa [Except.toOption, Option.filter, htable] using hasNumbers_empty
    | true =>
      have hempty := ofDocument_of_empty (get?_eq_none_of_not_truthy htable htruthy)
      simpa [Except.toOption, Option.filter, htable] using hasNumbers_ofDocument hempty
  | mapping hblank hmeans htruthy htable hd =>
    rw [if_neg (by simp [hblank]), hmeans]
    simpa [Except.toOption, Option.filter, htable] using hasNumbers_ofDocument hd

/-- A file that is not there is not read. -/
theorem readText_of_existsAt {disk : Entry} {path : String} (h : disk.existsAt path = .ok false) :
    (disk.readText path).toOption = none := by
  unfold Entry.existsAt Entry.seek at h
  unfold Entry.readText Entry.readOctets
  cases hlocate : disk.locate true path with
  | error f => rfl
  | ok p =>
    rw [hlocate] at h
    cases h

/-- The numbers of a configuration are those of its file. -/
theorem hasNumbers_ofFile {disk : Entry} {l : Location} {c : Configuration}
    (h : ofFile disk l = .ok c) :
    c.HasNumbers ((disk.readText l.text).toOption.bind mappingOf?) := by
  unfold ofFile at h
  split at h
  · cases h
  · cases h
  · next hread =>
    rw [hread]
    exact hasNumbers_ofText h

/-- **The numbers of a configuration that is loaded are those of the mapping in the file.** -/
theorem hasNumbers_of_load {disk : Entry} {path : String} {c : Configuration}
    (h : load disk path = .ok c) : c.HasNumbers (mappingAt? disk path) := by
  unfold load at h
  unfold mappingAt?
  split at h
  · cases h
  · next hfile =>
    rw [hfile]
    split at h
    · cases h
    · next l hl =>
      have hthere : c.HasNumbers ((disk.readText l.text).toOption.bind mappingOf?) := by
        split at h
        · cases h
        · next hexists =>
          cases h
          rw [readText_of_existsAt hexists]
          exact hasNumbers_empty
        · split at h
          · cases h
          · next hc =>
            cases h
            exact hasNumbers_ofFile hc
      simpa [Except.toOption, hl] using hthere

end Configuration

namespace Options

/-! ### Numbers in range -/

open ProjectSurvey.Configuration (StandsFor)

/-- What number comes of a setting with a least and a usual value. -/
structure Resolves (least usual : Int) (v : Option Yaml.Value) (n : Int) : Prop where
  /-- An integer in range is taken over. -/
  takenOver : ∀ w m, v = some w → StandsFor w m → least ≤ m → n = m
  /-- If there is none, the usual value counts. -/
  usual : (∀ w m, v = some w → StandsFor w m → m < least) → n = usual

/-- A setting with a least value resolves as it should, whatever its value is. -/
theorem resolves_atLeast (least usual : Int) (key : String) (v : Option Yaml.Value) :
    Resolves least usual v (atLeast least key (Configuration.integer? v) usual).1 := by
  unfold atLeast
  constructor
  · intro w m hv hm hleast
    rw [Configuration.integer?_eq_some_iff.mpr ⟨w, hv, hm⟩]
    exact congrArg Prod.fst (if_neg (Int.not_lt.mpr hleast))
  · intro hout
    cases hread : Configuration.integer? v with
    | none => rfl
    | some m =>
      obtain ⟨w, hv, hm⟩ := Configuration.integer?_eq_some_iff.mp hread
      exact congrArg Prod.fst (if_pos (hout w m hv hm))

/-- What a setting resolves to is not below the least value, if the usual one is not. -/
theorem atLeast_ge (least : Int) (key : String) (value : Option Int) {usual : Int}
    (h : least ≤ usual) : least ≤ (atLeast least key value usual).1 := by
  unfold atLeast
  cases value with
  | none => exact h
  | some n =>
    dsimp only
    split
    · exact h
    · rename_i hn
      exact Int.not_lt.mp hn

/-- A number with the least value one is below a bound that the usual value is below if and only if
the value given is, when there is one. -/
theorem natAbs_atLeast_one_lt_iff {usual : Int} {b : Nat} (husual : usual.natAbs < b) (key : String)
    (value : Option Int) :
    (atLeast 1 key value usual).1.natAbs < b ↔ ∀ n, value = some n → n < b := by
  unfold atLeast
  cases value with
  | none => exact iff_of_true husual fun n hn => absurd hn nofun
  | some n =>
    simp only [Option.some.injEq, forall_eq']
    split
    · exact iff_of_true husual (by omega)
    · dsimp only
      omega

/-- Whether options can be used: the numbers are in range, and no name to pass over stands twice. -/
structure IsUsable (o : Options) : Prop where
  /-- The walk gets to the root, -/
  maxDepth : 1 ≤ o.maxDepth
  /-- a size is one, -/
  maxFileSize : 0 ≤ o.maxFileSize
  /-- and an oversized file has lines. -/
  oversizedLines : 1 ≤ o.oversizedLines
  /-- The names are a set. -/
  nodup : o.ignoreDirectories.Nodup

/-- The options of every configuration are usable. -/
theorem isUsable_ofConfiguration (c : Configuration) : (ofConfiguration c).1.IsUsable where
  maxDepth := atLeast_ge 1 _ _ (by decide)
  maxFileSize := atLeast_ge 0 _ _ (by decide)
  oversizedLines := atLeast_ge 1 _ _ (by decide)
  nodup := Text.nodup_distinct _

/-! ### Wishes -/

/-- What wishes make of options. -/
structure IsOverridden (o : Options) (w : Overrides) (o' : Options) : Prop where
  /-- A depth that is wished for counts, -/
  maxDepth : o'.maxDepth = w.maxDepth.getD o.maxDepth
  /-- and so does what is said of the cache. -/
  cache : o'.cache = w.cache.getD o.cache
  /-- Names to pass over come to the others, or to those wished for instead. -/
  mem_ignoreDirectories : ∀ name, name ∈ o'.ignoreDirectories ↔
    name ∈ w.ignoreOnly.getD o.ignoreDirectories ∨ name ∈ w.ignore
  /-- Without wishes for names the names stay, -/
  ignoreDirectories : w.ignoreOnly = none → w.ignore = [] →
    o'.ignoreDirectories = o.ignoreDirectories
  /-- and everything else stays. -/
  others : o' = { o with
    maxDepth := o'.maxDepth, ignoreDirectories := o'.ignoreDirectories, cache := o'.cache }

/-- Options that come of others by wishes, one after the other. -/
inductive Reaches (o : Options) : Options → Prop where
  | refl : Reaches o o
  | step {o' o'' : Options} {w : Overrides} : Reaches o o' → o'.override? w = some o'' →
      Reaches o o''

variable {o o' : Options} {w : Overrides}

/-- **Wishes are refused if they are for a depth of less than one, and only then.** -/
theorem override?_eq_none_iff : o.override? w = none ↔ ∃ n, w.maxDepth = some n ∧ n < 1 := by
  unfold override?
  cases hdepth : w.maxDepth with
  | none => simp
  | some n => simp

/-- What comes of wishes that are not refused. -/
theorem override?_eq_some_iff : o.override? w = some o' ↔ (∀ n ∈ w.maxDepth, 1 ≤ n) ∧
    o' = { o with
      maxDepth := w.maxDepth.getD o.maxDepth
      ignoreDirectories :=
        Text.distinct ((w.ignoreOnly.map Text.distinct).getD o.ignoreDirectories ++ w.ignore)
      cache := w.cache.getD o.cache } := by
  unfold override?
  cases hdepth : w.maxDepth with
  | none => simp [eq_comm]
  | some n =>
    have hrefused : ¬ n < 1 ↔ 1 ≤ n := Int.not_lt
    simp [eq_comm, hrefused]

/-- Options that are overridden differ in what was asked for only. -/
theorem IsUsable.isOverridden (h : o.IsUsable) (hw : o.override? w = some o') :
    o.IsOverridden w o' := by
  obtain ⟨-, rfl⟩ := override?_eq_some_iff.mp hw
  constructor
  case maxDepth | cache | others => rfl
  case mem_ignoreDirectories =>
    intro name
    rw [Text.mem_distinct, List.mem_append]
    cases w.ignoreOnly with
    | none => rfl
    | some names => exact or_congr_left Text.mem_distinct
  case ignoreDirectories =>
    intro honly hignore
    rw [honly, hignore, List.append_nil]
    exact Text.distinct_of_nodup h.nodup

/-- Wishes leave usable options usable. -/
theorem IsUsable.override? (h : o.IsUsable) (hw : o.override? w = some o') : o'.IsUsable := by
  obtain ⟨hwish, rfl⟩ := override?_eq_some_iff.mp hw
  refine ⟨?_, h.maxFileSize, h.oversizedLines, Text.nodup_distinct _⟩
  cases hdepth : w.maxDepth with
  | none => exact h.maxDepth
  | some n => exact hwish n hdepth

/-- Whatever usable options are changed into by overriding is usable. -/
theorem IsUsable.of_reaches (h : o.IsUsable) (hreaches : o.Reaches o') : o'.IsUsable := by
  induction hreaches with
  | refl => exact h
  | step _ hw ih => exact ih.override? hw

open ProjectSurvey.Configuration in
/-- **The options of a configuration are usable, whatever the file holds and whatever is wished
for.** -/
theorem usable_of_load {disk : Entry} {path : String} {c : Configuration}
    (h : load disk path = .ok c) :
    (Resolves 1 defaultDepth (settingOf? (mappingAt? disk path) "analysis" "max_depth")
        (ofConfiguration c).1.maxDepth ∧
      Resolves 0 defaultFileSize (settingOf? (mappingAt? disk path) "analysis" "max_file_size")
        (ofConfiguration c).1.maxFileSize ∧
      Resolves 1 defaultOversized (settingOf? (mappingAt? disk path) "rules" "oversized_file_lines")
        (ofConfiguration c).1.oversizedLines) ∧
      ∀ o, (ofConfiguration c).1.Reaches o → o.IsUsable ∧ ∀ w,
        (o.override? w = none ↔ ∃ n, w.maxDepth = some n ∧ n < 1) ∧
        ∀ o', o.override? w = some o' → o.IsOverridden w o' := by
  have hnumbers := hasNumbers_of_load h
  refine ⟨⟨?_, ?_, ?_⟩, fun o hreaches => ?_⟩
  · rw [← show (atLeast 1 "analysis.max_depth" c.maxDepth defaultDepth).1 =
      (ofConfiguration c).1.maxDepth from rfl, hnumbers.maxDepth]
    exact resolves_atLeast ..
  · rw [← show (atLeast 0 "analysis.max_file_size" c.maxFileSize defaultFileSize).1 =
      (ofConfiguration c).1.maxFileSize from rfl, hnumbers.maxFileSize]
    exact resolves_atLeast ..
  · rw [← show (atLeast 1 "rules.oversized_file_lines" c.oversizedLines defaultOversized).1 =
      (ofConfiguration c).1.oversizedLines from rfl, hnumbers.oversizedLines]
    exact resolves_atLeast ..
  · have husable : o.IsUsable := (isUsable_ofConfiguration c).of_reaches hreaches
    exact ⟨husable, fun w => ⟨override?_eq_none_iff, fun o' hw => husable.isOverridden hw⟩⟩

/-- A configuration with a text that writes an integer, a truth value and an integer that is out of
range. -/
def numbersText : List Char :=
  ("analysis:\n  max_depth: ' +1_2 '\n  max_file_size: true\n" ++
    "rules:\n  oversized_file_lines: -5\n").toList

/-- The disk with that configuration. -/
def numbersDisk : Entry := Configuration.fileDisk (Text.Utf8.encode numbersText)

/-- What the settings of the file stand for. -/
theorem integer?_numbersDisk :
    let value := Configuration.settingOf? (Configuration.mappingAt? numbersDisk "/")
    Configuration.integer? (value "analysis" "max_depth") = some 12 ∧
      Configuration.integer? (value "analysis" "max_file_size") = none ∧
      Configuration.integer? (value "rules" "oversized_file_lines") = some (-5) := by
  have htest : (Configuration.mappingAt? numbersDisk "/").any (fun d =>
      Configuration.integer? (Configuration.setting d "analysis" "max_depth") == some 12 &&
      (Configuration.integer? (Configuration.setting d "analysis" "max_file_size")).isNone &&
      Configuration.integer? (Configuration.setting d "rules" "oversized_file_lines") ==
        some (-5)) = true := by decide +kernel
  obtain ⟨d, hd, h⟩ := (Option.any_eq_true _ _).mp htest
  rw [Bool.and_eq_true, Bool.and_eq_true, beq_iff_eq, beq_iff_eq, Option.isNone_iff_eq_none] at h
  rw [hd]
  exact ⟨h.1.1, h.1.2, h.2⟩

open ProjectSurvey.Configuration in
/-- The text is taken over, and the other two numbers are the usual ones; a depth of nothing is
refused even after another one was wished for. -/
theorem usable_of_load_numbersText : ∃ c, load numbersDisk "/" = .ok c ∧
    (ofConfiguration c).1.maxDepth = 12 ∧
    (ofConfiguration c).1.maxFileSize = defaultFileSize ∧
    (ofConfiguration c).1.oversizedLines = defaultOversized ∧
    ∃ o, (ofConfiguration c).1.override? ⟨some 3, ["x"], some ["y"], none⟩ = some o ∧ o.IsUsable ∧
      "x" ∈ o.ignoreDirectories ∧ o.override? ⟨some 0, [], none, none⟩ = none := by
  have htest : (load numbersDisk "/").toOption.any (fun _ => true) = true := by decide +kernel
  obtain ⟨c, hc, -⟩ := exists_of_any_toOption htest
  obtain ⟨htwelve, hnone, hfive⟩ := integer?_numbersDisk
  obtain ⟨⟨hdepth, hsize, hlines⟩, hall⟩ := usable_of_load hc
  refine ⟨c, hc, ?_, ?_, ?_, ?_⟩
  · obtain ⟨v, hv, hstands⟩ := integer?_eq_some_iff.mp htwelve
    exact hdepth.takenOver v 12 hv hstands (by decide)
  · refine hsize.usual fun v m hv hm => ?_
    rw [integer?_eq_some_iff.mpr ⟨v, hv, hm⟩] at hnone
    cases hnone
  · refine hlines.usual fun v m hv hm => ?_
    rw [integer?_eq_some_iff.mpr ⟨v, hv, hm⟩] at hfive
    cases hfive
    decide
  · obtain ⟨o, ho⟩ : ∃ o,
        (ofConfiguration c).1.override? ⟨some 3, ["x"], some ["y"], none⟩ = some o := ⟨_, rfl⟩
    obtain ⟨-, hwish⟩ := hall _ .refl
    have hnames := ((hwish _).2 o ho).mem_ignoreDirectories
    obtain ⟨husable, hrefused⟩ := hall o (.step .refl ho)
    exact ⟨o, ho, husable, (hnames "x").mpr (.inr (by decide)),
      (hrefused _).1.mpr ⟨0, rfl, by decide⟩⟩

end Options

end ProjectSurvey
