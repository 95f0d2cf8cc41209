import ProjectSurvey.Configuration.Starter
import ProjectSurvey.Proofs.Configuration
import ProjectSurvey.Proofs.Disk.Straight
import ProjectSurvey.Proofs.Octets

/-!
# What the text of a configuration comes to

A configuration in printed lines is read from its file as it stands (`ofFile_of_isKept`), so that
what it configures is a matter of its characters (`exists_of_configures`). **The configuration that
a project is given to start with leaves the directory for output as it was**
(`exists_ofText_starterText`).
-/

namespace ProjectSurvey.Configuration

open Entry

/-! ### Printed lines -/

/-- A configuration in printed lines is read as it stands. -/
theorem ofFile_of_isKept {disk : Entry} {l : Location} {text : List Char} {time : Int}
    (hl : Path.AreNames l) (hcheck : checkPath l.text = .ok ())
    (hkept : ∀ c ∈ text, Text.IsKept c)
    (hat : disk.reach? l = some (.file (Text.Utf8.encode text) time)) :
    ofFile disk l = ofText text := by
  have hread : disk.readOctets l.text = .ok (Text.Utf8.encode text) := by
    rw [readOctets_text_of_file hl hat, hcheck]
    rfl
  unfold ofFile
  rw [readText_of_isKept hkept hread]

/-- What printed lines configure, tested. -/
def configures (text : List Char) (p : Configuration → Bool) : Bool :=
  text.all (fun c => Text.isPrinted c || c == '\n') && !(Text.strip text).isEmpty &&
    (Yaml.Document.ofText text).toOption.any fun d =>
      d.isTable d.root && (ofDocument d).toOption.any p

/-- Whether a text can be kept and is a mapping that is such a configuration. -/
structure Configures (text : List Char) (d : Yaml.Document) (c : Configuration) : Prop where
  /-- It is made of printed lines, -/
  kept : ∀ ch ∈ text, Text.IsKept ch
  /-- is not blank, -/
  notBlank : (Text.strip text).isEmpty = false
  /-- means something, -/
  means : Yaml.Document.ofText text = .ok d
  /-- which is a mapping, -/
  isTable : d.isTable d.root = true
  /-- and all settings in it can be shown. -/
  shows : ofDocument d = .ok c

/-- What passes the test is a mapping, and a configuration of the kind that was tested for. -/
theorem exists_of_configures {text : List Char} {p : Configuration → Bool}
    (h : configures text p = true) : ∃ d c, Configures text d c ∧ p c = true := by
  unfold configures at h
  rw [Bool.and_eq_true, Bool.and_eq_true, Bool.not_eq_true'] at h
  obtain ⟨⟨hprinted, hblank⟩, h⟩ := h
  cases hmeans : Yaml.Document.ofText text with
  | error f =>
    rw [hmeans] at h
    cases h
  | ok d =>
    rw [hmeans] at h
    obtain ⟨htable, hc⟩ := Bool.and_eq_true_iff.mp h
    cases hof : ofDocument d with
    | error f =>
      rw [hof] at hc
      cases hc
    | ok c =>
      rw [hof] at hc
      exact ⟨d, c, ⟨Text.isKept_of_all hprinted, hblank, hmeans, htable, hof⟩, hc⟩

/-! ### The first configuration -/

/-- The text of the first configuration is its lines, each with its end. -/
theorem toList_starterText : starterText.toList =
    starterLines.flatMap fun line => line.toList ++ ['\n'] := by
  rw [starterText, String.toList_join, List.flatMap_map]
  refine List.flatMap_congr ?_
  intro line _
  exact String.toList_append

/-- The first configuration is made of printed lines. -/
theorem isKept_starterText : ∀ c ∈ starterText.toList, Text.IsKept c := by
  have hall : (starterLines.flatMap fun line => line.toList ++ ['\n']).all
      (fun c => Text.isPrinted c || c == '\n') = true := by decide +kernel
  rw [toList_starterText]
  exact Text.isKept_of_all hall

/-- The first configuration says nothing new about the directory for output. -/
theorem exists_ofText_starterText :
    ∃ c, ofText starterText.toList = .ok c ∧ c.outputDirectory = defaultOutput := by
  have hmeans : (ofText (starterLines.flatMap fun line => line.toList ++ ['\n'])).toOption.map
      outputDirectory = some defaultOutput := by decide +kernel
  rw [toList_starterText]
  generalize ofText _ = r at hmeans ⊢
  cases r with
  | error f => cases hmeans
  | ok c => exact ⟨c, rfl, Option.some.inj hmeans⟩

/-! ### Configurations of unusual kinds -/

/-- A configuration with values of unusual kinds. -/
def oddText : String :=
  "analysis:\n  max_depth: [9]\n  ignore: [1, .5, yes, null]\nrules: 7\noutput:\n  directory: 5\n"

/-- A value of another kind than the one looked for counts as left out, and a number for a directory
as its digits. -/
theorem exists_of_oddText : ∃ d c, Configures oddText.toList d c ∧ c.outputDirectory = "5" ∧
    c.cache = none ∧ c.maxDepth = none ∧ c.oversizedLines = none := by
  have htest : configures oddText.toList (fun c => c.outputDirectory == "5" && c.cache.isNone &&
    c.maxDepth.isNone && c.oversizedLines.isNone) = true := by decide +kernel
  obtain ⟨d, c, hc, h⟩ := exists_of_configures htest
  rw [Bool.and_eq_true, Bool.and_eq_true, Bool.and_eq_true, beq_iff_eq, Option.isNone_iff_eq_none,
    Option.isNone_iff_eq_none, Option.isNone_iff_eq_none] at h
  obtain ⟨⟨⟨hdirectory, hcache⟩, hdepth⟩, hlines⟩ := h
  exact ⟨d, c, hc, hdirectory, hcache, hdepth, hlines⟩

/-- A configuration for output into the project itself. -/
def namelessText : String := "output:\n  directory: .\n"

/-- The directory that stands for itself is kept as it is written. -/
theorem exists_of_namelessText : ∃ d c, Configures namelessText.toList d c ∧
    c.outputDirectory = "." ∧ c.cache = none := by
  have htest : configures namelessText.toList
    (fun c => c.outputDirectory == "." && c.cache.isNone) = true := by decide +kernel
  obtain ⟨d, c, hc, h⟩ := exists_of_configures htest
  rw [Bool.and_eq_true, beq_iff_eq, Option.isNone_iff_eq_none] at h
  exact ⟨d, c, hc, h.1, h.2⟩

end ProjectSurvey.Configuration
