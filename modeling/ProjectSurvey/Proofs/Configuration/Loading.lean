import ProjectSurvey.Configuration.Load
import ProjectSurvey.Proofs.Configuration

/-!
# Which files are rejected

A configuration file may hold anything. **It is rejected if the system refuses its text, if the text
is no YAML or if it means a value that counts as true and is no mapping** (`load_verdict`); a blank
text, a value that counts as false and a mapping make a configuration. Loading breaks off for other
reasons as well: at octets that are no UTF-8, at a text that YAML allows but whose values cannot be
made, and at an integer that is too long to stand for a text.
-/

namespace ProjectSurvey

namespace Configuration

variable {cs : List Char}

/-! ### Texts -/

/-- Whether a text is rejected: it is not blank, and it is no YAML or means what counts as true and
is no mapping. -/
def IsRejected (cs : List Char) : Prop :=
  (Text.strip cs).isEmpty = false ∧ (Yaml.Document.ofText cs = .error .malformed ∨
    ∃ d, Yaml.Document.ofText cs = .ok d ∧ d.truthy d.root = true ∧ d.isTable d.root = false)

/-- Whether a text makes a configuration: it is blank, or it means what counts as false or a mapping
all of whose texts can be shown. -/
def IsAccepted (cs : List Char) : Prop :=
  (Text.strip cs).isEmpty = true ∨ ∃ d, Yaml.Document.ofText cs = .ok d ∧
    (d.truthy d.root = false ∨ d.isTable d.root = true ∧ IsShowable d)

/-- Whether a text breaks off: it is not blank, and a value in it cannot be made or is to be shown
and cannot be. -/
def BreaksOff (cs : List Char) : Prop :=
  (Text.strip cs).isEmpty = false ∧ ((∃ f, Yaml.Document.ofText cs = .error f ∧ f ≠ .malformed) ∨
    ∃ d, Yaml.Document.ofText cs = .ok d ∧ d.truthy d.root = true ∧ d.isTable d.root = true ∧
      ¬ IsShowable d)

/-- What a text comes to, case by case. -/
inductive ComesTo (cs : List Char) : Except Fault Configuration → Prop where
  /-- A blank text says nothing. -/
  | blank : (Text.strip cs).isEmpty = true → ComesTo cs (.ok empty)
  /-- A text may give no value, -/
  | unread {f : Yaml.Fault} : (Text.strip cs).isEmpty = false →
      Yaml.Document.ofText cs = .error f → ComesTo cs (.error (.unread f))
  /-- one that counts as false, -/
  | nothing {d : Yaml.Document} : (Text.strip cs).isEmpty = false →
      Yaml.Document.ofText cs = .ok d → d.truthy d.root = false → ComesTo cs (.ok empty)
  /-- one that is no mapping, -/
  | noMapping {d : Yaml.Document} : (Text.strip cs).isEmpty = false →
      Yaml.Document.ofText cs = .ok d → d.truthy d.root = true → d.isTable d.root = false →
      ComesTo cs (.error .noMapping)
  /-- a mapping -/
  | mapping {d : Yaml.Document} {c : Configuration} : (Text.strip cs).isEmpty = false →
      Yaml.Document.ofText cs = .ok d → d.truthy d.root = true → d.isTable d.root = true →
      ofDocument d = .ok c → ComesTo cs (.ok c)
  /-- or one with a text that cannot be shown. -/
  | unshowable {d : Yaml.Document} : (Text.strip cs).isEmpty = false →
      Yaml.Document.ofText cs = .ok d → d.truthy d.root = true → d.isTable d.root = true →
      ofDocument d = .error .unshowable → ComesTo cs (.error .unshowable)

/-- Every text is rejected, accepted or broken off at, and reading it comes to that. -/
theorem comesTo_ofText (cs : List Char) : ComesTo cs (ofText cs) := by
  unfold ofText
  cases hblank : (Text.strip cs).isEmpty with
  | true => exact .blank hblank
  | false =>
    cases hmeans : Yaml.Document.ofText cs with
    | error f => exact .unread hblank hmeans
    | ok d =>
      simp only [Bool.false_eq_true, if_false, Bool.not_eq_true']
      split
      · next htruthy => exact .nothing hblank hmeans htruthy
      · next htruthy =>
        rw [Bool.not_eq_false] at htruthy
        split
        · next htable =>
          cases hc : ofDocument d with
          | ok c => exact .mapping hblank hmeans htruthy htable hc
          | error f =>
            obtain rfl := failsAtShowing_ofDocument d f hc
            exact .unshowable hblank hmeans htruthy htable hc
        · next htable =>
          exact .noMapping hblank hmeans htruthy (Bool.not_eq_true _ ▸ htable)

/-- A text that cannot be read is forgiven if it is malformed YAML, and not if a value in it cannot
be made. -/
@[simp] theorem isForgiven_unread (f : Yaml.Fault) :
    (Fault.unread f).isForgiven = decide (f = .malformed) := by
  cases f <;> rfl

/-- What is no mapping is forgiven. -/
@[simp] theorem isForgiven_noMapping : Fault.noMapping.isForgiven = true := rfl

/-- A value that is too long to be shown is not forgiven. -/
@[simp] theorem isForgiven_unshowable : Fault.unshowable.isForgiven = false := rfl

/-- A file that the system refuses is forgiven. -/
@[simp] theorem isForgiven_refused (f : AccessFault) (path : String) :
    (Fault.refused f path).isForgiven = true := rfl

/-- Octets that are no text are not forgiven. -/
@[simp] theorem isForgiven_undecodable (f : Text.Utf8.Fault) :
    (Fault.undecodable f).isForgiven = false := rfl

/-- The forgiven failures of a text are its rejections. -/
theorem ofText_isForgiven_iff :
    (∃ f, ofText cs = .error f ∧ f.isForgiven = true) ↔ IsRejected cs := by
  have h := comesTo_ofText cs
  generalize ofText cs = x at h ⊢
  cases h <;> simp [IsRejected, *]

/-- A configuration is made of the texts that are accepted. -/
theorem ofText_isOk_iff : (∃ c, ofText cs = .ok c) ↔ IsAccepted cs := by
  have h := comesTo_ofText cs
  generalize ofText cs = x at h ⊢
  cases h <;> simp [IsAccepted, ← ofDocument_isOk_iff, *]

/-- The other failures of a text are those of breaking off. -/
theorem ofText_breaksOff_iff :
    (∃ f, ofText cs = .error f ∧ f.isForgiven = false) ↔ BreaksOff cs := by
  have h := comesTo_ofText cs
  generalize ofText cs = x at h ⊢
  cases h <;> simp [BreaksOff, ← ofDocument_isOk_iff, *]

/-! ### Files -/

variable {disk : Entry} {path file : String} {l : Location}

/-- What comes of the file at a location whose text was read or not. -/
def ofReading (l : Location) : Except TextFault (List Char) → Except Fault Configuration
  | .error (.refused f) => .error (.refused f l.text)
  | .error (.undecodable f) => .error (.undecodable f)
  | .ok cs => ofText cs

variable {reading : Except TextFault (List Char)}

/-- A reading is forgiven if the system refused the file or its text is rejected. -/
theorem ofReading_isForgiven_iff :
    (∃ f, ofReading l reading = .error f ∧ f.isForgiven = true) ↔
      (∃ f, reading = .error (.refused f)) ∨ ∃ cs, reading = .ok cs ∧ IsRejected cs := by
  cases reading with
  | error f => cases f <;> simp [ofReading]
  | ok cs => simp [ofReading, ← ofText_isForgiven_iff]

/-- A configuration is made of a reading that gives a text that is accepted. -/
theorem ofReading_isOk_iff :
    (∃ c, ofReading l reading = .ok c) ↔ ∃ cs, reading = .ok cs ∧ IsAccepted cs := by
  cases reading with
  | error f => cases f <;> simp [ofReading]
  | ok cs => simp [ofReading, ← ofText_isOk_iff]

/-- The other failures of a reading are octets that are no text and texts that are broken off at. -/
theorem ofReading_breaksOff_iff :
    (∃ f, ofReading l reading = .error f ∧ f.isForgiven = false) ↔
      (∃ f, reading = .error (.undecodable f)) ∨ ∃ cs, reading = .ok cs ∧ BreaksOff cs := by
  cases reading with
  | error f => cases f <;> simp [ofReading]
  | ok cs => simp [ofReading, ← ofText_breaksOff_iff]

/-- A configuration file comes to what its reading comes to. -/
theorem ofFile_eq_ofReading (disk : Entry) (l : Location) :
    ofFile disk l = ofReading l (disk.readText l.text) := by
  unfold ofFile
  cases disk.readText l.text with
  | error f => cases f <;> rfl
  | ok cs => rfl

/-- Where the file is there, loading comes to what reading it comes to, told with the name of the
file. -/
theorem load_of_existsAt (hfile : filePath disk path = .ok file) (hl : disk.resolve file = .ok l)
    (hexists : disk.existsAt l.text = .ok true) : load disk path =
      (ofReading l (disk.readText l.text)).mapError (Failure.configuration l.name) := by
  unfold load
  rw [hfile]
  dsimp only
  rw [hl]
  dsimp only
  rw [hexists, ofFile_eq_ofReading]
  cases ofReading l (disk.readText l.text) <;> rfl

/-- Whether a file is unusable by the rules of its format: the system refuses its text, or the text
is not blank, and is no YAML or means what is neither nothing nor a mapping. -/
def IsUnusable (disk : Entry) (l : Location) : Prop :=
  (∃ f, disk.readText l.text = .error (.refused f)) ∨
    ∃ cs, disk.readText l.text = .ok cs ∧ (Text.strip cs).isEmpty = false ∧
      (Yaml.Document.ofText cs = .error .malformed ∨
        ∃ d, Yaml.Document.ofText cs = .ok d ∧ d.root ≠ .null ∧ d.isTable d.root = false)

/-- Whether a file is orderly: its octets are UTF-8, what YAML allows in it can be made and shown,
and what counts as false in it is nothing or a mapping. -/
structure IsOrderly (disk : Entry) (l : Location) : Prop where
  /-- The octets are those of a text. -/
  decodes : ∀ f, disk.readText l.text ≠ .error (.undecodable f)
  /-- A text that gives no value is no YAML. -/
  reads : ∀ cs f, disk.readText l.text = .ok cs → Yaml.Document.ofText cs = .error f →
    f = .malformed
  /-- What counts as false is nothing or a mapping. -/
  falsy : ∀ cs d, disk.readText l.text = .ok cs → Yaml.Document.ofText cs = .ok d →
    d.truthy d.root = false → d.root = .null ∨ d.isTable d.root = true
  /-- What stands for a text can be shown. -/
  shows : ∀ cs d, disk.readText l.text = .ok cs → Yaml.Document.ofText cs = .ok d → IsShowable d

/-- How loading a file ends. -/
structure Verdict (disk : Entry) (l : Location) (x : Except Failure Configuration) : Prop where
  /-- The file is rejected exactly if its text is refused by the system or rejected itself. -/
  rejected : (∃ cause, x = .error (.configuration l.name cause) ∧ cause.isForgiven = true) ↔
    (∃ f, disk.readText l.text = .error (.refused f)) ∨
      ∃ cs, disk.readText l.text = .ok cs ∧ IsRejected cs
  /-- It makes a configuration exactly if its text does. -/
  accepted : (∃ c, x = .ok c) ↔ ∃ cs, disk.readText l.text = .ok cs ∧ IsAccepted cs
  /-- Loading breaks off exactly if it has no text or the text breaks off. -/
  breaksOff : (∃ cause, x = .error (.configuration l.name cause) ∧ cause.isForgiven = false) ↔
    (∃ f, disk.readText l.text = .error (.undecodable f)) ∨
      ∃ cs, disk.readText l.text = .ok cs ∧ BreaksOff cs
  /-- There is no other end. -/
  only : ∀ f, x = .error f → ∃ cause, f = .configuration l.name cause
  /-- An orderly file is rejected exactly if it is unusable, and makes a configuration otherwise. -/
  orderly : IsOrderly disk l →
    ((∃ cause, x = .error (.configuration l.name cause) ∧ cause.isForgiven = true) ↔
      IsUnusable disk l) ∧ (¬ IsUnusable disk l → ∃ c, x = .ok c)

/-- In an orderly file a text is rejected exactly if it is no YAML or means what is neither nothing
nor a mapping. -/
theorem IsOrderly.isRejected_iff (h : IsOrderly disk l) {cs : List Char}
    (hread : disk.readText l.text = .ok cs) : IsRejected cs ↔ (Text.strip cs).isEmpty = false ∧
      (Yaml.Document.ofText cs = .error .malformed ∨
        ∃ d, Yaml.Document.ofText cs = .ok d ∧ d.root ≠ .null ∧ d.isTable d.root = false) := by
  apply and_congr_right'
  apply or_congr_right
  apply exists_congr
  intro d
  apply and_congr_right
  intro hmeans
  apply and_congr_left
  intro htable
  constructor
  · intro htruthy hnull
    rw [hnull] at htruthy
    cases htruthy
  · intro hnull
    by_contra htruthy
    rcases h.falsy cs d hread hmeans (Bool.eq_false_iff.mpr htruthy) with h | h
    · exact hnull h
    · rw [h] at htable
      cases htable

/-- In good order, a configuration is unusable if its file is refused or its text rejected. -/
theorem IsOrderly.isUnusable_iff (h : IsOrderly disk l) : IsUnusable disk l ↔
    (∃ f, disk.readText l.text = .error (.refused f)) ∨
      ∃ cs, disk.readText l.text = .ok cs ∧ IsRejected cs := by
  apply or_congr_right
  apply exists_congr
  intro cs
  apply and_congr_right
  intro hread
  exact (h.isRejected_iff hread).symm

/-- In good order, no text is broken off at. -/
theorem IsOrderly.not_breaksOff (h : IsOrderly disk l) {cs : List Char}
    (hread : disk.readText l.text = .ok cs) : ¬ BreaksOff cs := by
  rintro ⟨-, ⟨f, hf, hne⟩ | ⟨d, hd, -, -, hshow⟩⟩
  · exact hne (h.reads cs f hread hf)
  · exact hshow (h.shows cs d hread hd)

section Ends

variable {α β ε ε' : Type}

/-- A failure that is told otherwise was one before. -/
theorem mapError_eq_error_iff {g : ε → ε'} {x : Except ε α} {e : ε'} :
    x.mapError g = .error e ↔ ∃ f, x = .error f ∧ g f = e := by
  cases x <;> simp [Except.mapError]

/-- A result stays one when failures are told otherwise. -/
theorem mapError_eq_ok_iff {g : ε → ε'} {x : Except ε α} {a : α} :
    x.mapError g = .ok a ↔ x = .ok a := by
  cases x <;> simp [Except.mapError]

end Ends

/-- **A file is rejected, makes a configuration or breaks off, each for reasons of its own.** -/
theorem load_verdict (hfile : filePath disk path = .ok file) (hl : disk.resolve file = .ok l)
    (hexists : disk.existsAt l.text = .ok true) : Verdict disk l (load disk path) := by
  rw [load_of_existsAt hfile hl hexists]
  have hcause (forgiven : Bool) : (∃ cause, (ofReading l (disk.readText l.text)).mapError
      (Failure.configuration l.name) = .error (.configuration l.name cause) ∧
        cause.isForgiven = forgiven) ↔
      ∃ f, ofReading l (disk.readText l.text) = .error f ∧ f.isForgiven = forgiven := by
    simp only [mapError_eq_error_iff, Failure.configuration.injEq, true_and, exists_eq_right]
  refine ⟨(hcause true).trans ofReading_isForgiven_iff, ?_, (hcause false).trans
    ofReading_breaksOff_iff, ?_, fun horderly => ⟨(hcause true).trans
    (ofReading_isForgiven_iff.trans horderly.isUnusable_iff.symm), ?_⟩⟩
  · simp only [mapError_eq_ok_iff, ofReading_isOk_iff]
  · intro f hf
    obtain ⟨cause, -, rfl⟩ := mapError_eq_error_iff.mp hf
    exact ⟨cause, rfl⟩
  · intro husable
    simp only [mapError_eq_ok_iff]
    cases hx : ofReading l (disk.readText l.text) with
    | ok c => exact ⟨c, rfl⟩
    | error f =>
      cases hf : f.isForgiven with
      | true =>
        have hrejected := ofReading_isForgiven_iff.mp ⟨f, hx, hf⟩
        exact absurd (horderly.isUnusable_iff.mpr hrejected) husable
      | false =>
        rcases ofReading_breaksOff_iff.mp ⟨f, hx, hf⟩ with ⟨f, hf⟩ | ⟨cs, hcs, hbreaks⟩
        · exact absurd hf (horderly.decodes f)
        · exact absurd hbreaks (horderly.not_breaksOff hcs)

/-- A disk with a configuration file of some octets. -/
def fileDisk (octets : List UInt8) : Entry := .ofEntries [(fileName, .file octets 7)]

/-- The configuration file of the disk is found and is there. -/
theorem exists_fileDisk (octets : List UInt8) :
    filePath (fileDisk octets) "/" = .ok "/.devassist.yml" ∧
      (fileDisk octets).resolve "/.devassist.yml" = .ok [fileName] ∧
      (fileDisk octets).existsAt (Location.text [fileName]) = .ok true := ⟨rfl, rfl, rfl⟩

/-- The text of a list. -/
def listText : List Char := "- a\n".toList

/-- A list is rejected. -/
theorem load_verdict_listText :
    filePath (fileDisk (Text.Utf8.encode listText)) "/" = .ok "/.devassist.yml" ∧
      (fileDisk (Text.Utf8.encode listText)).resolve "/.devassist.yml" = .ok [fileName] ∧
      (fileDisk (Text.Utf8.encode listText)).existsAt (Location.text [fileName]) = .ok true ∧
      ∃ cause, load (fileDisk (Text.Utf8.encode listText)) "/" =
        .error (.configuration (Location.name [fileName]) cause) ∧ cause.isForgiven = true := by
  obtain ⟨hfile, hl, hexists⟩ := exists_fileDisk (Text.Utf8.encode listText)
  have hread : (fileDisk (Text.Utf8.encode listText)).readText (Location.text [fileName]) =
      .ok listText := by decide
  have hblank : (Text.strip listText).isEmpty = false := by decide
  have htest : (Yaml.Document.ofText listText).toOption.any
      (fun d => d.truthy d.root && !d.isTable d.root) = true := by decide +kernel
  obtain ⟨d, hmeans, hd⟩ := exists_of_any_toOption htest
  refine ⟨hfile, hl, hexists, (load_verdict hfile hl hexists).rejected.mpr
    (.inr ⟨listText, hread, hblank, .inr ⟨d, hmeans, ?_⟩⟩)⟩
  simpa using hd

/-- The text of a list without items. -/
def emptyListText : List Char := "[]\n".toList

/-- **One octet that begins no character is neither rejected nor a configuration**, and a list
without items is a configuration. -/
theorem load_emptyListText :
    ((∀ f cause, load (fileDisk [0xff]) "/" = .error f →
        f = .configuration (Location.name [fileName]) cause → cause.isForgiven = false) ∧
      ¬ ∃ c, load (fileDisk [0xff]) "/" = .ok c) ∧
      (fileDisk (Text.Utf8.encode emptyListText)).readText (Location.text [fileName]) =
        .ok emptyListText ∧
      (∃ d, Yaml.Document.ofText emptyListText = .ok d ∧ d.root ≠ .null ∧
        d.isTable d.root = false) ∧
      ∃ c, load (fileDisk (Text.Utf8.encode emptyListText)) "/" = .ok c := by
  constructor
  · have hload : load (fileDisk [0xff]) "/" = .error (.configuration (Location.name [fileName])
        (.undecodable (Text.Utf8.fault [0xff]))) := rfl
    rw [hload]
    constructor
    · rintro f cause ⟨⟩ hcause
      rw [← (Failure.configuration.inj hcause).2]
      rfl
    · rintro ⟨c, ⟨⟩⟩
  · obtain ⟨hfile, hl, hexists⟩ := exists_fileDisk (Text.Utf8.encode emptyListText)
    have hread : (fileDisk (Text.Utf8.encode emptyListText)).readText (Location.text [fileName]) =
        .ok emptyListText := by decide
    have htest : (Yaml.Document.ofText emptyListText).toOption.any (fun d =>
        !d.truthy d.root && !d.isTable d.root && !(d.root matches .null)) = true := by
      decide
    obtain ⟨d, hmeans, hd⟩ := exists_of_any_toOption htest
    obtain ⟨⟨htruthy, htable⟩, hroot⟩ : (d.truthy d.root = false ∧ d.isTable d.root = false) ∧
        (!(d.root matches .null)) = true := by
      simpa only [Bool.and_eq_true, Bool.not_eq_true'] using hd
    have hnull : d.root ≠ .null := by
      intro hnull
      rw [hnull] at hroot
      cases hroot
    refine ⟨hread, ⟨d, hmeans, hnull, htable⟩, ?_⟩
    rw [load_of_existsAt hfile hl hexists]
    simp only [mapError_eq_ok_iff, ofReading_isOk_iff]
    exact ⟨emptyListText, hread, .inr ⟨d, hmeans, .inl htruthy⟩⟩

end Configuration

end ProjectSurvey
