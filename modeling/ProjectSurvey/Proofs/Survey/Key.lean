import ProjectSurvey.Proofs.Classification
import ProjectSurvey.Proofs.Evidence.Signature
import ProjectSurvey.Proofs.Survey.Cached

/-!
# What the key of the evidence stands for

Evidence is kept under the path, the size and the time of a file and under the signature of the run.
Options with the same signature have the same content rules and the same threshold for oversized
files, and no other option tells in a text that is read. **Whether the text is read at all is not in
the key**: two runs with the same signature make the same of a file if and only if the greatest size
of either lets its text through or that of neither does (`visit_eq_iff_of_signature`).
-/

namespace ProjectSurvey

/-! ### Reading within a size -/

namespace Entry

variable {disk disk' : Entry} {path path' : String} {limit limit' : Int}

/-- A file whose text is read under one greatest size and not under another is read under the first
only. -/
theorem readWithin_eq_of_isSome (h : disk'.readOctets path' = disk.readOctets path)
    (hsome : (disk.readWithin limit path).isSome = (disk'.readWithin limit' path').isSome) :
    disk.readWithin limit path = disk'.readWithin limit' path' := by
  unfold readWithin at hsome ⊢
  rw [h] at hsome ⊢
  cases hread : disk.readOctets path with
  | error f => rfl
  | ok octets =>
    rw [hread] at hsome
    dsimp only at hsome ⊢
    by_cases hlimit : limit < octets.length <;> by_cases hlimit' : limit' < octets.length
    · rw [if_pos hlimit, if_pos hlimit']
    · rw [if_pos hlimit, if_neg hlimit'] at hsome ⊢
      exact (Option.isSome_eq_false_iff.mp hsome.symm |> Option.isNone_iff_eq_none.mp).symm
    · rw [if_neg hlimit, if_pos hlimit'] at hsome ⊢
      exact Option.isNone_iff_eq_none.mp (Option.isSome_eq_false_iff.mp hsome)
    · rw [if_neg hlimit, if_neg hlimit']

/-- The text of a file is the same under two greatest sizes if and only if they agree on it, or it
is no text at all. -/
theorem readWithin_eq_iff (h : disk'.readOctets path' = disk.readOctets path) :
    disk.readWithin limit path = disk'.readWithin limit' path' ↔
      ∀ octets text, disk.readOctets path = .ok octets → Text.Utf8.decode? octets = some text →
        (limit < octets.length ↔ limit' < octets.length) := by
  unfold readWithin
  rw [h]
  cases disk.readOctets path with
  | error f => exact iff_of_true rfl nofun
  | ok octets =>
    dsimp only
    constructor
    · intro heq octets' text hread htext
      cases hread
      rw [htext] at heq
      by_cases hlimit : limit < octets.length <;> by_cases hlimit' : limit' < octets.length
      · exact iff_of_true hlimit hlimit'
      · rw [if_pos hlimit, if_neg hlimit'] at heq
        cases heq
      · rw [if_neg hlimit, if_pos hlimit'] at heq
        cases heq
      · exact iff_of_false hlimit hlimit'
    · intro hagree
      cases htext : Text.Utf8.decode? octets with
      | none => rw [Option.map_none, ite_self, ite_self]
      | some text => simp only [hagree octets text rfl htext]

end Entry

/-! ### Two runs with one signature -/

namespace Surveyor

variable {s s' : Surveyor} {o o' : Options}

/-- Without rules of its own a survey goes by the built-in ones. -/
theorem rulesFor_of_builtin (hs : s.rules = none) (o : Options) :
    s.rulesFor o = Rule.table o.disabledRules o.oversizedLines [] := by
  unfold rulesFor
  rw [hs]

/-- Evidence tells whether there was a text. -/
theorem lines_ofText (rules : List Rule) (r : FileRecord) (text : Option (List Char)) :
    (Evidence.ofText rules r text).lines.isSome = text.isSome := by
  cases text <;> rfl

/-- **Two runs with the built-in rules and one signature make the same of an unchanged file, except
where its text is within the greatest size of one of them only.** -/
theorem visit_eq_iff_of_signature (t : Tables) (hs : s.rules = none) (hs' : s'.rules = none)
    {signature : String} (hsignature : s.signatureOf? o = some signature)
    (hsignature' : s'.signatureOf? o' = some signature)
    (hhash : Sha256.hash (Text.Utf8.encode (History.signedTextOf o)) =
      Sha256.hash (Text.Utf8.encode (History.signedTextOf o')) →
        History.signedTextOf o = History.signedTextOf o')
    {disk disk' : Entry} {root root' : Location} {path : String}
    (hread : disk'.readOctets (Path.join root'.text path) =
      disk.readOctets (Path.join root.text path)) (f f' : Entry) :
    ((s.gatheringOf disk root o).visit none
        (Walk.record t o.maxFileSize disk root path f)).1 =
      ((s'.gatheringOf disk' root' o').visit none
        (Walk.record t o'.maxFileSize disk' root' path f')).1 ↔
      ∀ octets text, disk.readOctets (Path.join root.text path) = .ok octets →
        Text.Utf8.decode? octets = some text →
          (o.maxFileSize < octets.length ↔ o'.maxFileSize < octets.length) := by
  rw [← Entry.readWithin_eq_iff hread]
  unfold Gathering.visit gatheringOf
  rw [rulesFor_of_builtin hs, rulesFor_of_builtin hs']
  dsimp only
  unfold signatureOf? at hsignature hsignature'
  rw [rulesFor_of_builtin hs] at hsignature
  rw [rulesFor_of_builtin hs'] at hsignature'
  have htext : Gathering.signedTextOf o.disabledRules o.oversizedLines =
      Gathering.signedTextOf o'.disabledRules o'.oversizedLines :=
    hhash ((Gathering.signatureOf?_eq_some_iff.mp hsignature).2.trans
      (Gathering.signatureOf?_eq_some_iff.mp hsignature').2.symm)
  have hsame : ∀ text,
      Evidence.ofText (Rule.table o.disabledRules o.oversizedLines [])
          (Walk.record t o.maxFileSize disk root path f) text =
        Evidence.ofText (Rule.table o'.disabledRules o'.oversizedLines [])
          (Walk.record t o'.maxFileSize disk' root' path f') text := by
    refine Gathering.ofText_eq_of_signedText htext rfl ?_ ?_
    · exact (language_classify _).trans (language_classify _).symm
    · exact isTest_classify _ _
  constructor
  · intro h
    rw [hsame] at h
    -- The evidence tells whether there was a text, and there are no two of them.
    refine Entry.readWithin_eq_of_isSome hread ?_
    have hlines := congrArg (fun e : Evidence => e.lines.isSome) h
    rwa [lines_ofText, lines_ofText] at hlines
  · intro h
    rw [hsame]
    exact congrArg _ h

/-- A file with one line of source. -/
def oneLine : Entry := .file (Text.Utf8.encode "x = 1\n".toList) 7

/-- A disk with a project that is one file. -/
def oneLineDisk : Entry := .ofEntries [("p", .ofEntries [("a.py", oneLine)])]

/-- Who surveys it. -/
def usual : Surveyor := ⟨.default, none, .ofNanoseconds 0⟩

/-- Options that differ from the usual ones in much, but not in what is signed, and let a file of
six octets through. The rule that is disabled is one about the project. -/
def laxOptions : Options :=
  { Options.default with
    maxDepth := 9, ignoreDirectories := [], disabledRules := ["missing-tests"], maxFileSize := 6 }

/-- The usual options, under which no text is read. -/
def blindOptions : Options := { Options.default with maxFileSize := 0 }

/-- What is made of the file under some options. -/
def oneLineEvidence (o : Options) : Evidence :=
  ((usual.gatheringOf oneLineDisk ["p"] o).visit none
    (Walk.record .default o.maxFileSize oneLineDisk ["p"] "a.py" oneLine)).1

/-- The file of the example can be read. -/
theorem readOctets_oneLineDisk :
    oneLineDisk.readOctets (Path.join (Location.text ["p"]) "a.py") =
      .ok (Text.Utf8.encode "x = 1\n".toList) := by decide

/-- Its two sets of options sign alike. -/
theorem signedTextOf_laxOptions :
    History.signedTextOf Options.default = History.signedTextOf laxOptions := by
  have hids : ((Rule.builtinContent 0).map Rule.id).all (fun id =>
      Rule.stays [] id == Rule.stays ["missing-tests"] id) = true := by rfl
  unfold History.signedTextOf
  rw [Gathering.signedTextOf_eq, Gathering.signedTextOf_eq]
  refine congrArg (fun parts => List.flatMap Prod.snd parts ++ _) (List.filter_congr ?_)
  intro x hx
  obtain ⟨r, hr, rfl⟩ := List.mem_map.mp hx
  exact eq_of_beq (List.all_eq_true.mp hids r.id (List.mem_map_of_mem hr))

/-- There is a signature for a number of lines with few digits. -/
theorem isSome_signatureOf?_of_lt (s : Surveyor) {o : Options}
    (h : o.oversizedLines.natAbs < 100000000) : (s.signatureOf? o).isSome :=
  (Gathering.isSome_signatureOf?_iff _).mpr (Json.lt_shownBelow_of_lt h)

/-- There is a signature under the usual options. -/
theorem exists_signatureOf?_default : ∃ signature, usual.signatureOf? .default = some signature :=
  Option.isSome_iff_exists.mp (isSome_signatureOf?_of_lt usual (by decide))

/-- They give the same signature and other evidence. -/
theorem visit_laxOptions :
    (∃ signature, usual.signatureOf? .default = some signature ∧
        usual.signatureOf? laxOptions = some signature) ∧
      oneLineEvidence .default = oneLineEvidence laxOptions := by
  obtain ⟨signature, hsignature⟩ := exists_signatureOf?_default
  have hsignature' : usual.signatureOf? laxOptions = some signature := by
    obtain ⟨hlines, hhash⟩ := Gathering.signatureOf?_eq_some_iff.mp hsignature
    refine Gathering.signatureOf?_eq_some_iff.mpr ⟨hlines, ?_⟩
    exact (congrArg (fun text => Sha256.hash (Text.Utf8.encode text))
      signedTextOf_laxOptions).symm.trans
      hhash
  refine ⟨⟨signature, hsignature, hsignature'⟩, ?_⟩
  refine (visit_eq_iff_of_signature .default rfl rfl hsignature hsignature'
    (fun _ => signedTextOf_laxOptions) rfl oneLine oneLine).mpr ?_
  intro octets text hread _
  rw [readOctets_oneLineDisk] at hread
  cases hread
  decide

/-- The same signature, and yet other evidence: the lines of the file are counted under one of the
greatest sizes only. -/
theorem visit_blindOptions :
    (∃ signature, usual.signatureOf? .default = some signature ∧
        usual.signatureOf? blindOptions = some signature) ∧
      (oneLineEvidence .default).lines.isSome = true ∧
      (oneLineEvidence blindOptions).lines.isSome = false := by
  obtain ⟨signature, hsignature⟩ := exists_signatureOf?_default
  refine ⟨⟨signature, hsignature, hsignature⟩, ?_, ?_⟩
  · exact (lines_ofText _ _ _).trans (by rfl)
  · exact (lines_ofText _ _ _).trans (by decide +kernel)

end Surveyor

end ProjectSurvey
