import Mathlib.Data.List.Induction
import ProjectSurvey.Classification
import ProjectSurvey.FileReport.OnDisk
import ProjectSurvey.Rule.Basic

/-!
# What a sample of the content cannot tell

The language of a file is told by its path (`language_classify`), and so are all tags but `routing`,
`database` and `component`: a sample of the content adds to the tags of the path, at their end, and
takes none away (`exists_purposeTags_classify`). Which rules apply to a file is a matter of its
language and of the tag `test`, and so **of the path alone** (`Rule.appliesTo_eq_of_kind`): it does
not matter what is in the file, whether it is read, or whether a survey or a report on this one file
asks (`FileReport.appliesTo_recordAt`).

Tags of paths and of texts have names in common. A tag that both give stays where the path has it,
so that membership (`mem_purposeTags_classify_iff`) and order are told apart here.
-/

namespace ProjectSurvey

/-! ### Tags of a text -/

/-- What is kept of two lists is what is kept of the first and then some of the second. -/
theorem Text.exists_distinct_append (xs ys : List String) :
    ∃ more, more.Sublist ys ∧ distinct (xs ++ ys) = distinct xs ++ more := by
  induction ys using List.reverseRecOn with
  | nil => exact ⟨[], .slnil, by rw [List.append_nil, List.append_nil]⟩
  | append_singleton ys y ih =>
    obtain ⟨more, hmore, heq⟩ := ih
    rw [← List.append_assoc, distinct_concat]
    split
    · exact ⟨more, hmore.trans (List.sublist_append_left ys [y]), heq⟩
    · exact ⟨more ++ [y], hmore.append_right [y], by rw [heq, List.append_assoc]⟩

/-- The tags that a sample of the content may add. -/
def sampleTags : List String := ["routing", "database", "component"]

/-- What a text of a language tells its file to be for. -/
inductive Tells (language : String) (text : List Char) : String → Prop
  /-- It declares routes. -/
  | routing : routingSign.occurs text = true → Tells language text "routing"
  /-- It talks to a database. -/
  | database : databaseSign.occurs text = true → Tells language text "database"
  /-- It is a script that returns markup or exports a component. -/
  | component : language = "javascript" ∨ language = "typescript" →
      componentSign.occurs text = true → Tells language text "component"

section

variable {language tag : String} {text : List Char}

/-- A sample gives no other tags than its own three, each once and in their order. -/
theorem tagsOfSample_sublist (language : String) (text : List Char) :
    (tagsOfSample language text).Sublist sampleTags := by
  unfold tagsOfSample
  split <;> split <;> split <;> decide

/-- A sample gives the tags that are told by it. -/
theorem mem_tagsOfSample_iff : tag ∈ tagsOfSample language text ↔ Tells language text tag := by
  simp only [tagsOfSample, List.mem_append, List.mem_ite_nil_right, List.mem_singleton]
  constructor
  · rintro ((⟨hsign, rfl⟩ | ⟨hsign, rfl⟩) | ⟨⟨hlanguage, hsign⟩, rfl⟩)
    · exact .routing hsign
    · exact .database hsign
    · exact .component hlanguage hsign
  · rintro (hsign | hsign | ⟨hlanguage, hsign⟩)
    · exact .inl (.inl ⟨hsign, rfl⟩)
    · exact .inl (.inr ⟨hsign, rfl⟩)
    · exact .inr ⟨⟨hlanguage, hsign⟩, rfl⟩

/-- No text at all tells nothing. -/
theorem not_tells_nil : ¬ Tells language [] tag := by
  rintro (hsign | hsign | ⟨-, hsign⟩)
  · exact absurd hsign (by decide)
  · exact absurd hsign (by decide)
  · exact absurd hsign (by decide +kernel)

end

/-! ### Path and sample -/

section

variable {t : Tables} {path : String}

/-- A file of unknown language has no tags and no hint, whatever is in it. -/
theorem classify_of_unknown (h : languageOf t path = "unknown") (sample : Option (List Char)) :
    classify t path sample = FileKind.unknown := by
  unfold classify
  rw [if_pos h]

/-- Without a sample the tags are those of the path. -/
theorem classify_none (h : languageOf t path ≠ "unknown") : classify t path none =
    ⟨languageOf t path, none, Text.distinct (tagsOfPath (languageOf t path) path)⟩ :=
  if_neg h

/-- No text at all is as good as none. -/
theorem classify_some_nil : classify t path (some []) = classify t path none := by
  unfold classify
  rfl

/-- With a sample the tags are those of the path and those that it tells, behind them. -/
theorem classify_some (h : languageOf t path ≠ "unknown") {text : List Char}
    (htext : text.isEmpty = false) : classify t path (some text) =
      ⟨languageOf t path, frameworkHint (languageOf t path) text,
        Text.distinct (tagsOfPath (languageOf t path) path ++
          tagsOfSample (languageOf t path) text)⟩ := by
  unfold classify
  rw [if_neg h]
  dsimp only
  rw [if_neg (Bool.eq_false_iff.mp htext)]

/-- A sample of the content of a file of known language adds no more than a hint and some tags. -/
theorem classify_of_known (h : languageOf t path ≠ "unknown") (sample : Option (List Char)) :
    ∃ hint tags, tags.Sublist sampleTags ∧ classify t path sample =
      ⟨languageOf t path, hint, Text.distinct (tagsOfPath (languageOf t path) path ++ tags)⟩ := by
  have hnone := classify_none h
  rw [← List.append_nil (tagsOfPath _ _)] at hnone
  match sample with
  | none => exact ⟨none, [], List.nil_sublist _, hnone⟩
  | some [] => exact ⟨none, [], List.nil_sublist _, classify_some_nil.trans hnone⟩
  | some (c :: cs) => exact ⟨_, _, tagsOfSample_sublist _ _, classify_some h rfl⟩

/-- The language of a file is told by its path. -/
theorem language_classify (sample : Option (List Char)) :
    (classify t path sample).language = languageOf t path := by
  by_cases h : languageOf t path = "unknown"
  · rw [classify_of_unknown h, h]
    rfl
  · obtain ⟨hint, tags, -, heq⟩ := classify_of_known h sample
    rw [heq]

/-- The tags of the path come first, those that a sample adds after them. -/
theorem exists_purposeTags_classify (t : Tables) (path : String) (sample : Option (List Char)) :
    ∃ more, more.Sublist sampleTags ∧
      (classify t path sample).purposeTags = (classify t path none).purposeTags ++ more := by
  by_cases h : languageOf t path = "unknown"
  · rw [classify_of_unknown h, classify_of_unknown h]
    exact ⟨[], List.nil_sublist _, rfl⟩
  · obtain ⟨hint, tags, htags, heq⟩ := classify_of_known h sample
    obtain ⟨more, hmore, hdistinct⟩ :=
      Text.exists_distinct_append (tagsOfPath (languageOf t path) path) tags
    rw [heq, classify_none h]
    dsimp only
    exact ⟨more, hmore.trans htags, hdistinct⟩

/-- A sample adds the tags that it tells. -/
theorem mem_purposeTags_classify_iff {sample : Option (List Char)} {tag : String} :
    tag ∈ (classify t path sample).purposeTags ↔ tag ∈ (classify t path none).purposeTags ∨
      languageOf t path ≠ "unknown" ∧
        ∃ text, sample = some text ∧ Tells (languageOf t path) text tag := by
  by_cases h : languageOf t path = "unknown"
  · rw [classify_of_unknown h, classify_of_unknown h, or_iff_left (fun htells => htells.1 h)]
  · rw [and_iff_right h]
    match sample with
    | none => simp
    | some [] =>
      rw [classify_some_nil, or_iff_left]
      rintro ⟨text, ⟨⟩, htells⟩
      exact not_tells_nil htells
    | some (c :: cs) =>
      rw [classify_some h rfl, classify_none h]
      dsimp only
      rw [Text.mem_distinct, Text.mem_distinct, List.mem_append, mem_tagsOfSample_iff]
      simp only [Option.some.injEq, exists_eq_left']

/-- No tag comes twice. -/
theorem nodup_purposeTags_classify (sample : Option (List Char)) :
    (classify t path sample).purposeTags.Nodup := by
  by_cases h : languageOf t path = "unknown"
  · rw [classify_of_unknown h]
    exact List.nodup_nil
  · obtain ⟨hint, tags, -, heq⟩ := classify_of_known h sample
    rw [heq]
    dsimp only
    exact Text.nodup_distinct _

/-- Whether a file holds tests is told by its path. -/
theorem isTest_classify (sample sample' : Option (List Char)) :
    (classify t path sample).isTest = (classify t path sample').isTest := by
  have hpath : ∀ sample, (classify t path sample).isTest = (classify t path none).isTest := by
    intro sample
    obtain ⟨more, hmore, heq⟩ := exists_purposeTags_classify t path sample
    have hnone : "test" ∉ more := fun h => absurd (hmore.subset h) (by decide)
    rw [FileKind.isTest, FileKind.isTest, Bool.eq_iff_iff, List.contains_iff_mem,
      List.contains_iff_mem, heq, List.mem_append, or_iff_left hnone]
  exact (hpath sample).trans (hpath sample').symm

/-! ### The rules that apply -/

/-- Files of one path have the same rules, whatever is known of their content. -/
theorem Rule.appliesTo_eq_of_kind {record record' : FileRecord}
    {sample sample' : Option (List Char)} (h : record.kind = classify t path sample)
    (h' : record'.kind = classify t path sample') (rule : Rule) :
    rule.appliesTo record = rule.appliesTo record' := by
  have hlanguage : record.language = record'.language := by
    rw [FileRecord.language, FileRecord.language, h, h', language_classify, language_classify]
  have htest : record.kind.isTest = record'.kind.isTest := by
    rw [h, h']
    exact isTest_classify sample sample'
  exact rule.appliesTo_congr hlanguage htest

/-- A file that is reported on alone is under the rules under which a survey finds it at the same
path. -/
theorem FileReport.appliesTo_recordAt {root l : Location} (hpath : shownPath root l = path)
    (size : Nat) (modified : Int) (text : List Char) (limit : Int) (disk : Entry) (home : Location)
    (e : Entry) (rule : Rule) :
    rule.appliesTo (recordAt t root l size modified text) =
      rule.appliesTo (Walk.record t limit disk home path e) :=
  Rule.appliesTo_eq_of_kind (congrArg (classify t · (text.take sampleLength)) hpath) rfl rule

end

/-- **A sample of the content only adds to what the path says**: never another language, and to the
tags of the path those of three that it tells, at their end. A file of unknown language has no tags
and no hint in any case, and the same rules apply to all files of a path. -/
theorem classify_onlyAdds (t : Tables) (path : String) (sample : Option (List Char)) :
    (classify t path sample).language = (classify t path none).language ∧
      (∃ more, more.Sublist ["routing", "database", "component"] ∧
        (classify t path sample).purposeTags = (classify t path none).purposeTags ++ more) ∧
      (∀ tag, tag ∈ (classify t path sample).purposeTags ↔
        tag ∈ (classify t path none).purposeTags ∨ languageOf t path ≠ "unknown" ∧
          ∃ text, sample = some text ∧ Tells (languageOf t path) text tag) ∧
      (classify t path sample).purposeTags.Nodup ∧
      ((classify t path sample).language = "unknown" →
        (classify t path sample).purposeTags = [] ∧
          (classify t path sample).frameworkHint = none) ∧
      ∀ (sample' : Option (List Char)) (record record' : FileRecord),
        record.kind = classify t path sample → record'.kind = classify t path sample' →
          ∀ rule : Rule, rule.appliesTo record = rule.appliesTo record' := by
  refine ⟨?_, exists_purposeTags_classify t path sample,
    fun _ => mem_purposeTags_classify_iff, nodup_purposeTags_classify sample, ?_, ?_⟩
  · rw [language_classify, language_classify]
  · intro h
    rw [language_classify] at h
    rw [classify_of_unknown h]
    exact ⟨rfl, rfl⟩
  · intro sample' record record' h h' rule
    exact Rule.appliesTo_eq_of_kind h h' rule

/-- A test that declares a route and talks to a database: two tags are added to that of its path,
and a rule that skips tests skips it all the same. A file of unknown language that holds the same
text is just a file. -/
theorem classify_onlyAdds_route :
    let text := "app.get(db.query('SELECT 1'))".toList
    let rule : Rule :=
      .content ⟨"long-line", "quality", "warning", 5, "A", "mend"⟩ ["javascript"] true
        fun _ => .clear
    let record (kind : FileKind) : FileRecord := ⟨"tests/users.js", 29, ".js", kind, .ofInt 0, 0⟩
    classify .default "tests/users.js" none = ⟨"javascript", none, ["test"]⟩ ∧
      classify .default "tests/users.js" (some text) =
        ⟨"javascript", none, ["test", "routing", "database"]⟩ ∧
      (classify .default "tests/users.xyz" (some text)).purposeTags = [] ∧
      rule.appliesTo (record (classify .default "tests/users.js" (some text))) = false := by
  intro text rule record
  have hlanguage : languageOf .default "tests/users.js" = "javascript" := by
    decide
  have hknown : languageOf .default "tests/users.js" ≠ "unknown" := by
    rw [hlanguage]
    decide
  have htags : tagsOfPath "javascript" "tests/users.js" = ["test"] := by
    decide
  have hsample : tagsOfSample "javascript" text = ["routing", "database"] := by
    decide +kernel
  have hpath : classify .default "tests/users.js" none = ⟨"javascript", none, ["test"]⟩ := by
    rw [classify_none hknown, hlanguage, htags, Text.distinct_of_nodup (by decide)]
  have htext : classify .default "tests/users.js" (some text) =
      ⟨"javascript", none, ["test", "routing", "database"]⟩ := by
    have hhint : frameworkHint "javascript" text = none := by
      decide +kernel
    rw [classify_some hknown (by decide), hlanguage, htags, hsample, hhint,
      Text.distinct_of_nodup (by decide)]
    rfl
  obtain ⟨-, -, -, -, -, happlies⟩ := classify_onlyAdds .default "tests/users.js" (some text)
  obtain ⟨-, -, -, -, hunknown, -⟩ := classify_onlyAdds .default "tests/users.xyz" (some text)
  refine ⟨hpath, htext, ?_, ?_⟩
  · exact (hunknown (by decide)).1
  · calc rule.appliesTo (record (classify .default "tests/users.js" (some text)))
        = rule.appliesTo (record ⟨"javascript", none, ["test"]⟩) :=
          happlies none _ _ rfl hpath.symm rule
      _ = false := by decide

end ProjectSurvey
