import ProjectSurvey.Configuration
import ProjectSurvey.Proofs.Stages

/-!
# What a mapping configures

A mapping may hold any values under any keys: settings of the wrong kind count as not made. **The
only values that no configuration is made of are integers that are too long to be shown**, where a
text is expected (`ofDocument_isOk_iff`). The directory for output is never the empty text, but it
may be a path without a name, such as `.`, which `Surveyor.outputTop` refuses
(`outputTop_isOk_iff`).
-/

namespace ProjectSurvey

namespace Configuration

open Yaml

/-! ### Values that can be shown -/

/-- Whether a value is no integer that is too long to be shown. -/
def Shows (v : Value) : Prop := ∀ n, v = .int n → n.natAbs < Datum.shownBelow

/-- Whether all items of a list can be shown. -/
def ListShows (d : Document) (v : Option Value) : Prop :=
  ∀ list ∈ v, ∀ item ∈ (d.items? list).getD [], Shows item

/-- The value of a setting. -/
def setting (d : Document) (part key : String) : Option Value :=
  (d.get? d.root part).bind fun v => d.get? v key

/-- Whether every value that counts as a text can be shown. -/
structure IsShowable (d : Document) : Prop where
  /-- Names to pass over, -/
  ignore : ListShows d (setting d "analysis" "ignore")
  /-- those to pass over instead of the usual ones, -/
  ignoreOnly : ListShows d (setting d "analysis" "ignore_override")
  /-- patterns to pass over, -/
  excludePaths : ListShows d (setting d "analysis" "exclude_paths")
  /-- rules that are switched off, -/
  disabledRules : ListShows d (setting d "rules" "disabled")
  /-- and the directory for output. -/
  outputDirectory : ∀ v ∈ setting d "output" "directory", Shows v

/-- An integer is refused if it is too long; nothing else is. -/
theorem text?_isOk_iff (v : Value) : (∃ s, text? v = .ok s) ↔ Shows v := by
  cases v with
  | int n =>
    unfold text? Datum.shown? Datum.isShowable
    dsimp only
    by_cases h : n.natAbs < Datum.shownBelow
    · rw [decide_eq_true h, if_pos rfl]
      exact iff_of_true ⟨_, rfl⟩ fun m hm => by cases hm; exact h
    · rw [decide_eq_false h, if_neg Bool.false_ne_true]
      exact iff_of_false (by simp) fun hshows => h (hshows n rfl)
  | _ => exact iff_of_true ⟨_, rfl⟩ fun m hm => by cases hm

/-- A list of texts is made if and only if every item of it can be shown. -/
theorem texts_isOk_iff (d : Document) (v : Option Value) :
    (∃ r, texts d v = .ok r) ↔ ListShows d v := by
  cases v with
  | none => exact iff_of_true ⟨_, rfl⟩ (by simp [ListShows])
  | some v =>
    have hlist : ListShows d (some v) ↔ ∀ item ∈ (d.items? v).getD [], Shows item := by
      simp [ListShows]
    rw [hlist]
    cases v with
    | text s => exact iff_of_true ⟨_, rfl⟩ (by simp [Document.items?, Document.content?])
    | octets bytes => exact iff_of_true ⟨_, rfl⟩ (by simp [Document.items?, Document.content?])
    | _ =>
      unfold texts
      dsimp only
      simp only [exists_bind_eq_ok_iff, ← text?_isOk_iff, ← exists_mapM_eq_ok_iff]
      exact exists_congr fun r => and_iff_left ⟨_, rfl⟩

/-- A directory for output is made if and only if the value for it can be shown. -/
theorem output_isOk_iff (v : Option Value) :
    (∃ s, output v = .ok s) ↔ ∀ x ∈ v, Shows x := by
  cases v with
  | none => exact iff_of_true ⟨_, rfl⟩ (by simp)
  | some v =>
    have hsome : (∀ x ∈ some v, Shows x) ↔ Shows v := by simp
    rw [hsome]
    cases v with
    | bool b => exact iff_of_true ⟨_, rfl⟩ (by simp [Shows])
    | _ =>
      unfold output
      dsimp only
      rw [exists_bind_eq_ok_iff, ← text?_isOk_iff]
      refine exists_congr fun s => and_iff_left ?_
      split <;> exact ⟨_, rfl⟩

/-- **A mapping makes a configuration unless a value that counts as a text cannot be shown.** -/
theorem ofDocument_isOk_iff (d : Document) : (∃ c, ofDocument d = .ok c) ↔ IsShowable d := by
  have hshowable : IsShowable d ↔ ListShows d (setting d "analysis" "ignore") ∧
      ListShows d (setting d "analysis" "ignore_override") ∧
      ListShows d (setting d "analysis" "exclude_paths") ∧
      ListShows d (setting d "rules" "disabled") ∧
      ∀ v ∈ setting d "output" "directory", Shows v :=
    ⟨fun ⟨h₁, h₂, h₃, h₄, h₅⟩ => ⟨h₁, h₂, h₃, h₄, h₅⟩,
      fun ⟨h₁, h₂, h₃, h₄, h₅⟩ => ⟨h₁, h₂, h₃, h₄, h₅⟩⟩
  rw [hshowable, ← output_isOk_iff]
  simp only [← texts_isOk_iff]
  unfold ofDocument
  dsimp only
  rw [show ((d.get? d.root "analysis").bind fun v => d.get? v "ignore_override") =
    setting d "analysis" "ignore_override" from rfl]
  -- Whether there are names to pass over instead decides how what follows is written.
  cases setting d "analysis" "ignore_override" with
  | none =>
    simp only [exists_bind_eq_ok_iff]
    constructor
    · rintro ⟨ignore, hignore, -, -, patterns, hpatterns, disabled, hdisabled, out, hout, -⟩
      exact ⟨⟨_, hignore⟩, ⟨_, rfl⟩, ⟨_, hpatterns⟩, ⟨_, hdisabled⟩, ⟨_, hout⟩⟩
    · rintro ⟨⟨ignore, hignore⟩, -, ⟨patterns, hpatterns⟩, ⟨disabled, hdisabled⟩, out, hout⟩
      exact ⟨ignore, hignore, _, rfl, patterns, hpatterns, disabled, hdisabled, out, hout, _, rfl⟩
  | some v =>
    simp only [exists_bind_eq_ok_iff]
    constructor
    · rintro ⟨ignore, hignore, only, honly, -, -, patterns, hpatterns, disabled, hdisabled, out,
        hout, -⟩
      exact ⟨⟨_, hignore⟩, ⟨_, honly⟩, ⟨_, hpatterns⟩, ⟨_, hdisabled⟩, ⟨_, hout⟩⟩
    · rintro ⟨⟨ignore, hignore⟩, ⟨only, honly⟩, ⟨patterns, hpatterns⟩, ⟨disabled, hdisabled⟩, out,
        hout⟩
      exact ⟨ignore, hignore, only, honly, _, rfl, patterns, hpatterns, disabled, hdisabled, out,
        hout, _, rfl⟩

/-- Whether nothing but an integer that is too long can keep a result from coming out. -/
def FailsAtShowing {α : Type} (x : Except Fault α) : Prop := ∀ f, x = .error f → f = .unshowable

/-- A result does not fail, so that it fails at showing only. -/
theorem failsAtShowing_ok {α : Type} (a : α) : FailsAtShowing (.ok a) := by
  intro f hf
  cases hf

/-- Two parts that fail at showing only make a whole that does. -/
theorem FailsAtShowing.bind {α β : Type} {x : Except Fault α} {g : α → Except Fault β}
    (hx : FailsAtShowing x) (hg : ∀ a, FailsAtShowing (g a)) : FailsAtShowing (x >>= g) := by
  cases x with
  | error e =>
    intro f hf
    cases hf
    exact hx e rfl
  | ok a => exact hg a

/-- The text of a value fails at showing only. -/
theorem failsAtShowing_text? (v : Value) : FailsAtShowing (text? v) := by
  cases v with
  | int n =>
    unfold text?
    dsimp only
    cases (Datum.int n).shown? with
    | some s => exact failsAtShowing_ok _
    | none =>
      intro f hf
      cases hf
      rfl
  | _ => exact failsAtShowing_ok _

/-- A list fails at showing only, if its items do. -/
theorem failsAtShowing_mapM {α β : Type} {g : α → Except Fault β} (hg : ∀ a, FailsAtShowing (g a))
    (items : List α) : FailsAtShowing (items.mapM g) := by
  induction items with
  | nil => exact failsAtShowing_ok _
  | cons a items ih =>
    rw [List.mapM_cons]
    exact (hg a).bind fun b => ih.bind fun bs => failsAtShowing_ok _

/-- A list of texts fails at showing only. -/
theorem failsAtShowing_texts (d : Document) (v : Option Value) : FailsAtShowing (texts d v) := by
  unfold texts
  split
  · exact failsAtShowing_ok _
  · exact failsAtShowing_ok _
  · exact (failsAtShowing_mapM failsAtShowing_text? _).bind fun r => failsAtShowing_ok _
  · exact failsAtShowing_ok _

/-- The directory for output fails at showing only. -/
theorem failsAtShowing_output (v : Option Value) : FailsAtShowing (output v) := by
  unfold output
  split
  · exact failsAtShowing_ok _
  · refine (failsAtShowing_text? _).bind ?_
    intro s
    split <;> exact failsAtShowing_ok _
  · exact failsAtShowing_ok _

/-- A mapping that makes no configuration holds a value that cannot be shown. -/
theorem failsAtShowing_ofDocument (d : Document) : FailsAtShowing (ofDocument d) := by
  have hrest : ∀ (v v' v'' : Option Value) (c : List String → List String → String → Configuration),
      FailsAtShowing (do
        let excludePaths ← texts d v
        let disabledRules ← texts d v'
        let outputDirectory ← output v''
        .ok (c excludePaths disabledRules outputDirectory)) :=
    fun v v' v'' c => (failsAtShowing_texts d v).bind fun _ => (failsAtShowing_texts d v').bind
      fun _ => (failsAtShowing_output v'').bind fun _ => failsAtShowing_ok _
  unfold ofDocument
  dsimp only
  refine (failsAtShowing_texts d _).bind ?_
  intro ignore
  split
  · exact (failsAtShowing_texts d _).bind fun only =>
      (failsAtShowing_ok _).bind fun _ => hrest _ _ _ _
  · exact (failsAtShowing_ok _).bind fun _ => hrest _ _ _ _

/-- A mapping counts as false only if it has no members. -/
theorem get?_eq_none_of_not_truthy {d : Yaml.Document} (htable : d.isTable d.root = true)
    (htruthy : d.truthy d.root = false) (key : String) : d.get? d.root key = none := by
  obtain ⟨root, containers⟩ := d
  unfold Document.isTable at htable
  unfold Document.get?
  cases root with
  | container n =>
    unfold Document.truthy at htruthy
    dsimp only at htable htruthy ⊢
    split at htable
    · rename_i members hmembers
      rw [hmembers] at htruthy
      have hempty : members.isEmpty = true := by simpa [Container.isEmpty] using htruthy
      rw [List.isEmpty_iff.mp hempty]
      rfl
    · cases htable
  | _ => cases htable

/-- A mapping without members says nothing. -/
theorem ofDocument_of_empty {d : Document} (h : ∀ key, d.get? d.root key = none) :
    ofDocument d = .ok empty := by
  unfold ofDocument
  simp only [h]
  rfl

end Configuration

end ProjectSurvey
