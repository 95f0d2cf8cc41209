import Mathlib.Data.List.Forall2
import ProjectSurvey.Proofs.Evidence.Signature
import ProjectSurvey.Proofs.Stages

/-!
# The rules of plugins

A plugin provides rules if loading it gives a rule or something that makes one or several
(`Plugin.Provides`). **If every plugin does, the table holds the first rule of each id that is not
disabled**, built-in rules first, so that no plugin stands for a built-in rule, be it disabled or
not (`IsTable`); **if one does not, the first such plugin is to blame**, whatever comes after it
(`Rule.discover_isExact`).
-/

namespace ProjectSurvey

namespace Plugin

/-- Whether something that was loaded gives some rules: a rule gives itself, and something that can
be called what it returns, if that is a rule or a sequence of rules only. -/
inductive Gives : Loaded → List Rule → Prop
  /-- A rule. -/
  | rule (r : Rule) : Gives (.rule r) [r]
  /-- A maker of one rule. -/
  | maker (r : Rule) : Gives (.callable (.rule r)) [r]
  /-- A maker of several rules. -/
  | makerOfAll (rs : List Rule) : Gives (.callable (.items (rs.map some))) rs

/-- Whether a plugin provides some rules. -/
def Provides (p : Plugin) (rs : List Rule) : Prop := ∃ loaded, p.load = .ok loaded ∧ Gives loaded rs

/-- What a plugin is blamed for that provides no rules. -/
inductive Breaks (p : Plugin) : DiscoveryFault → Prop
  /-- It fails to load. -/
  | load {reason : String} (h : p.load = .error reason) : p.Breaks (.notLoaded p.name reason)
  /-- What is loaded gives no rules. -/
  | shape {loaded : Loaded} (h : p.load = .ok loaded) (hno : ∀ rs, ¬ Gives loaded rs) :
    p.Breaks (.noRules p.name)

/-- A list of what may be missing is complete when nothing in it is missing. -/
theorem mapM_id_eq_some_iff {α : Type} {xs : List (Option α)} {ys : List α} :
    (xs.mapM fun x => x) = some ys ↔ xs = ys.map some := by
  induction xs generalizing ys with
  | nil => cases ys <;> simp
  | cons x xs ih =>
    rw [List.mapM_cons]
    cases x with
    | none => cases ys <;> simp
    | some a =>
      cases ys with
      | nil => simp [Option.bind_eq_some_iff]
      | cons b ys => simp [← ih, Option.bind_eq_some_iff, and_comm]

/-- What is loaded gives rules when it is a list of them or something that makes one. -/
theorem rulesOf?_eq_some_iff {loaded : Loaded} {rs : List Rule} :
    rulesOf? loaded = some rs ↔ Gives loaded rs := by
  constructor
  · intro h
    match loaded with
    | .rule r =>
      cases h
      exact .rule r
    | .callable (.rule r) =>
      cases h
      exact .maker r
    | .callable (.items xs) =>
      rw [mapM_id_eq_some_iff.mp h]
      exact .makerOfAll rs
    | .callable .other => cases h
    | .other => cases h
  · intro h
    cases h with
    | rule r => rfl
    | maker r => rfl
    | makerOfAll rs => exact mapM_id_eq_some_iff.mpr rfl

variable {p : Plugin}

/-- The rules of a plugin are the ones it provides. -/
theorem rules_eq_ok_iff {rs : List Rule} : p.rules = .ok rs ↔ p.Provides rs := by
  unfold rules Provides
  cases hload : p.load with
  | error reason => simp
  | ok loaded =>
    simp only [Except.ok.injEq, exists_eq_left', ← rulesOf?_eq_some_iff]
    cases rulesOf? loaded <;> simp

/-- A plugin fails in the way it breaks. -/
theorem rules_eq_error_iff {f : DiscoveryFault} : p.rules = .error f ↔ p.Breaks f := by
  unfold rules
  constructor
  · intro h
    split at h
    · next reason hload =>
      cases h
      exact .load hload
    · next loaded hload =>
      split at h
      · cases h
      · next hnone =>
        cases h
        refine .shape hload fun rs hrs => ?_
        rw [rulesOf?_eq_some_iff.mpr hrs] at hnone
        cases hnone
  · intro h
    cases h with
    | load hload => rw [hload]
    | @shape loaded hload hno =>
      have hnone : rulesOf? loaded = none := by
        rw [Option.eq_none_iff_forall_ne_some]
        exact fun rs hrs => hno rs (rulesOf?_eq_some_iff.mp hrs)
      rw [hload]
      dsimp only
      rw [hnone]

end Plugin

/-! ### The first rule of each id -/

namespace Rule

/-- Whether two rules have one id. -/
def sameKey (a b : Rule) : Bool := a.key == b.key

/-- The rules whose ids are not banned, each id once. -/
theorem firstOfEach_eq (banned : List String) (rules : List Rule) :
    firstOfEach banned rules =
      (rules.filter fun r => !banned.contains r.key).eraseDupsBy sameKey := by
  induction rules generalizing banned with
  | nil => rfl
  | cons r rules ih =>
    rw [firstOfEach]
    cases hr : banned.contains r.key with
    | true => rw [if_pos rfl, ih, List.filter_cons_of_neg (by simp only [hr]; decide)]
    | false =>
      rw [if_neg Bool.false_ne_true, ih, List.filter_cons_of_pos (by simp only [hr]; decide),
        List.eraseDupsBy_cons, List.filter_filter]
      refine congrArg (fun kept => r :: List.eraseDupsBy sameKey kept) (List.filter_congr ?_)
      intro x _
      simp [sameKey]

/-- Keeping the first of each key keeps the order. -/
theorem firstOfEach_sublist (banned : List String) (rules : List Rule) :
    (firstOfEach banned rules).Sublist rules := by
  induction rules generalizing banned with
  | nil => exact .slnil
  | cons r rules ih =>
    rw [firstOfEach]
    split
    · exact (ih banned).cons r
    · exact (ih _).cons_cons r

/-- What is kept has no key that was banned. -/
theorem key_notMem_of_mem_firstOfEach {banned : List String} {rules : List Rule} {r : Rule}
    (h : r ∈ firstOfEach banned rules) : r.key ∉ banned := by
  induction rules generalizing banned with
  | nil => cases h
  | cons x rules ih =>
    rw [firstOfEach] at h
    split at h
    · exact ih h
    · next hx =>
      rcases List.mem_cons.mp h with rfl | h
      · simpa using hx
      · exact fun hmem => ih h (List.mem_cons_of_mem x.key hmem)

/-- What is kept has distinct keys. -/
theorem nodup_keys_firstOfEach (banned : List String) (rules : List Rule) :
    ((firstOfEach banned rules).map key).Nodup := by
  induction rules generalizing banned with
  | nil => exact List.nodup_nil
  | cons r rules ih =>
    rw [firstOfEach]
    split
    · exact ih banned
    · rw [List.map_cons, List.nodup_cons]
      refine ⟨fun hmem => ?_, ih _⟩
      obtain ⟨x, hx, heq⟩ := List.mem_map.mp hmem
      exact key_notMem_of_mem_firstOfEach hx (heq ▸ List.mem_cons_self)

/-- What comes later has no id of what comes earlier, be that banned or not. -/
theorem exists_firstOfEach_append (banned : List String) (rules more : List Rule) :
    ∃ later, firstOfEach banned (rules ++ more) = firstOfEach banned rules ++ later ∧
      later.Sublist more ∧ ∀ r ∈ later, r.key ∉ banned ∧ ∀ x ∈ rules, r.key ≠ x.key := by
  induction rules generalizing banned with
  | nil =>
    exact ⟨firstOfEach banned more, rfl, firstOfEach_sublist banned more,
      fun r hr => ⟨key_notMem_of_mem_firstOfEach hr, by simp⟩⟩
  | cons x rules ih =>
    rw [List.cons_append, firstOfEach, firstOfEach]
    split
    · next hx =>
      obtain ⟨later, heq, hsub, hlater⟩ := ih banned
      refine ⟨later, heq, hsub, fun r hr => ⟨(hlater r hr).1, List.forall_mem_cons.mpr ⟨?_, ?_⟩⟩⟩
      · intro hsame
        exact (hlater r hr).1 (hsame ▸ by simpa using hx)
      · exact (hlater r hr).2
    · obtain ⟨later, heq, hsub, hlater⟩ := ih (x.key :: banned)
      refine ⟨later, congrArg (x :: ·) heq, hsub, fun r hr => ?_⟩
      obtain ⟨hfresh, hrules⟩ := hlater r hr
      rw [List.mem_cons, not_or] at hfresh
      exact ⟨hfresh.2, List.forall_mem_cons.mpr ⟨hfresh.1, hrules⟩⟩

/-- Whether a table is that of a run: its rules are those of `own` and `provided` that are not
disabled, each id once. -/
structure IsTable (disabled : List String) (own provided table : List Rule) : Prop where
  /-- Each rule is the first one of its id and not disabled, and all of these are there. -/
  first : table = ((own ++ provided).filter fun r =>
    !(disabled.map Text.lowered).contains (Text.lowered r.id)).eraseDupsBy
      fun a b => Text.lowered a.id == Text.lowered b.id
  /-- No two rules share an id. -/
  distinct : table.Pairwise fun a b => Text.lowered a.id ≠ Text.lowered b.id
  /-- None is disabled. -/
  enabled : ∀ r ∈ table, ∀ d ∈ disabled, Text.lowered d ≠ Text.lowered r.id
  /-- The enabled ones of `own` come first, and no other has the id of one of `own`, be that enabled
  or not. -/
  own : ∃ others, others.Sublist provided ∧
    table = (own.filter fun r =>
      !(disabled.map Text.lowered).contains (Text.lowered r.id)) ++ others ∧
    ∀ r ∈ others, ∀ o ∈ own, Text.lowered r.id ≠ Text.lowered o.id

/-- The table of the rules is the one that is described. -/
theorem isTable_table (disabled : List String) (oversizedLines : Int) (provided : List Rule) :
    IsTable disabled (builtin oversizedLines) provided
    (table disabled oversizedLines provided) := by
  constructor
  case first => exact firstOfEach_eq _ _
  case distinct => exact List.pairwise_map.mp (nodup_keys_firstOfEach _ _)
  case enabled =>
    intro r hr d hd heq
    exact key_notMem_of_mem_firstOfEach hr (List.mem_map.mpr ⟨d, hd, heq⟩)
  case own =>
    obtain ⟨others, heq, hsub, hothers⟩ := exists_firstOfEach_append (disabled.map Text.lowered)
      (builtin oversizedLines) provided
    rw [firstOfEach_eq_filter (nodup_keys_builtin oversizedLines)] at heq
    exact ⟨others, hsub, heq, fun r hr => (hothers r hr).2⟩

/-! ### What is discovered -/

/-- Whether a result is what is discovered with some plugins. -/
structure IsDiscovered (disabled : List String) (oversizedLines : Int) (plugins : List Plugin)
    (result : Except DiscoveryFault (List Rule)) : Prop where
  /-- If every plugin provides rules, it is the table with all of them. -/
  table : ∀ provided, List.Forall₂ Plugin.Provides plugins provided →
    ∃ rules, result = .ok rules ∧
      IsTable disabled (builtin oversizedLines) provided.flatten rules
  /-- If one does not, it is what the first such plugin is to be blamed for. -/
  fault : ∀ p ∈ plugins, (∀ rs, ¬ p.Provides rs) → ∃ before q after f,
    plugins = before ++ q :: after ∧ (∀ x ∈ before, ∃ rs, x.Provides rs) ∧
      (∀ rs, ¬ q.Provides rs) ∧ q.Breaks f ∧ result = .error f

/-- Plugins that each provide rules provide them together. -/
theorem mapM_rules_eq_ok {plugins : List Plugin} {provided : List (List Rule)}
    (h : List.Forall₂ Plugin.Provides plugins provided) :
    plugins.mapM Plugin.rules = .ok provided := by
  induction h with
  | nil => rfl
  | cons hp _ ih =>
    rw [List.mapM_cons, Plugin.rules_eq_ok_iff.mpr hp, ih]
    rfl

/-- **The rules of a run are the first ones of their ids that are not disabled, if every plugin
provides rules, and the first plugin that does not is to blame otherwise.** -/
theorem discover_isExact (disabled : List String) (oversizedLines : Int) (plugins : List Plugin) :
    IsDiscovered disabled oversizedLines plugins (discover disabled oversizedLines plugins) := by
  constructor
  case table =>
    intro provided h
    refine ⟨_, ?_, isTable_table disabled oversizedLines provided.flatten⟩
    rw [discover, mapM_rules_eq_ok h]
    rfl
  case fault =>
    intro p hp hno
    have hbroken : ∃ f, plugins.mapM Plugin.rules = .error f := by
      by_contra hnone
      cases hall : plugins.mapM Plugin.rules with
      | error f => exact hnone ⟨f, hall⟩
      | ok provided =>
        obtain ⟨rs, hrs⟩ := exists_mapM_eq_ok_iff.mp ⟨provided, hall⟩ p hp
        exact hno rs (Plugin.rules_eq_ok_iff.mp hrs)
    obtain ⟨f, hf⟩ := hbroken
    obtain ⟨before, q, after, hsplit, hbefore, hq⟩ := mapM_eq_error_iff.mp hf
    refine ⟨before, q, after, f, hsplit, fun x hx => ?_, fun rs hrs => ?_,
      Plugin.rules_eq_error_iff.mp hq, ?_⟩
    · obtain ⟨rs, hrs⟩ := hbefore x hx
      exact ⟨rs, Plugin.rules_eq_ok_iff.mp hrs⟩
    · rw [Plugin.rules_eq_ok_iff.mpr hrs] at hq
      cases hq
    · rw [discover, hf]
      rfl

/-- A rule of an id that finds nothing. -/
def silentRule (id : String) : Rule :=
  .content ⟨id, "quality", "info", 0, "", ""⟩ [] true fun _ => .clear

/-- A plugin that would replace a built-in rule. -/
def shadowPlugin : Plugin := ⟨"shadow", .ok (.rule (silentRule "SQL-Injection"))⟩

/-- A plugin that makes two rules of one id. -/
def notesPlugin : Plugin :=
  ⟨"notes", .ok (.callable (.items [some (silentRule "notes"), some (silentRule "Notes")]))⟩

/-- No rule of the one plugin stays and one of the other, and of two broken ones behind that the
first is to blame. -/
theorem discover_isExact_shadowing :
    (∃ rules, discover ["Missing-Tests"] 500 [shadowPlugin, notesPlugin] = .ok rules ∧
      IsTable ["Missing-Tests"] (builtin 500)
        [silentRule "SQL-Injection", silentRule "notes", silentRule "Notes"] rules ∧
      rules.map id = ((builtin 500).map id).erase "missing-tests" ++ ["notes"]) ∧
    IsDiscovered [] 500 [notesPlugin, ⟨"broken", .ok .other⟩, ⟨"late", .error "lost"⟩]
      (.error (.noRules "broken")) := by
  have hprovided : List.Forall₂ Plugin.Provides [shadowPlugin, notesPlugin]
      [[silentRule "SQL-Injection"], [silentRule "notes", silentRule "Notes"]] :=
    .cons ⟨_, rfl, .rule _⟩
      (.cons ⟨_, rfl, .makerOfAll [silentRule "notes", silentRule "Notes"]⟩ .nil)
  obtain ⟨rules, hrules, htable⟩ :=
    (discover_isExact ["Missing-Tests"] 500 [shadowPlugin, notesPlugin]).table _ hprovided
  refine ⟨⟨rules, hrules, htable, ?_⟩, discover_isExact [] 500 _⟩
  cases hrules
  decide +kernel

end Rule

end ProjectSurvey
