import ProjectSurvey.Proofs.Json.Scalars
import ProjectSurvey.Proofs.Numerals
import ProjectSurvey.Rule.Discovery
import ProjectSurvey.Survey.Evidence

/-!
# What a signature tells

The signature of a rule table is a hash of a text. **Built-in rule tables with the same text observe
the same in every file** (`ofText_eq_of_signedText`): the text is that of the content rules one
after the other, each beginning with two letters of its own, and then the number of lines of an
oversized file, so that it can be taken apart again (`filter_eq_of_flatMap_append_eq`).
-/

namespace ProjectSurvey

/-! ### Taking a text apart -/

section

variable {α : Type} (T : α → List Char)

/-- A text begins like one of its parts, or like its end. -/
theorem take_flatMap_append {L : List α} (hlong : ∀ a ∈ L, 2 ≤ (T a).length) (E : List Char) :
    (L.flatMap T ++ E).take 2 = E.take 2 ∨ ∃ a ∈ L, (L.flatMap T ++ E).take 2 = (T a).take 2 := by
  cases L with
  | nil => exact .inl rfl
  | cons a L =>
    refine .inr ⟨a, List.mem_cons_self, ?_⟩
    rw [List.flatMap_cons, List.append_assoc,
      List.take_append_of_le_length (hlong a List.mem_cons_self)]

/-- **A text made of some of several parts tells which**, if each part and the end begin with two
characters of their own. -/
theorem filter_eq_of_flatMap_append_eq {L : List α} (p q : α → Bool)
    (hlong : ∀ a ∈ L, 2 ≤ (T a).length)
    (hown : L.Pairwise fun a b => (T a).take 2 ≠ (T b).take 2) {D E : List Char}
    (hD : ∀ a ∈ L, (T a).take 2 ≠ D.take 2) (hE : ∀ a ∈ L, (T a).take 2 ≠ E.take 2)
    (h : (L.filter p).flatMap T ++ D = (L.filter q).flatMap T ++ E) :
    L.filter p = L.filter q ∧ D = E := by
  induction L with
  | nil => exact ⟨rfl, h⟩
  | cons a L ih =>
    obtain ⟨ha, hlong⟩ := List.forall_mem_cons.mp hlong
    obtain ⟨haOwn, hown⟩ := List.pairwise_cons.mp hown
    obtain ⟨haD, hD⟩ := List.forall_mem_cons.mp hD
    obtain ⟨haE, hE⟩ := List.forall_mem_cons.mp hE
    -- A text that begins with the first part is none that begins with a later one or the end.
    have hother : ∀ (r : α → Bool) (F rest : List Char), (T a).take 2 ≠ F.take 2 →
        T a ++ rest ≠ (L.filter r).flatMap T ++ F := by
      intro r F rest hF heq
      have htake := congrArg (List.take 2) heq
      rw [List.take_append_of_le_length ha] at htake
      rcases take_flatMap_append T (L := L.filter r)
        (fun b hb => hlong b (List.mem_filter.mp hb).1) F with hend | ⟨b, hb, hbegin⟩
      · exact hF (htake.trans hend)
      · exact haOwn b (List.mem_filter.mp hb).1 (htake.trans hbegin)
    have hrest := ih hlong hown hD hE
    rw [List.filter_cons, List.filter_cons] at h ⊢
    by_cases hp : p a = true <;> by_cases hq : q a = true
    · rw [if_pos hp, if_pos hq, List.flatMap_cons, List.flatMap_cons, List.append_assoc,
        List.append_assoc] at h
      obtain ⟨hsame, hend⟩ := hrest (List.append_cancel_left h)
      rw [if_pos hp, if_pos hq, hsame]
      exact ⟨rfl, hend⟩
    · rw [if_pos hp, if_neg hq, List.flatMap_cons, List.append_assoc] at h
      exact absurd h (hother q E _ haE)
    · rw [if_neg hp, if_pos hq, List.flatMap_cons, List.append_assoc] at h
      exact absurd h.symm (hother p D _ haD)
    · rw [if_neg hp, if_neg hq] at h ⊢
      exact hrest h

end

/-! ### The table of a run -/

namespace Rule

/-- Where no id comes twice, a rule stays unless its id is banned. -/
theorem firstOfEach_eq_filter {rules : List Rule} (h : (rules.map key).Nodup)
    (banned : List String) :
    firstOfEach banned rules = rules.filter fun r => !banned.contains r.key := by
  induction rules generalizing banned with
  | nil => rfl
  | cons r rules ih =>
    rw [List.map_cons, List.nodup_cons] at h
    obtain ⟨hnew, hrest⟩ := h
    rw [firstOfEach]
    by_cases hr : banned.contains r.key = true
    · rw [if_pos hr, List.filter_cons_of_neg (by rw [hr]; decide), ih hrest]
    · rw [if_neg hr, List.filter_cons_of_pos (by rw [Bool.not_eq_true] at hr; rw [hr]; rfl),
        ih hrest]
      refine congrArg (List.cons r) (List.filter_congr ?_)
      intro x hx
      have hne : x.key ≠ r.key := fun heq => hnew (heq ▸ List.mem_map_of_mem hx)
      rw [List.contains_cons, beq_eq_false_iff_ne.mpr hne, Bool.false_or]

/-- The built-in rules have distinct keys. -/
theorem nodup_keys_builtin (oversizedLines : Int) :
    ((builtin oversizedLines).map key).Nodup := by
  show ((builtin 0).map key).Nodup
  decide +kernel

/-- A rule of the built-in table stays unless it is disabled. -/
theorem table_eq_filter (disabled : List String) (oversizedLines : Int) :
    table disabled oversizedLines [] =
      (builtin oversizedLines).filter fun r => !(disabled.map Text.lowered).contains r.key := by
  rw [table, List.append_nil, firstOfEach_eq_filter (nodup_keys_builtin oversizedLines)]

/-- The built-in rules about the text of files. -/
def builtinContent (oversizedLines : Int) : List Rule := (builtin oversizedLines).filter isContent

/-- Whether a rule of an id stays. -/
def stays (disabled : List String) (id : String) : Bool :=
  !(disabled.map Text.lowered).contains (Text.lowered id)

/-- The content rules of the table of a run. -/
theorem filter_isContent_table (disabled : List String) (oversizedLines : Int) :
    (table disabled oversizedLines []).filter isContent =
      (builtinContent oversizedLines).filter fun r => stays disabled r.id := by
  rw [table_eq_filter, builtinContent, List.filter_filter, List.filter_filter]
  refine List.filter_congr ?_
  intro r _
  exact Bool.and_comm _ _

end Rule

namespace Engine

open Rule

/-- Rules about the project contribute nothing to a signature. -/
theorem flatMap_signatureText (rules : List Rule) :
    rules.flatMap signatureText = (rules.filter isContent).flatMap signatureText := by
  induction rules with
  | nil => rfl
  | cons r rules ih =>
    cases r with
    | content i languages skipsTests check =>
      rw [List.filter_cons_of_pos rfl, List.flatMap_cons, List.flatMap_cons, ih]
    | project i check =>
      rw [List.filter_cons_of_neg (by simp [isContent]), List.flatMap_cons, ih]
      rfl

/-- Rules about the project find nothing in a file. -/
theorem scanContent_filter_isContent (rules : List Rule) (record : FileRecord) (text : List Char) :
    scanContent (rules.filter isContent) record text = scanContent rules record text := by
  unfold scanContent
  rw [List.filter_filter]
  refine congrArg (List.filterMap _) (List.filter_congr ?_)
  intro r _
  cases r with
  | content i languages skipsTests check => exact Bool.and_true _
  | project i check => rfl

/-- The findings in a file depend on its path, its language and whether it holds tests. -/
theorem scanContent_congr (rules : List Rule) {r r' : FileRecord} (hpath : r.path = r'.path)
    (hlanguage : r.language = r'.language) (htest : r.kind.isTest = r'.kind.isTest)
    (text : List Char) : scanContent rules r text = scanContent rules r' text := by
  unfold scanContent
  rw [hpath]
  refine congrArg (List.filterMap _) (List.filter_congr ?_)
  intro x _
  exact x.appliesTo_congr hlanguage htest

/-- What a content rule contributes to a signature begins with its id. -/
theorem signatureText_eq_append {r : Rule} (h : r.isContent = true) :
    ∃ rest, signatureText r = r.id.toList ++ rest := by
  cases r with
  | content i languages skipsTests check =>
    rw [signatureText, String.toList_append, String.toList_append, String.toList_append,
      String.toList_append, String.toList_append, List.append_assoc, List.append_assoc,
      List.append_assoc, List.append_assoc, List.append_assoc]
    exact ⟨_, rfl⟩
  | project i check => cases h

/-- What each built-in content rule contributes begins with two characters of its own, the first of
which no number begins with. -/
theorem ids_builtinContent :
    ((builtinContent 0).map Rule.id).Pairwise (fun i j => i.toList.take 2 ≠ j.toList.take 2) ∧
      ((builtinContent 0).map Rule.id).all (fun i => decide (2 ≤ i.toList.length) &&
        i.toList.head?.all fun c => c != '-' && !Text.isAsciiDigit c) = true := by
  decide

/-- The names of the rules have two characters or more and do not start as a number does. -/
theorem head_of_mem_ids {i : String} (h : i ∈ (builtinContent 0).map Rule.id) :
    2 ≤ i.toList.length ∧ ∀ c ∈ i.toList.head?, c ≠ '-' ∧ Text.isAsciiDigit c = false := by
  have hi := List.all_eq_true.mp ids_builtinContent.2 i h
  rw [Bool.and_eq_true, decide_eq_true_eq, Option.all_eq_true] at hi
  refine ⟨hi.1, ?_⟩
  intro c hc
  have hchar := hi.2 c hc
  rwa [Bool.and_eq_true, bne_iff_ne, Bool.not_eq_true'] at hchar

end Engine

/-! ### The built-in tables -/

namespace Gathering

open Rule Engine

/-- The text that a signature of the built-in table of a run is made of. -/
def signedTextOf (disabled : List String) (oversizedLines : Int) : List Char :=
  Engine.signedText (table disabled oversizedLines []) (signedValues oversizedLines)

/-- The values that are signed can be shown if the number of lines can. -/
theorem areShowable_signedValues {oversizedLines : Int} :
    Datum.areShowable (signedValues oversizedLines) = true ↔
      oversizedLines.natAbs < Datum.shownBelow := by
  have hversion : (Datum.int extractionVersion).isShowable = true := by
    rw [Datum.isShowable, decide_eq_true_eq]
    exact Json.lt_shownBelow_of_lt_ten (n := 1) (by decide)
  rw [signedValues, Datum.areShowable, Datum.areShowable, Datum.areShowable, hversion,
    Datum.isShowable]
  simp

/-- There is a signature if and only if the number of lines can be shown, whatever the rules. -/
theorem isSome_signatureOf?_iff (rules : List Rule) {oversizedLines : Int} :
    (signatureOf? rules oversizedLines).isSome ↔ oversizedLines.natAbs < Datum.shownBelow := by
  rw [← areShowable_signedValues]
  unfold signatureOf? Engine.signature?
  cases Datum.areShowable (signedValues oversizedLines) with
  | true => exact iff_of_true rfl rfl
  | false => exact iff_of_false Bool.false_ne_true Bool.false_ne_true

/-- **A signature is the hash of the text, if the number of lines can be shown.** -/
theorem signatureOf?_eq_some_iff {disabled : List String} {oversizedLines : Int}
    {signature : String} :
    signatureOf? (table disabled oversizedLines []) oversizedLines = some signature ↔
      oversizedLines.natAbs < Datum.shownBelow ∧
        Sha256.hash (Text.Utf8.encode (signedTextOf disabled oversizedLines)) = signature := by
  rw [← areShowable_signedValues]
  unfold signatureOf? Engine.signature?
  by_cases hlines : Datum.areShowable (signedValues oversizedLines) = true
  · rw [if_pos hlines, Option.some_inj, and_iff_right hlines]
    rfl
  · simp [hlines]

/-- What the content rules contribute to a signature, beside their ids. It does not depend on the
number of lines of an oversized file, which only a check knows. -/
def signedParts : List (String × List Char) :=
  (builtinContent 0).map fun r => (r.id, signatureText r)

/-- The signed text is the signs of the rules that stay, then the limit of lines, then the
version. -/
theorem signedTextOf_eq (disabled : List String) (oversizedLines : Int) :
    signedTextOf disabled oversizedLines =
      (signedParts.filter fun x => stays disabled x.1).flatMap Prod.snd ++
        (Text.decimalInt oversizedLines ++ ['1']) := by
  have hparts : signedParts =
      (builtinContent oversizedLines).map fun r => (r.id, signatureText r) := rfl
  rw [signedTextOf, signedText, flatMap_signatureText, filter_isContent_table, hparts,
    List.filter_map, List.flatMap_map]
  rfl

/-- The sign of a rule starts as its name does. -/
theorem mem_signedParts {x : String × List Char} (h : x ∈ signedParts) :
    2 ≤ x.2.length ∧ x.2.take 2 = x.1.toList.take 2 ∧
      ∀ c ∈ x.2.head?, c ≠ '-' ∧ Text.isAsciiDigit c = false := by
  obtain ⟨r, hr, rfl⟩ := List.mem_map.mp h
  obtain ⟨hlong, hhead⟩ := head_of_mem_ids (List.mem_map_of_mem (f := Rule.id) hr)
  obtain ⟨rest, hrest⟩ := signatureText_eq_append (List.mem_filter.mp hr).2
  rw [hrest]
  refine ⟨?_, List.take_append_of_le_length hlong, ?_⟩
  · rw [List.length_append]
    exact Nat.le_trans hlong (Nat.le_add_right _ _)
  · obtain ⟨c, cs, hcs⟩ := List.exists_cons_of_length_pos (Nat.lt_of_lt_of_le Nat.zero_lt_two hlong)
    rw [hcs] at hhead ⊢
    exact hhead

/-- No part begins like the number at the end. -/
theorem take_ne_of_mem_signedParts {x : String × List Char} (h : x ∈ signedParts) (n : Int) :
    x.2.take 2 ≠ (Text.decimalInt n ++ ['1']).take 2 := by
  obtain ⟨hlong, -, hhead⟩ := mem_signedParts h
  obtain ⟨d, ds, hds, hd⟩ := Text.exists_decimalInt_eq_cons n
  obtain ⟨c, cs, hcs⟩ := List.exists_cons_of_length_pos (Nat.lt_of_lt_of_le Nat.zero_lt_two hlong)
  rw [hds, hcs]
  intro heq
  obtain ⟨rfl, -⟩ := List.cons.inj heq
  obtain ⟨hminus, hdigit⟩ := hhead c (by rw [hcs]; rfl)
  rcases hd with rfl | hd
  · exact hminus rfl
  · rw [hd] at hdigit
    cases hdigit

/-- Two of the signs differ within their first two characters. -/
theorem pairwise_signedParts :
    signedParts.Pairwise fun x y => x.2.take 2 ≠ y.2.take 2 := by
  have hids := ids_builtinContent.1
  have hfst : signedParts.map Prod.fst = (builtinContent 0).map Rule.id := by
    rw [signedParts, List.map_map]
    rfl
  rw [← hfst, List.pairwise_map] at hids
  refine hids.imp_of_mem ?_
  intro x y hx hy hne
  rw [(mem_signedParts hx).2.1, (mem_signedParts hy).2.1]
  exact hne

/-- **The text tells which content rules stay and how many lines make a file oversized.** -/
theorem eq_of_signedTextOf_eq {disabled disabled' : List String} {n n' : Int}
    (h : signedTextOf disabled n = signedTextOf disabled' n') :
    n = n' ∧ (table disabled n []).filter isContent = (table disabled' n' []).filter isContent := by
  rw [signedTextOf_eq, signedTextOf_eq] at h
  obtain ⟨hparts, hend⟩ := filter_eq_of_flatMap_append_eq Prod.snd
    (fun x => stays disabled x.1) (fun x => stays disabled' x.1)
    (fun x hx => (mem_signedParts hx).1) pairwise_signedParts
    (fun x hx => take_ne_of_mem_signedParts hx n) (fun x hx => take_ne_of_mem_signedParts hx n') h
  have hn : n = n' := Text.decimalInt_injective (List.append_inj_left' hend rfl)
  subst hn
  refine ⟨rfl, ?_⟩
  have hstays : ∀ x ∈ signedParts, stays disabled x.1 = stays disabled' x.1 := by
    intro x hx
    have hiff : x ∈ signedParts.filter (fun x => stays disabled x.1) ↔
        x ∈ signedParts.filter (fun x => stays disabled' x.1) := by rw [hparts]
    rw [List.mem_filter, List.mem_filter, and_iff_right hx, and_iff_right hx] at hiff
    exact Bool.eq_iff_iff.mpr hiff
  rw [filter_isContent_table, filter_isContent_table]
  refine List.filter_congr ?_
  intro r hr
  have hpart : (r.id, signatureText r) ∈
      (builtinContent n).map fun r => (r.id, signatureText r) := List.mem_map_of_mem hr
  exact hstays (r.id, signatureText r) hpart

/-- **Tables with the same text give the same evidence**, for records that agree on the path, the
language and whether the file holds tests. -/
theorem ofText_eq_of_signedText {disabled disabled' : List String} {n n' : Int}
    (h : signedTextOf disabled n = signedTextOf disabled' n') {r r' : FileRecord}
    (hpath : r.path = r'.path) (hlanguage : r.language = r'.language)
    (htest : r.kind.isTest = r'.kind.isTest) (text : Option (List Char)) :
    Evidence.ofText (table disabled n []) r text =
    Evidence.ofText (table disabled' n' []) r' text := by
  obtain ⟨-, hrules⟩ := eq_of_signedTextOf_eq h
  cases text with
  | none => rw [Evidence.ofText, Evidence.ofText, hpath]
  | some cs =>
    rw [Evidence.ofText, Evidence.ofText, ← scanContent_filter_isContent, hrules,
      scanContent_filter_isContent, scanContent_congr _ hpath hlanguage htest, hpath, hlanguage]

end Gathering

end ProjectSurvey
