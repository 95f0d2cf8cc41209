import ProjectSurvey.Proofs.Text.Parts
import ProjectSurvey.Text.Classes

/-!
# Integers as people write them

A text writes an integer if it is digits of any script, single underscores between some of them,
with a sign in front or none, with white space around, and of no more digits than are read
(`WritesInteger`). **The reader takes exactly these texts, and takes them for what they write**
(`integer?_eq_some_iff`).
-/

namespace ProjectSurvey.Text

/-! ### Digits -/

/-- Digits of any script, one after the other or with an underscore between, and their values. -/
inductive SpellsDigits : List Char → List Nat → Prop where
  | last {c v} : decimalValue? c = some v → SpellsDigits [c] [v]
  | next {c v cs vs} : decimalValue? c = some v → SpellsDigits cs vs →
      SpellsDigits (c :: cs) (v :: vs)
  | apart {c v cs vs} : decimalValue? c = some v → SpellsDigits cs vs →
      SpellsDigits (c :: '_' :: cs) (v :: vs)

/-- The number that has digits of the given values behind those of a number. -/
def numberOf (front : Nat) (vs : List Nat) : Nat := vs.foldl (fun n v => n * 10 + v) front

/-- An underscore is no digit, -/
theorem decimalValue?_underscore : decimalValue? '_' = none := by decide

/-- and no digit is an underscore. -/
theorem ne_underscore {c : Char} {v : Nat} (h : decimalValue? c = some v) : c ≠ '_' := by
  rintro rfl
  rw [decimalValue?_underscore] at h
  cases h

namespace SpellsDigits

variable {cs : List Char} {vs : List Nat}

/-- What spells digits starts with one -/
theorem exists_head (h : SpellsDigits cs vs) :
    ∃ c rest, cs = c :: rest ∧ (decimalValue? c).isSome = true := by
  cases h with
  | last hc | next hc _ | apart hc _ => exact ⟨_, _, rfl, Option.isSome_of_mem hc⟩

/-- and ends with one. -/
theorem exists_last (h : SpellsDigits cs vs) :
    ∃ front c, cs = front ++ [c] ∧ (decimalValue? c).isSome = true := by
  induction h with
  | last hc => exact ⟨[], _, rfl, Option.isSome_of_mem hc⟩
  | next hc _ ih =>
    obtain ⟨front, c, rfl, h⟩ := ih
    exact ⟨_ :: front, c, rfl, h⟩
  | apart hc _ ih =>
    obtain ⟨front, c, rfl, h⟩ := ih
    exact ⟨_ :: '_' :: front, c, rfl, h⟩

/-- The underscores apart there are as many characters as digits. -/
theorem length_filter (h : SpellsDigits cs vs) : (cs.filter (· != '_')).length = vs.length := by
  induction h with
  | last hc => simp [ne_underscore hc]
  | next hc _ ih => simp [ne_underscore hc, ih]
  | apart hc _ ih => simp [ne_underscore hc, ih]

end SpellsDigits

/-- A digit adds its value to ten times what was read. -/
theorem digitsValue?_go_cons {c : Char} {v : Nat} (h : decimalValue? c = some v)
    (acc : Option Nat) (cs : List Char) :
    digitsValue?.go acc (c :: cs) = digitsValue?.go (some (acc.getD 0 * 10 + v)) cs := by
  rw [digitsValue?.go.eq_def]
  dsimp only
  rw [h]

/-- An underscore is passed over between two digits. -/
theorem digitsValue?_go_underscore {c : Char} {v : Nat} (h : decimalValue? c = some v) (n : Nat)
    (cs : List Char) :
    digitsValue?.go (some n) ('_' :: c :: cs) = digitsValue?.go (some n) (c :: cs) := by
  rw [digitsValue?_go_cons h, digitsValue?.go.eq_def]
  simp only [decimalValue?_underscore, h, Option.getD_some]

/-- What spells digits is read as the number of their values. -/
theorem SpellsDigits.go_eq {cs : List Char} {vs : List Nat} (h : SpellsDigits cs vs)
    (acc : Option Nat) : digitsValue?.go acc cs = some (numberOf (acc.getD 0) vs) := by
  induction h generalizing acc with
  | last hc => exact digitsValue?_go_cons hc acc []
  | next hc _ ih =>
    rw [digitsValue?_go_cons hc, ih]
    rfl
  | apart hc hcs ih =>
    obtain ⟨c, rest, rfl, h⟩ := hcs.exists_head
    obtain ⟨v, hv⟩ := Option.isSome_iff_exists.mp h
    rw [digitsValue?_go_cons hc, digitsValue?_go_underscore hv, ih]
    rfl

/-- What may follow a digit: nothing, or more digits, with an underscore in front or without. -/
def FollowsDigit (cs : List Char) (vs : List Nat) : Prop :=
  cs = [] ∧ vs = [] ∨ SpellsDigits cs vs ∨ ∃ rest, cs = '_' :: rest ∧ SpellsDigits rest vs

/-- What follows a digit spells digits with it. -/
theorem FollowsDigit.spells {c : Char} {v : Nat} {cs : List Char} {vs : List Nat}
    (h : FollowsDigit cs vs) (hc : decimalValue? c = some v) :
    SpellsDigits (c :: cs) (v :: vs) := by
  rcases h with ⟨rfl, rfl⟩ | h | ⟨rest, rfl, h⟩
  · exact .last hc
  · exact .next hc h
  · exact .apart hc h

/-- What is read behind a digit follows one, and gives the number. -/
theorem followsDigit_of_go {n m : Nat} {cs : List Char} (h : digitsValue?.go (some n) cs = some m) :
    ∃ vs, FollowsDigit cs vs ∧ m = numberOf n vs := by
  generalize hacc : some n = acc at h
  fun_induction digitsValue?.go acc cs generalizing n with
  | case1 acc =>
    subst hacc
    exact ⟨[], .inl ⟨rfl, rfl⟩, (Option.some.inj h).symm⟩
  | case2 acc c cs v hc ih =>
    subst hacc
    obtain ⟨vs, hvs, rfl⟩ := ih rfl h
    exact ⟨v :: vs, .inr (.inl (hvs.spells hc)), rfl⟩
  | case3 n' d rest v hd hnone ih =>
    cases hacc
    obtain ⟨vs, hvs, rfl⟩ := ih rfl h
    exact ⟨v :: vs, .inr (.inr ⟨_, rfl, hvs.spells hd⟩), rfl⟩
  | case4 => cases h
  | case5 => cases h

/-- **A text has a value as a number exactly if it spells digits**, and then that of the digits. -/
theorem digitsValue?_eq_some_iff {cs : List Char} {n : Nat} :
    digitsValue? cs = some n ↔ ∃ vs, SpellsDigits cs vs ∧ n = numberOf 0 vs := by
  constructor
  · intro h
    unfold digitsValue? at h
    cases cs with
    | nil => cases h
    | cons c cs =>
      cases hc : decimalValue? c with
      | none =>
        rw [digitsValue?.go.eq_def] at h
        dsimp only at h
        rw [hc] at h
        simp at h
      | some v =>
        rw [digitsValue?_go_cons hc] at h
        obtain ⟨vs, hvs, rfl⟩ := followsDigit_of_go h
        exact ⟨v :: vs, hvs.spells hc, rfl⟩
  · rintro ⟨vs, hvs, rfl⟩
    exact hvs.go_eq none

/-! ### Signs and white space -/

/-- No digit is white space. -/
theorem isNumberBlank_of_decimalValue? {c : Char} (h : (decimalValue? c).isSome = true) :
    isNumberBlank c = false := by
  have hcodes : ∀ n ∈ blankCodes, decimalValue? (Char.ofNat n) = none := by decide +kernel
  have hapart : ∀ z ∈ decimalZeros, z + 9 < 0x2000 ∨ 0x205f < z := by decide
  by_contra hblank
  rw [Bool.not_eq_false, isNumberBlank, Bool.and_eq_true] at hblank
  by_cases hspace : 0x2000 ≤ c.toNat ∧ c.toNat ≤ 0x205f
  · unfold decimalValue? at h
    dsimp only at h
    rw [if_neg (by omega), Option.isSome_map, List.find?_isSome] at h
    obtain ⟨z, hz, hc⟩ := h
    have hz := hapart z hz
    simp only [Bool.and_eq_true, decide_eq_true_eq] at hc
    omega
  · rw [← Char.ofNat_toNat c, hcodes _ (mem_blankCodes hblank.1 hspace)] at h
    cases h

/-- What a sign in front of a number makes of it; there may be none. -/
inductive IsSigned : List Char → Nat → Int → Prop where
  | bare (n : Nat) : IsSigned [] n n
  | plus (n : Nat) : IsSigned ['+'] n n
  | minus (n : Nat) : IsSigned ['-'] n (-n)

/-- Whether a text is digits with a sign in front or none, and few enough of them. -/
def IsNumeral (cs : List Char) (n : Int) : Prop :=
  ∃ sign digits vs, cs = sign ++ digits ∧ SpellsDigits digits vs ∧ vs.length ≤ digitLimit ∧
    IsSigned sign (numberOf 0 vs) n

/-- Whether a text writes an integer: a numeral with white space around it. -/
def WritesInteger (cs : List Char) (n : Int) : Prop :=
  ∃ front numeral back, cs = front ++ (numeral ++ back) ∧
    (∀ c ∈ front, isNumberBlank c = true) ∧ (∀ c ∈ back, isNumberBlank c = true) ∧
    IsNumeral numeral n

/-- What starts with no digit spells none. -/
theorem not_spellsDigits_cons {c : Char} (h : decimalValue? c = none) (cs : List Char)
    (vs : List Nat) : ¬ SpellsDigits (c :: cs) vs := by
  intro hcs
  obtain ⟨d, rest, heq, hd⟩ := hcs.exists_head
  cases heq
  rw [h] at hd
  cases hd

section Reading

variable {cs : List Char} {n : Int}

/-- A numeral with a minus sign is the negative of what its digits spell. -/
theorem isNumeral_minus : IsNumeral ('-' :: cs) n ↔
    ∃ vs, SpellsDigits cs vs ∧ vs.length ≤ digitLimit ∧ -(numberOf 0 vs : Int) = n := by
  constructor
  · rintro ⟨sign, digits, vs, heq, hvs, hlimit, hsign⟩
    cases hsign with
    | bare =>
      subst heq
      exact absurd hvs (not_spellsDigits_cons (by decide) cs vs)
    | plus => cases heq
    | minus =>
      cases heq
      exact ⟨vs, hvs, hlimit, rfl⟩
  · rintro ⟨vs, hvs, hlimit, rfl⟩
    exact ⟨['-'], cs, vs, rfl, hvs, hlimit, .minus _⟩

/-- One with a plus sign is what its digits spell. -/
theorem isNumeral_plus : IsNumeral ('+' :: cs) n ↔
    ∃ vs, SpellsDigits cs vs ∧ vs.length ≤ digitLimit ∧ (numberOf 0 vs : Int) = n := by
  constructor
  · rintro ⟨sign, digits, vs, heq, hvs, hlimit, hsign⟩
    cases hsign with
    | bare =>
      subst heq
      exact absurd hvs (not_spellsDigits_cons (by decide) cs vs)
    | plus =>
      cases heq
      exact ⟨vs, hvs, hlimit, rfl⟩
    | minus => cases heq
  · rintro ⟨vs, hvs, hlimit, rfl⟩
    exact ⟨['+'], cs, vs, rfl, hvs, hlimit, .plus _⟩

/-- One without a sign is that too. -/
theorem isNumeral_bare (hminus : ∀ r, cs ≠ '-' :: r) (hplus : ∀ r, cs ≠ '+' :: r) :
    IsNumeral cs n ↔
      ∃ vs, SpellsDigits cs vs ∧ vs.length ≤ digitLimit ∧ (numberOf 0 vs : Int) = n := by
  constructor
  · rintro ⟨sign, digits, vs, heq, hvs, hlimit, hsign⟩
    cases hsign with
    | bare =>
      cases heq
      exact ⟨vs, hvs, hlimit, rfl⟩
    | plus => exact absurd heq (hplus digits)
    | minus => exact absurd heq (hminus digits)
  · rintro ⟨vs, hvs, hlimit, rfl⟩
    exact ⟨[], cs, vs, rfl, hvs, hlimit, .bare _⟩

/-- The reading of digits, up to the limit, as the integer that is made of their number. -/
theorem readDigits_eq_some_iff {make : Int → Int} :
    (if (cs.filter (· != '_')).length ≤ digitLimit then (digitsValue? cs).map make
      else none) = some n ↔
      ∃ vs, SpellsDigits cs vs ∧ vs.length ≤ digitLimit ∧ make (numberOf 0 vs) = n := by
  constructor
  · intro h
    split at h
    · next hlimit =>
      obtain ⟨m, hm, rfl⟩ := Option.map_eq_some_iff.mp h
      obtain ⟨k, hk, hm⟩ := Option.bind_eq_some_iff.mp hm
      cases hm
      obtain ⟨vs, hvs, rfl⟩ := digitsValue?_eq_some_iff.mp hk
      exact ⟨vs, hvs, hvs.length_filter ▸ hlimit, rfl⟩
    · cases h
  · rintro ⟨vs, hvs, hlimit, rfl⟩
    rw [if_pos (hvs.length_filter ▸ hlimit), digitsValue?_eq_some_iff.mpr ⟨vs, hvs, rfl⟩]
    rfl

/-- An integer is read exactly from a numeral, blanks at its edges apart. -/
theorem integer?_eq_some_iff_isNumeral : integer? cs = some n ↔ IsNumeral (stripNumber cs) n := by
  unfold integer?
  generalize stripNumber cs = rest
  split
  next negative digits heq =>
  refine readDigits_eq_some_iff.trans ?_
  split at heq
  · cases heq
    exact isNumeral_minus.symm
  · cases heq
    exact isNumeral_plus.symm
  · next hminus hplus =>
    cases heq
    exact (isNumeral_bare hminus hplus).symm

/-- A numeral has no white space at its ends. -/
theorem IsNumeral.stripNumber_eq (h : IsNumeral cs n) : stripNumber cs = cs := by
  obtain ⟨sign, digits, vs, rfl, hvs, -, hsign⟩ := h
  obtain ⟨c, rest, hhead, hc⟩ := hvs.exists_head
  obtain ⟨front, d, hlast, hd⟩ := hvs.exists_last
  refine trim_eq_self ?_ ?_
  · cases hsign with
    | bare =>
      rw [hhead]
      rintro c' ⟨⟩
      exact isNumberBlank_of_decimalValue? hc
    | plus | minus =>
      rintro c' ⟨⟩
      decide
  · rw [hlast, ← List.append_assoc]
    intro d' hd'
    rw [List.getLast?_concat] at hd'
    cases hd'
    exact isNumberBlank_of_decimalValue? hd

/-- **What is read as an integer is what writes one.** -/
theorem integer?_eq_some_iff : integer? cs = some n ↔ WritesInteger cs n := by
  rw [integer?_eq_some_iff_isNumeral]
  constructor
  · intro h
    obtain ⟨front, hleft, hfront⟩ := exists_trimLeft isNumberBlank cs
    obtain ⟨back, hright, hback⟩ := exists_trimRight isNumberBlank (trimLeft isNumberBlank cs)
    have hsplit : cs = front ++ (stripNumber cs ++ back) :=
      hleft.trans (congrArg (front ++ ·) hright)
    exact ⟨front, stripNumber cs, back, hsplit, hfront, hback, h⟩
  · rintro ⟨front, numeral, back, rfl, hfront, hback, h⟩
    rwa [stripNumber, trim_append numeral hfront hback, ← stripNumber, h.stripNumber_eq]

end Reading

end ProjectSurvey.Text
