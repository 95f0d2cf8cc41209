import ProjectSurvey.Json.Reader
import ProjectSurvey.Json.Writer
import ProjectSurvey.Proofs.Numerals
import ProjectSurvey.Proofs.Text.Parts

/-!
# Reading scalars that were written

What `Json.scalarText` writes, `Json.scalar` reads, whatever follows in a container (`Follows`). **A
string comes back character by character** (`stringTail_stringChar`): a short escape, the character
itself, one code unit or a pair of them.
-/

namespace ProjectSurvey.Json

/-! ### Strings -/

/-- A code unit is written in four digits that are read as the unit. -/
theorem exists_hexadecimal_eq {u : Nat} (h : u < 65536) :
    ∃ a b c d, Text.hexadecimal 4 u = [a, b, c, d] ∧ hex4? a b c d = some u := by
  have hlength : (Text.hexadecimal 4 u).length = 4 := Text.length_hexadecimal (by decide) h
  have hvalue := Text.number?_hexadecimal 4 u
  match hdigits : Text.hexadecimal 4 u, hlength with
  | [a, b, c, d], _ =>
    rw [hdigits] at hvalue
    exact ⟨a, b, c, d, rfl, hvalue⟩

/-- A code unit is read as it is pushed. -/
theorem stringTail_unitEscape {u : Nat} (h : u < 65536) (acc : List Char) (high : Option Nat)
    (rest : List Char) :
    stringTail acc high (unitEscape u ++ rest) =
      stringTail (pushUnit acc high u).1 (pushUnit acc high u).2 rest := by
  obtain ⟨a, b, c, d, hdigits, hvalue⟩ := exists_hexadecimal_eq h
  unfold unitEscape
  rw [hdigits]
  show stringTail acc high ('\\' :: 'u' :: a :: b :: c :: d :: rest) = _
  rw [stringTail, hvalue]

/-- An escaped character is read as what it stands for. -/
theorem stringTail_escape {e c : Char} (he : escape? e = some c) (hu : e ≠ 'u') (acc : List Char)
    (rest : List Char) :
    stringTail acc none ('\\' :: e :: rest) = stringTail (c :: acc) none rest := by
  rw [stringTail, he]
  · rfl
  · intro a b c d cs hu'
    exact absurd hu' (by simp [hu])

/-- A plain character is read as itself. -/
theorem stringTail_plain {c : Char} (hquote : c ≠ '"') (hslash : c ≠ '\\') (hplain : 32 ≤ c.toNat)
    (acc : List Char) (rest : List Char) :
    stringTail acc none (c :: rest) = stringTail (c :: acc) none rest := by
  rw [stringTail, if_neg]
  · rfl
  · rintro (h | h)
    · exact absurd h (Nat.not_lt.mpr hplain)
    · exact hslash h
  all_goals simp_all

/-- A unit that is no surrogate is a character. -/
theorem pushUnit_character (acc : List Char) {u : Nat} (h : u < 0xd800 ∨ 0xdfff < u) :
    pushUnit acc none u = (Char.ofNat u :: acc, none) := by
  show (if _ then _ else if _ then _ else _) = _
  rw [if_neg (by omega), if_neg (by omega)]

/-- The first code unit of a pair waits for the second one. -/
theorem pushUnit_first (acc : List Char) {u : Nat} (h : 0xd800 ≤ u ∧ u < 0xdc00) :
    pushUnit acc none u = (acc, some u) := if_pos h

/-- A second surrogate makes one character with the first. -/
theorem pushUnit_second (acc : List Char) (first : Nat) {u : Nat} (h : 0xdc00 ≤ u ∧ u < 0xe000) :
    pushUnit acc (some first) u =
      (Char.ofNat (0x10000 + (first - 0xd800) * 1024 + (u - 0xdc00)) :: acc, none) := if_pos h

/-- A character is no surrogate, and not beyond the last plane. -/
theorem toNat_isScalar (c : Char) : c.toNat < 0xd800 ∨ 0xdfff < c.toNat ∧ c.toNat < 1114112 :=
  c.valid

/-- **A written character is read as itself.** -/
theorem stringTail_stringChar (c : Char) (acc rest : List Char) :
    stringTail acc none (stringChar c ++ rest) = stringTail (c :: acc) none rest := by
  have hvalid := toNat_isScalar c
  have hself : Char.ofNat c.toNat = c := Char.ofNat_toNat c
  unfold stringChar
  split
  · exact stringTail_escape rfl (by decide) acc rest
  · exact stringTail_escape rfl (by decide) acc rest
  · exact stringTail_escape rfl (by decide) acc rest
  · exact stringTail_escape rfl (by decide) acc rest
  · exact stringTail_escape rfl (by decide) acc rest
  · next hquote hslash _ _ _ =>
    dsimp only
    by_cases h8 : c.toNat = 8
    · rw [if_pos h8, ← hself, h8]
      exact stringTail_escape rfl (by decide) acc rest
    by_cases h12 : c.toNat = 12
    · rw [if_neg h8, if_pos h12, ← hself, h12]
      exact stringTail_escape rfl (by decide) acc rest
    rw [if_neg h8, if_neg h12]
    by_cases hplain : 32 ≤ c.toNat ∧ c.toNat < 127
    · rw [if_pos hplain]
      exact stringTail_plain hquote hslash hplain.1 acc rest
    rw [if_neg hplain]
    by_cases hunit : c.toNat < 65536
    · rw [if_pos hunit, stringTail_unitEscape hunit, pushUnit_character acc (by omega), hself]
    · have hmod : (c.toNat - 65536) % 1024 < 1024 := Nat.mod_lt _ (by decide)
      have hsum : 0x10000 + (0xd800 + (c.toNat - 0x10000) / 1024 - 0xd800) * 1024 +
          (0xdc00 + (c.toNat - 0x10000) % 1024 - 0xdc00) = c.toNat := by omega
      rw [if_neg hunit, List.append_assoc, stringTail_unitEscape (by omega),
        pushUnit_first acc (by omega), stringTail_unitEscape (by omega),
        pushUnit_second acc _ (by omega), hsum, hself]

/-- The characters of a string, written one by one, are read back in order. -/
theorem stringTail_flatMap (cs acc rest : List Char) :
    stringTail acc none (cs.flatMap stringChar ++ '"' :: rest) =
      .ok (String.ofList (acc.reverse ++ cs), rest) := by
  induction cs generalizing acc with
  | nil =>
    rw [List.flatMap_nil, List.nil_append, stringTail, List.append_nil]
    rfl
  | cons c cs ih =>
    rw [List.flatMap_cons, List.append_assoc, stringTail_stringChar, ih, List.reverse_cons,
      List.append_assoc, List.singleton_append]

/-- A written string is read as itself. -/
theorem stringTail_string (s : String) (rest : List Char) :
    stringTail [] none (s.toList.flatMap stringChar ++ '"' :: rest) = .ok (s, rest) := by
  rw [stringTail_flatMap, List.reverse_nil, List.nil_append, String.ofList_toList]

/-- A string is written between quotes. -/
theorem string_append (s : String) (rest : List Char) :
    string s ++ rest = '"' :: (s.toList.flatMap stringChar ++ '"' :: rest) := by
  unfold string
  simp

/-! ### Numbers -/

/-- What may follow a value: the end, a comma or a new line. -/
def Follows (rest : List Char) : Prop := ∀ c, rest.head? = some c → c = ',' ∨ c = '\n'

/-- What follows a value begins with no digit. -/
theorem Follows.digits {rest : List Char} (h : Follows rest) : digits rest = ([], rest) := by
  cases rest with
  | nil => rfl
  | cons c rest =>
    have hc : Text.isAsciiDigit c = false := by
      rcases h c rfl with rfl | rfl <;> decide
    simp [Json.digits, hc]

/-- Digits end where what follows a value begins. -/
theorem digits_append (cs : List Char) {rest : List Char} (h : Follows rest) :
    digits (cs ++ rest) = ((digits cs).1, (digits cs).2 ++ rest) := by
  induction cs with
  | nil => exact h.digits
  | cons c cs ih =>
    unfold digits at ih ⊢
    obtain ⟨htake, hdrop⟩ := Prod.mk.inj ih
    rw [List.cons_append]
    cases hc : Text.isAsciiDigit c with
    | true =>
      rw [List.takeWhile_cons_of_pos hc, List.takeWhile_cons_of_pos hc,
        List.dropWhile_cons_of_pos hc, List.dropWhile_cons_of_pos hc, htake, hdrop]
    | false => simp [hc]

/-- A run of digits is read whole. -/
theorem digits_of_forall {ds : List Char} (h : ∀ c ∈ ds, Text.isAsciiDigit c = true) :
    digits ds = (ds, []) := by
  unfold digits
  rw [← List.append_nil ds, List.takeWhile_append_of_pos h, List.dropWhile_append_of_pos h]
  rfl

/-- No digits are read where none comes first. -/
theorem digits_of_not_digit {c : Char} (h : Text.isAsciiDigit c = false) (cs : List Char) :
    digits (c :: cs) = ([], c :: cs) := by
  simp [digits, h]

/-- A point is part of the number when digits follow it. -/
theorem fraction_point (cs : List Char) :
    fraction ('.' :: cs) = if (digits cs).1 = [] then ([], '.' :: cs) else digits cs := by
  cases hdigits : digits cs with
  | mk ds r => cases ds <;> simp [fraction, hdigits]

/-- Without a point there is no fraction. -/
theorem fraction_of_ne {c : Char} (h : c ≠ '.') (cs : List Char) :
    fraction (c :: cs) = ([], c :: cs) := by
  unfold fraction
  simp [h]

/-- A fraction is read alike in front of what may follow a number. -/
theorem fraction_append (cs : List Char) {rest : List Char} (h : Follows rest) :
    fraction (cs ++ rest) = ((fraction cs).1, (fraction cs).2 ++ rest) := by
  cases cs with
  | nil =>
    cases rest with
    | nil => rfl
    | cons c rest => rcases h c rfl with rfl | rfl <;> rfl
  | cons c cs =>
    rw [List.cons_append]
    by_cases hc : c = '.'
    · subst hc
      rw [fraction_point, fraction_point, digits_append cs h]
      by_cases hnone : (digits cs).1 = []
      · rw [if_pos hnone, if_pos hnone]
        rfl
      · rw [if_neg hnone, if_neg hnone]
    · rw [fraction_of_ne hc, fraction_of_ne hc]
      rfl

/-- The power of ten after a sign, if digits follow, and the whole text otherwise. -/
def powerIn (negative : Bool) (whole body : List Char) : Option Int × List Char :=
  if (digits body).1 = [] then (none, whole)
  else (some (if negative then -(valueOf (digits body).1 : Int) else valueOf (digits body).1),
    (digits body).2)

/-- So are the digits of an exponent, -/
theorem powerIn_append (negative : Bool) (whole body : List Char) {rest : List Char}
    (h : Follows rest) :
    powerIn negative (whole ++ rest) (body ++ rest) =
      ((powerIn negative whole body).1, (powerIn negative whole body).2 ++ rest) := by
  unfold powerIn
  rw [digits_append body h]
  by_cases hnone : (digits body).1 = []
  · rw [if_pos hnone, if_pos hnone]
  · rw [if_neg hnone, if_neg hnone]

/-- An exponent may have a minus sign, -/
theorem exponent_minus {e : Char} (he : e = 'e' ∨ e = 'E') (cs : List Char) :
    exponent (e :: '-' :: cs) = powerIn true (e :: '-' :: cs) cs := by
  cases hdigits : digits cs with
  | mk ds r => cases ds <;> simp [exponent, powerIn, valueOf, he, hdigits]

/-- a plus sign, -/
theorem exponent_plus {e : Char} (he : e = 'e' ∨ e = 'E') (cs : List Char) :
    exponent (e :: '+' :: cs) = powerIn false (e :: '+' :: cs) cs := by
  cases hdigits : digits cs with
  | mk ds r => cases ds <;> simp [exponent, powerIn, valueOf, he, hdigits]

/-- or no sign. -/
theorem exponent_bare {e : Char} (he : e = 'e' ∨ e = 'E') {cs : List Char}
    (hminus : cs.head? ≠ some '-') (hplus : cs.head? ≠ some '+') :
    exponent (e :: cs) = powerIn false (e :: cs) cs := by
  cases hdigits : digits cs with
  | mk ds r =>
    cases cs with
    | nil => cases ds <;> simp [exponent, powerIn, valueOf, he, hdigits]
    | cons c cs =>
      have hc : c ≠ '-' ∧ c ≠ '+' := by simpa using And.intro hminus hplus
      cases ds <;> simp [exponent, powerIn, valueOf, he, hdigits, hc]

/-- An exponent is read alike in front of what may follow a number. -/
theorem exponent_append (cs : List Char) {rest : List Char} (h : Follows rest) :
    exponent (cs ++ rest) = ((exponent cs).1, (exponent cs).2 ++ rest) := by
  have hhead : ∀ c, c ≠ ',' → c ≠ '\n' → rest.head? ≠ some c :=
    fun c hcomma hnewline hc => (h c hc).elim hcomma hnewline
  cases cs with
  | nil =>
    cases rest with
    | nil => rfl
    | cons c rest => rcases h c rfl with rfl | rfl <;> rfl
  | cons e cs =>
    by_cases he : e = 'e' ∨ e = 'E'
    · rw [List.cons_append]
      cases cs with
      | nil =>
        have hnone : ∀ c, ([] : List Char).head? ≠ some c := fun _ => (Option.some_ne_none _).symm
        rw [List.nil_append, exponent_bare he (hhead '-' (by decide) (by decide))
          (hhead '+' (by decide) (by decide)), exponent_bare he (hnone '-') (hnone '+')]
        exact powerIn_append false [e] [] h
      | cons c cs =>
        rw [List.cons_append]
        by_cases hminus : c = '-'
        · subst hminus
          rw [exponent_minus he, exponent_minus he]
          exact powerIn_append true (e :: '-' :: cs) cs h
        by_cases hplus : c = '+'
        · subst hplus
          rw [exponent_plus he, exponent_plus he]
          exact powerIn_append false (e :: '+' :: cs) cs h
        rw [exponent_bare he (by simpa using hminus) (by simpa using hplus),
          exponent_bare he (by simpa using hminus) (by simpa using hplus)]
        exact powerIn_append false (e :: c :: cs) (c :: cs) h
    · have hnone : ∀ cs, exponent (e :: cs) = (none, e :: cs) := fun cs => if_neg he
      rw [List.cons_append, hnone, hnone]
      rfl

/-- A number that does not start with a zero is all digits. -/
theorem whole?_of_ne_zero {cs : List Char} (h : cs.head? ≠ some '0') :
    whole? cs = if (digits cs).1 = [] then none else some (digits cs) := by
  unfold whole?
  split
  · exact absurd rfl h
  · cases hdigits : digits cs with
    | mk ds r => cases ds <;> simp

/-- The whole part is read alike in front of what may follow a number. -/
theorem whole?_append (cs : List Char) {rest : List Char} (h : Follows rest) :
    whole? (cs ++ rest) = (whole? cs).map fun p => (p.1, p.2 ++ rest) := by
  by_cases hzero : cs.head? = some '0'
  · obtain ⟨cs, rfl⟩ := List.head?_eq_some_iff.mp hzero
    rfl
  · have hzero' : (cs ++ rest).head? ≠ some '0' := by
      cases cs with
      | nil =>
        intro hc
        rcases h '0' hc with h | h <;> exact absurd h (by decide)
      | cons c cs => exact hzero
    rw [whole?_of_ne_zero hzero, whole?_of_ne_zero hzero', digits_append cs h]
    by_cases hnone : (digits cs).1 = []
    · rw [if_pos hnone, if_pos hnone]
      rfl
    · rw [if_neg hnone, if_neg hnone]
      rfl

/-- A number begins with a digit. -/
theorem exists_digit_of_whole? {cs : List Char} {p : List Char × List Char}
    (h : whole? cs = some p) : ∃ c cs', cs = c :: cs' ∧ Text.isAsciiDigit c = true := by
  by_cases hzero : cs.head? = some '0'
  · obtain ⟨cs, rfl⟩ := List.head?_eq_some_iff.mp hzero
    exact ⟨'0', cs, rfl, by decide⟩
  · rw [whole?_of_ne_zero hzero] at h
    cases cs with
    | nil => cases h
    | cons c cs =>
      cases hc : Text.isAsciiDigit c with
      | true => exact ⟨c, cs, rfl, hc⟩
      | false =>
        rw [digits_of_not_digit hc] at h
        cases h

/-- **A number ends where what follows a value begins.** -/
theorem unsigned_append (negative : Bool) (cs : List Char) {rest : List Char} (h : Follows rest) :
    unsigned negative (cs ++ rest) =
      (unsigned negative cs).map fun p => (p.1, p.2 ++ rest) := by
  unfold unsigned
  rw [whole?_append cs h]
  cases whole? cs with
  | none => rfl
  | some p =>
    obtain ⟨ds, r⟩ := p
    dsimp only [Option.map_some]
    rw [fraction_append r h]
    dsimp only
    rw [exponent_append (fraction r).2 h]
    dsimp only
    split
    · split <;> rfl
    · rfl

/-- A number with few enough digits to be shown is read back. -/
theorem unsigned_decimal (negative : Bool) {n : Nat} (hn : n < Datum.shownBelow)
    {rest : List Char} (h : Follows rest) :
    unsigned negative (Text.decimal n ++ rest) =
      .ok (.int (if negative then -(n : Int) else n), rest) := by
  have hlength : ¬ (Text.decimal n).length > Text.digitLimit :=
    Nat.not_lt.mpr (Text.length_decimal_le (by decide) hn)
  have hvalue : valueOf (Text.decimal n) = n := by
    unfold valueOf
    rw [Text.number?_decimal, Option.getD_some]
  have hwhole : whole? (Text.decimal n) = some (Text.decimal n, []) := by
    by_cases hzero : n = 0
    · subst hzero
      rfl
    · rw [whole?_of_ne_zero (Text.head?_decimal hzero),
        digits_of_forall fun c hc => Text.isAsciiDigit_of_mem_decimal hc,
        if_neg (Text.decimal_ne_nil n)]
  have hself : unsigned negative (Text.decimal n) =
      .ok (.int (if negative then -(n : Int) else n), []) := by
    unfold unsigned
    rw [hwhole]
    dsimp only [fraction, exponent]
    rw [if_pos ⟨rfl, rfl⟩, if_neg hlength, hvalue]
  rw [unsigned_append negative _ h, hself]
  rfl

/-! ### Words -/

/-- A word is known by its first character. -/
theorem word?_of_head? {c : Char} {cs : List Char} (hn : c ≠ 'n') (ht : c ≠ 't') (hf : c ≠ 'f')
    (hN : c ≠ 'N') (hI : c ≠ 'I') (hminus : c ≠ '-') : word? (c :: cs) = none := by
  have hafter : ∀ s start, c ≠ s → Text.after? (s :: start) (c :: cs) = none := by
    intro s start h
    rw [Text.after?, if_neg (Ne.symm h)]
  unfold word? wordValues
  simp [hafter, hn, ht, hf, hN, hI, hminus]

/-- No word starts with a digit, -/
theorem word?_digit {c : Char} (hc : Text.isAsciiDigit c = true) (cs : List Char) :
    word? (c :: cs) = none := by
  apply word?_of_head? <;>
  · rintro rfl
    exact absurd hc (by decide)

/-- nor with a minus sign in front of one. -/
theorem word?_minus_digit {c : Char} (hc : Text.isAsciiDigit c = true) (cs : List Char) :
    word? ('-' :: c :: cs) = none := by
  have hI : c ≠ 'I' := by
    rintro rfl
    exact absurd hc (by decide)
  unfold word? wordValues
  simp [Text.after?, Ne.symm hI]

/-- A word that was read is one of the table, and stood there in full. -/
theorem word?_eq_some {cs rest : List Char} {d : Datum} (h : word? cs = some (d, rest)) :
    ∃ w, (w, d) ∈ wordValues ∧ cs = w.toList ++ rest := by
  obtain ⟨⟨w, v⟩, hmem, hw⟩ := List.exists_of_findSome?_eq_some h
  obtain ⟨r, hr, heq⟩ := Option.map_eq_some_iff.mp hw
  cases heq
  exact ⟨w, hmem, Text.after?_eq_some_iff.mp hr⟩

/-- No word begins as another does. -/
theorem word?_append {w : String} {d : Datum} (h : (w, d) ∈ wordValues) (rest : List Char) :
    word? (w.toList ++ rest) = some (d, rest) := by
  unfold wordValues at h
  simp only [List.mem_cons, Prod.mk.injEq, List.not_mem_nil, or_false] at h
  rcases h with ⟨rfl, rfl⟩ | ⟨rfl, rfl⟩ | ⟨rfl, rfl⟩ | ⟨rfl, rfl⟩ | ⟨rfl, rfl⟩ | ⟨rfl, rfl⟩ <;> rfl

/-! ### Scalars -/

/-- A word is a scalar. -/
theorem scalar_of_word? {cs : List Char} {r : Datum × List Char} (hquote : cs.head? ≠ some '"')
    (h : word? cs = some r) : scalar cs = .ok r := by
  unfold scalar
  split
  · exact absurd rfl hquote
  · rw [h]

/-- A digit starts a number. -/
theorem scalar_digit {c : Char} (hc : Text.isAsciiDigit c = true) (cs : List Char) :
    scalar (c :: cs) = unsigned false (c :: cs) := by
  have hquote : c ≠ '"' := by rintro rfl; exact absurd hc (by decide)
  have hminus : c ≠ '-' := by rintro rfl; exact absurd hc (by decide)
  unfold scalar
  split
  · next heq => exact absurd (List.cons.inj heq).1 hquote
  · rw [word?_digit hc]
    dsimp only
    split
    · next heq => exact absurd (List.cons.inj heq).1 hminus
    · rfl

/-- A minus sign in front of a digit starts a negative one. -/
theorem scalar_minus_digit {c : Char} (hc : Text.isAsciiDigit c = true) (cs : List Char) :
    scalar ('-' :: c :: cs) = unsigned true (c :: cs) := by
  unfold scalar
  rw [word?_minus_digit hc]
  rfl

/-- A number of eight digits is not too long to be shown. -/
theorem lt_shownBelow_of_lt {n : Nat} (h : n < 100000000) : n < Datum.shownBelow := by
  unfold Datum.shownBelow
  have hlimit : 8 ≤ Text.digitLimit := by decide
  generalize Text.digitLimit = k at hlimit
  have := Nat.pow_le_pow_right (show 0 < 10 by decide) hlimit
  omega

/-- A single digit can be shown. -/
theorem lt_shownBelow_of_lt_ten {n : Nat} (h : n < 10) : n < Datum.shownBelow :=
  lt_shownBelow_of_lt (h.trans (by decide))

/-- A whole number that can be shown is read back in front of what may follow it. -/
theorem scalar_decimalInt {n : Int} (hn : n.natAbs < Datum.shownBelow) {rest : List Char}
    (h : Follows rest) : scalar (Text.decimalInt n ++ rest) = .ok (.int n, rest) := by
  rcases n with n | n
  · have hread := unsigned_decimal false (n := n) hn h
    obtain ⟨c, cs, hcs⟩ := List.exists_cons_of_ne_nil (Text.decimal_ne_nil n)
    have hc : Text.isAsciiDigit c = true :=
      Text.isAsciiDigit_of_mem_decimal (n := n) (hcs ▸ List.mem_cons_self)
    rw [Text.decimalInt]
    rw [hcs, List.cons_append] at hread ⊢
    rw [scalar_digit hc]
    exact hread
  · have hread := unsigned_decimal true (n := n + 1) hn h
    obtain ⟨c, cs, hcs⟩ := List.exists_cons_of_ne_nil (Text.decimal_ne_nil (n + 1))
    have hc : Text.isAsciiDigit c = true :=
      Text.isAsciiDigit_of_mem_decimal (n := n + 1) (hcs ▸ List.mem_cons_self)
    rw [Text.decimalInt]
    rw [hcs, List.cons_append] at hread
    rw [hcs, List.cons_append, List.cons_append, scalar_minus_digit hc]
    exact hread

/-- Where a double is read, there is a word or a number. -/
theorem scalar_eq_real {cs rest : List Char} {x : Binary64} (h : scalar cs = .ok (.real x, rest)) :
    (∃ w, (w, .real x) ∈ wordValues ∧ cs = w.toList ++ rest) ∨
      (∃ c cs', cs = c :: cs' ∧ Text.isAsciiDigit c = true ∧
        unsigned false (c :: cs') = .ok (.real x, rest)) ∨
      ∃ c cs', cs = '-' :: c :: cs' ∧ Text.isAsciiDigit c = true ∧
        unsigned true (c :: cs') = .ok (.real x, rest) := by
  have hnumber : ∀ {negative cs r}, unsigned negative cs = .ok r →
      ∃ c cs', cs = c :: cs' ∧ Text.isAsciiDigit c = true := by
    intro negative cs r hr
    cases hwhole : whole? cs with
    | none =>
      unfold unsigned at hr
      rw [hwhole] at hr
      cases hr
    | some p => exact exists_digit_of_whole? hwhole
  unfold scalar at h
  split at h
  · next cs =>
    cases hs : stringTail [] none cs with
    | error e =>
      rw [hs] at h
      cases h
    | ok p =>
      rw [hs] at h
      cases h
  · cases hw : word? cs with
    | some r =>
      rw [hw] at h
      cases h
      exact .inl (word?_eq_some hw)
    | none =>
      rw [hw] at h
      dsimp only at h
      split at h
      · obtain ⟨c, cs', rfl, hc⟩ := hnumber h
        exact .inr (.inr ⟨c, cs', rfl, hc, h⟩)
      · obtain ⟨c, cs', rfl, hc⟩ := hnumber h
        exact .inr (.inl ⟨c, cs', rfl, hc, h⟩)

/-- **A double ends where what follows a value begins.** -/
theorem scalar_append_of_real {cs : List Char} {x : Binary64} (h : scalar cs = .ok (.real x, []))
    {rest : List Char} (hrest : Follows rest) : scalar (cs ++ rest) = .ok (.real x, rest) := by
  rcases scalar_eq_real h with ⟨w, hw, rfl⟩ | ⟨c, cs, rfl, hc, hread⟩ | ⟨c, cs, rfl, hc, hread⟩
  · have hquote : (w.toList ++ rest).head? ≠ some '"' := by
      unfold wordValues at hw
      simp only [List.mem_cons, Prod.mk.injEq, List.not_mem_nil, or_false] at hw
      rcases hw with ⟨rfl, -⟩ | ⟨rfl, -⟩ | ⟨rfl, -⟩ | ⟨rfl, -⟩ | ⟨rfl, -⟩ | ⟨rfl, -⟩ <;>
        exact fun h => absurd (Option.some.inj h) (by decide)
    rw [List.append_nil]
    exact scalar_of_word? hquote (word?_append hw rest)
  · have hnext := unsigned_append false (c :: cs) hrest
    rw [hread] at hnext
    rw [List.cons_append, scalar_digit hc]
    exact hnext
  · have hnext := unsigned_append true (c :: cs) hrest
    rw [hread] at hnext
    rw [List.cons_append, List.cons_append, scalar_minus_digit hc]
    exact hnext

/-- Whether a double is read as itself from its text. -/
def IsRestored (x : Binary64) : Prop := scalar (x.text writtenReals) = .ok (.real x, [])

/-- What may be written and is the same when it is read again, containers apart. -/
def IsPlain : Datum → Prop
  | .null | .bool _ | .text _ => True
  | .int n => n.natAbs < Datum.shownBelow
  | .real x => IsRestored x
  | _ => False

/-- **A written scalar is read as itself.** -/
theorem scalar_scalarText {d : Datum} (hd : IsPlain d) {rest : List Char} (h : Follows rest) :
    scalar (scalarText d ++ rest) = .ok (d, rest) := by
  cases d with
  | null => rfl
  | bool b => cases b <;> rfl
  | int n => exact scalar_decimalInt hd h
  | real x => exact scalar_append_of_real hd h
  | text s =>
    rw [scalarText, string_append, scalar, stringTail_string]
    rfl
  | moment _ _ => exact absurd hd id
  | list _ => exact absurd hd id
  | table _ => exact absurd hd id

end ProjectSurvey.Json
