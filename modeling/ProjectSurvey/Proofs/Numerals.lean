import ProjectSurvey.Text.Classes

/-!
# Numerals

Numbers are written in digits and read back from them. **Reading what was written gives the number
again** (`number?_decimal`, `number?_hexadecimal`), so different numbers are written differently
(`decimalInt_injective`). A decimal numeral holds digits alone and begins with a zero only if it is
one.
-/

namespace ProjectSurvey.Text

/-! ### Digits -/

/-- A digit is read as the number it was written for. -/
theorem digitValue?_digitChar {d : Nat} (h : d < 16) : digitValue? (Nat.digitChar d) = some d := by
  have hall : ∀ d < 16, digitValue? (Nat.digitChar d) = some d := by decide
  exact hall d h

/-- A decimal is made of digits. -/
theorem isAsciiDigit_of_mem_decimal {n : Nat} {c : Char} (h : c ∈ decimal n) :
    isAsciiDigit c = true :=
  Nat.isDigit_of_mem_toDigits (by decide) (by decide) h

/-- A decimal has at least one. -/
theorem decimal_ne_nil (n : Nat) : decimal n ≠ [] := Nat.toDigits_ne_nil

/-- The digits have the codes from 48 to 57. -/
theorem isAsciiDigit_iff (c : Char) : isAsciiDigit c = true ↔ 48 ≤ c.toNat ∧ c.toNat ≤ 57 := by
  unfold isAsciiDigit
  rw [Bool.and_eq_true, decide_eq_true_eq, decide_eq_true_eq, Char.le_def, Char.le_def,
    UInt32.le_iff_toNat_le, UInt32.le_iff_toNat_le]
  rfl

/-! ### Reading what was written -/

/-- A further digit multiplies by the base and adds. -/
theorem step_of_digitValue? {base : Nat} {c : Char} {d : Nat} (hc : digitValue? c = some d)
    (hd : d < base) (n : Nat) : number?.step base (some n) c = some (n * base + d) := by
  simp [number?.step, hc, hd]

/-- A numeral in front of which nothing stands is read as the number. -/
theorem foldl_step_toDigits {base : Nat} (hbase : 1 < base) (hbase' : base ≤ 16) (n : Nat) :
    (Nat.toDigits base n).foldl (number?.step base) (some 0) = some n := by
  induction n using Nat.strongRecOn with
  | _ n ih =>
    rw [Nat.toDigits_eq_if hbase]
    by_cases h : n < base
    · have hdigit := digitValue?_digitChar (Nat.lt_of_lt_of_le h hbase')
      rw [if_pos h, List.foldl_cons, List.foldl_nil, step_of_digitValue? hdigit h, Nat.zero_mul,
        Nat.zero_add]
    · have hpos : 0 < n := Nat.lt_of_lt_of_le (Nat.lt_trans Nat.zero_lt_one hbase)
        (Nat.le_of_not_lt h)
      have hmod : n % base < base := Nat.mod_lt n (Nat.lt_trans Nat.zero_lt_one hbase)
      have hdigit := digitValue?_digitChar (Nat.lt_of_lt_of_le hmod hbase')
      rw [if_neg h, List.foldl_append, ih (n / base) (Nat.div_lt_self hpos hbase), List.foldl_cons,
        List.foldl_nil, step_of_digitValue? hdigit hmod, Nat.mul_comm, Nat.div_add_mod]

/-- A text with something in it is read from zero on. -/
theorem number?_of_ne_nil {base : Nat} {cs : List Char} (h : cs ≠ []) :
    number? base cs = cs.foldl (number?.step base) (some 0) := by
  cases cs with
  | nil => contradiction
  | cons c cs => rfl

/-- A decimal is read as its number. -/
theorem number?_decimal (n : Nat) : number? 10 (decimal n) = some n := by
  rw [number?_of_ne_nil (decimal_ne_nil n)]
  exact foldl_step_toDigits (by decide) (by decide) n

/-- Leading zeros count nothing. -/
theorem foldl_step_zeros {base : Nat} (hbase : 1 < base) (k : Nat) :
    (List.replicate k '0').foldl (number?.step base) (some 0) = some 0 := by
  induction k with
  | zero => rfl
  | succ k ih =>
    have hdigit : digitValue? '0' = some 0 := by decide
    rw [List.replicate_succ, List.foldl_cons,
      step_of_digitValue? hdigit (Nat.lt_trans Nat.zero_lt_one hbase), Nat.zero_mul, ih]

/-- A hexadecimal is read as its number, however many zeros it is padded with. -/
theorem number?_hexadecimal (width n : Nat) : number? 16 (hexadecimal width n) = some n := by
  have hne : hexadecimal width n ≠ [] := by
    unfold hexadecimal
    simp [Nat.toDigits_ne_nil]
  rw [number?_of_ne_nil hne, hexadecimal, List.foldl_append, foldl_step_zeros (by decide)]
  exact foldl_step_toDigits (by decide) (by decide) n

/-- A number that fits takes up exactly the digits asked for. -/
theorem length_hexadecimal {width n : Nat} (hwidth : 0 < width) (h : n < 16 ^ width) :
    (hexadecimal width n).length = width := by
  have hlength := (Nat.length_toDigits_le_iff (b := 16) (by decide) hwidth).mpr h
  unfold hexadecimal
  rw [List.length_append, List.length_replicate]
  omega

/-- A hexadecimal is made of printable characters. -/
theorem mem_hexadecimal {width n : Nat} {c : Char} (h : c ∈ hexadecimal width n) :
    c.toNat < 127 ∧ 32 ≤ c.toNat := by
  have hall : ∀ d < 16, (Nat.digitChar d).toNat < 127 ∧ 32 ≤ (Nat.digitChar d).toNat := by decide
  have hdigits : ∀ n, ∀ c ∈ Nat.toDigits 16 n, c.toNat < 127 ∧ 32 ≤ c.toNat := by
    intro n
    induction n using Nat.strongRecOn with
    | _ n ih =>
      intro c hc
      rw [Nat.toDigits_eq_if (by decide)] at hc
      by_cases hn : n < 16
      · rw [if_pos hn, List.mem_singleton] at hc
        subst hc
        exact hall n hn
      · rw [if_neg hn, List.mem_append, List.mem_singleton] at hc
        rcases hc with hc | rfl
        · exact ih (n / 16) (by omega) c hc
        · exact hall _ (Nat.mod_lt n (by decide))
  unfold hexadecimal at h
  rw [List.mem_append] at h
  rcases h with h | h
  · obtain ⟨-, rfl⟩ := List.mem_replicate.mp h
    decide
  · exact hdigits n c h

/-! ### Decimal numerals -/

/-- A numeral begins with a zero only if it is one. -/
theorem head?_decimal {n : Nat} (h : n ≠ 0) : (decimal n).head? ≠ some '0' := by
  induction n using Nat.strongRecOn with
  | _ n ih =>
    unfold decimal at ih ⊢
    rw [Nat.toDigits_eq_if (by decide)]
    by_cases hn : n < 10
    · have hall : ∀ d < 10, d ≠ 0 → Nat.digitChar d ≠ '0' := by decide
      rw [if_pos hn, List.head?_cons]
      intro heq
      exact hall n hn h (Option.some_inj.mp heq)
    · obtain ⟨c, cs, hcs⟩ := List.exists_cons_of_ne_nil
        (Nat.toDigits_ne_nil (b := 10) (n := n / 10))
      have hhead := ih (n / 10) (by omega) (by omega)
      rw [if_neg hn]
      rw [hcs] at hhead ⊢
      exact hhead

/-- A number below a power of ten has no more digits than the exponent. -/
theorem length_decimal_le {k n : Nat} (hk : 0 < k) (h : n < 10 ^ k) : (decimal n).length ≤ k :=
  (Nat.length_toDigits_le_iff (by decide) hk).mpr h

/-- Two decimals alike are of one number. -/
theorem decimal_injective {m n : Nat} (h : decimal m = decimal n) : m = n := by
  have hm := number?_decimal m
  rw [h, number?_decimal] at hm
  exact (Option.some_inj.mp hm).symm

/-- There is no minus sign in a decimal. -/
theorem minus_notMem_decimal (n : Nat) : '-' ∉ decimal n := by
  intro h
  exact absurd (isAsciiDigit_of_mem_decimal h) (by decide)

/-- Two decimals with signs alike are of one number. -/
theorem decimalInt_injective {m n : Int} (h : decimalInt m = decimalInt n) : m = n := by
  rcases m with m | m <;> rcases n with n | n
  · exact congrArg Int.ofNat (decimal_injective h)
  · have hm : decimal m = '-' :: decimal (n + 1) := h
    exact absurd (hm ▸ List.mem_cons_self) (minus_notMem_decimal m)
  · have hn : '-' :: decimal (m + 1) = decimal n := h
    exact absurd (hn ▸ List.mem_cons_self) (minus_notMem_decimal n)
  · have htail := (List.cons.inj h).2
    exact congrArg Int.negSucc (Nat.succ.inj (decimal_injective htail))

/-- What an integer's numeral begins with. -/
theorem exists_decimalInt_eq_cons (n : Int) :
    ∃ c cs, decimalInt n = c :: cs ∧ (c = '-' ∨ isAsciiDigit c = true) := by
  rcases n with n | n
  · obtain ⟨c, cs, hcs⟩ := List.exists_cons_of_ne_nil (decimal_ne_nil n)
    refine ⟨c, cs, hcs, .inr (isAsciiDigit_of_mem_decimal (n := n) ?_)⟩
    rw [hcs]
    exact List.mem_cons_self
  · exact ⟨'-', decimal (n + 1), rfl, .inl rfl⟩

end ProjectSurvey.Text
