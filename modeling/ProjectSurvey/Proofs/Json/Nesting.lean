import ProjectSurvey.Proofs.Json.Scalars

/-!
# Where a reader of JSON gives up

A reader that gives up without saying that a text is malformed does so for a reason that can be seen
in the text, without reading it. **It gives up on nesting only where brackets outside strings nest
that deep** (`nestsBeyond_of_parse`), and on an integer only where so many digits stand in a row
outside strings (`holdsDigits_of_parse`). What is kept is a scanner of three states, which knows how
many brackets are open and whether it is in a string (`Place`).

Each reader leads the scanner from where it begins to where it ends (`Leads`); the containers are
those that open a bracket and close it again.
-/

namespace ProjectSurvey.Json

/-! ### Places in a text -/

/-- Where in a text a character stands. -/
inductive Place where
  /-- Outside strings, with so many brackets open. -/
  | outside (depth : Nat)
  /-- In a string. -/
  | inside (depth : Nat)
  /-- In a string, after a backslash. -/
  | escaped (depth : Nat)

namespace Place

/-- How many brackets are open. -/
def depth : Place → Nat
  | outside n => n
  | inside n => n
  | escaped n => n

/-- The place after a character. -/
def next : Place → Char → Place
  | outside n, c =>
    if c = '"' then inside n
    else if c = '[' ∨ c = '{' then outside (n + 1)
    else if c = ']' ∨ c = '}' then outside (n - 1)
    else outside n
  | inside n, c => if c = '"' then outside n else if c = '\\' then escaped n else inside n
  | escaped n, _ => inside n

/-- The place after some characters. -/
def after (p : Place) (cs : List Char) : Place := cs.foldl next p

end Place

open Place

/-- Whether brackets outside strings nest deeper than a limit. -/
def NestsBeyond (limit : Nat) (cs : List Char) : Prop :=
  ∃ read rest, read ++ rest = cs ∧ limit < ((outside 0).after read).depth

/-- Whether so many digits stand in a row outside strings. -/
def HoldsDigits (count : Nat) (cs : List Char) : Prop :=
  ∃ read ds rest n, read ++ (ds ++ rest) = cs ∧ (outside 0).after read = outside n ∧
    ds.length = count ∧ ∀ d ∈ ds, Text.isAsciiDigit d = true

/-- Whether the characters before a rest of a text lead from a place to another one. -/
def Leads (p : Place) (cs : List Char) (q : Place) (rest : List Char) : Prop :=
  ∃ read, read ++ rest = cs ∧ p.after read = q

variable {p q q' : Place} {cs rest rest' : List Char} {n depth : Nat} {f : ReadFault} {d : Datum}

/-- Reading nothing leads nowhere else. -/
theorem Leads.refl (p : Place) (cs : List Char) : Leads p cs p cs := ⟨[], rfl, rfl⟩

/-- Readings go one behind the other. -/
theorem Leads.trans (h : Leads p cs q rest) (h' : Leads q rest q' rest') : Leads p cs q' rest' := by
  obtain ⟨read, rfl, rfl⟩ := h
  obtain ⟨read', rfl, rfl⟩ := h'
  exact ⟨read ++ read', List.append_assoc _ _ _, List.foldl_append⟩

/-- One more character is read first. -/
theorem Leads.cons {c : Char} (h : Leads (p.next c) cs q rest) : Leads p (c :: cs) q rest := by
  obtain ⟨read, rfl, rfl⟩ := h
  exact ⟨c :: read, rfl, rfl⟩

/-- The characters that open or close something. -/
def marks : List Char := ['"', '[', '{', ']', '}']

/-- Whether a character neither opens nor closes anything. -/
def isQuiet (c : Char) : Bool := !marks.contains c

/-- Outside strings a quiet character changes nothing. -/
theorem next_of_isQuiet {c : Char} (h : isQuiet c = true) (n : Nat) :
    (outside n).next c = outside n := by
  simp only [isQuiet, marks, List.contains_cons, List.contains_nil, Bool.or_false,
    Bool.not_eq_true', Bool.or_eq_false_iff, beq_eq_false_iff_ne] at h
  obtain ⟨hquote, hlist, htable, hlistEnd, htableEnd⟩ := h
  simp [next, hquote, hlist, htable, hlistEnd, htableEnd]

/-- Quiet characters lead on at the same depth. -/
theorem leads_quiet {read : List Char} (h : ∀ c ∈ read, isQuiet c = true) (n : Nat)
    (rest : List Char) : Leads (outside n) (read ++ rest) (outside n) rest := by
  induction read with
  | nil => exact .refl _ _
  | cons c read ih =>
    obtain ⟨hc, hread⟩ := List.forall_mem_cons.mp h
    refine .cons ?_
    rw [next_of_isQuiet hc]
    exact ih hread

/-- So does a single one. -/
theorem leads_cons_quiet {c : Char} (h : isQuiet c = true) (n : Nat) (cs : List Char) :
    Leads (outside n) (c :: cs) (outside n) cs :=
  leads_quiet (List.forall_mem_singleton.mpr h) n cs

/-- A character of a kind to which none of those that open or close something belongs. -/
theorem isQuiet_of {r : Char → Bool} (hr : marks.any r = false) {c : Char} (h : r c = true) :
    isQuiet c = true := by
  have hmark : c ∉ marks := fun hmem => List.any_eq_false.mp hr c hmem h
  simp [isQuiet, hmark]

/-- Digits are quiet. -/
theorem isQuiet_of_isAsciiDigit {c : Char} (h : Text.isAsciiDigit c = true) : isQuiet c = true :=
  isQuiet_of rfl h

/-- So is white space. -/
theorem isQuiet_of_isSpace {c : Char} (h : isSpace c = true) : isQuiet c = true :=
  isQuiet_of rfl h

/-! ### Values that are no containers -/

/-- Dropping quiet characters stays at the depth. -/
theorem leads_dropWhile {r : Char → Bool} (h : ∀ c, r c = true → isQuiet c = true) (n : Nat)
    (cs : List Char) : Leads (outside n) cs (outside n) (cs.dropWhile r) := by
  have hread : ∀ c ∈ cs.takeWhile r, isQuiet c = true := fun c hc =>
    h c (List.all_eq_true.mp List.all_takeWhile c hc)
  have hleads := leads_quiet hread n (cs.dropWhile r)
  rwa [List.takeWhile_append_dropWhile] at hleads

/-- Skipping white space stays at the depth, -/
theorem leads_skipSpace (n : Nat) (cs : List Char) :
    Leads (outside n) cs (outside n) (skipSpace cs) :=
  leads_dropWhile (fun _ => isQuiet_of_isSpace) n cs

/-- reading digits does, -/
theorem leads_digits (n : Nat) (cs : List Char) : Leads (outside n) cs (outside n) (digits cs).2 :=
  leads_dropWhile (fun _ => isQuiet_of_isAsciiDigit) n cs

/-- and reading a fraction does. -/
theorem leads_fraction (n : Nat) (cs : List Char) :
    Leads (outside n) cs (outside n) (fraction cs).2 := by
  unfold fraction
  split
  · next rest =>
    have hdigits := (leads_cons_quiet (c := '.') (by decide) n rest).trans (leads_digits n rest)
    split
    · exact .refl _ _
    · next heq =>
      rw [heq] at hdigits
      exact hdigits
  · exact .refl _ _

/-- An exponent's digits are read at the depth where the number started. -/
theorem leads_powerIn {whole body : List Char} (h : Leads (outside n) whole (outside n) body)
    (negative : Bool) : Leads (outside n) whole (outside n) (powerIn negative whole body).2 := by
  unfold powerIn
  split
  · exact .refl _ _
  · exact h.trans (leads_digits n body)

/-- Reading an exponent stays at the depth. -/
theorem leads_exponent (n : Nat) (cs : List Char) :
    Leads (outside n) cs (outside n) (exponent cs).2 := by
  cases cs with
  | nil => exact .refl _ _
  | cons e cs =>
    by_cases he : e = 'e' ∨ e = 'E'
    · have hmark : isQuiet e = true := by rcases he with rfl | rfl <;> decide
      have hbody := leads_cons_quiet hmark n cs
      by_cases hminus : cs.head? = some '-'
      · obtain ⟨cs, rfl⟩ := List.head?_eq_some_iff.mp hminus
        rw [exponent_minus he]
        exact leads_powerIn (hbody.trans (leads_cons_quiet (by decide) n cs)) _
      by_cases hplus : cs.head? = some '+'
      · obtain ⟨cs, rfl⟩ := List.head?_eq_some_iff.mp hplus
        rw [exponent_plus he]
        exact leads_powerIn (hbody.trans (leads_cons_quiet (by decide) n cs)) _
      rw [exponent_bare he hminus hplus]
      exact leads_powerIn hbody _
    · have hnone : exponent (e :: cs) = (none, e :: cs) := if_neg he
      rw [hnone]
      exact .refl _ _

/-- The whole part of a number is made of digits. -/
theorem whole?_eq_some {ds : List Char} (h : whole? cs = some (ds, rest)) :
    ds ++ rest = cs ∧ ∀ d ∈ ds, Text.isAsciiDigit d = true := by
  unfold whole? at h
  split at h
  · obtain ⟨rfl, rfl⟩ := Prod.mk.inj (Option.some.inj h)
    exact ⟨rfl, List.forall_mem_singleton.mpr rfl⟩
  · split at h
    · cases h
    · next ds' rest' heq =>
      obtain ⟨rfl, rfl⟩ := Prod.mk.inj (Option.some.inj h)
      obtain ⟨hds, hrest⟩ := Prod.mk.inj heq
      rw [← hds, ← hrest]
      exact ⟨List.takeWhile_append_dropWhile, List.all_eq_true.mp List.all_takeWhile⟩

/-- Reading a number stays at the depth. -/
theorem leads_unsigned {negative : Bool} (h : unsigned negative cs = .ok (d, rest)) (n : Nat) :
    Leads (outside n) cs (outside n) rest := by
  unfold unsigned at h
  split at h
  · cases h
  · next ds tail hwhole =>
    obtain ⟨rfl, hds⟩ := whole?_eq_some hwhole
    have hquiet := leads_quiet (fun c hc => isQuiet_of_isAsciiDigit (hds c hc)) n tail
    have hall := hquiet.trans ((leads_fraction n tail).trans (leads_exponent n _))
    dsimp only at h
    split at h
    · split at h
      · cases h
      · cases h
        exact hall
    · cases h
      exact hall

/-- What is read as a number has digits only. -/
theorem isSome_digitValue?_of_number? {base : Nat} {cs : List Char} {v : Nat}
    (h : Text.number? base cs = some v) : ∀ c ∈ cs, (Text.digitValue? c).isSome = true := by
  have hfold :
      ∀ (cs : List Char) (acc : Option Nat), cs.foldl (Text.number?.step base) acc = some v →
      acc.isSome = true ∧ ∀ c ∈ cs, (Text.digitValue? c).isSome = true := by
    intro cs
    induction cs with
    | nil =>
      rintro acc rfl
      exact ⟨rfl, nofun⟩
    | cons c cs ih =>
      intro acc hacc
      obtain ⟨hstep, hcs⟩ := ih _ hacc
      unfold Text.number?.step at hstep
      split at hstep
      · next hdigit =>
        refine ⟨rfl, List.forall_mem_cons.mpr ⟨?_, hcs⟩⟩
        rw [hdigit]
        rfl
      · cases hstep
  cases cs with
  | nil => cases h
  | cons c cs => exact (hfold _ _ h).2

/-- A digit in a string neither ends it nor escapes anything. -/
theorem leads_inside_digit {c : Char} (h : (Text.digitValue? c).isSome = true)
    (hleads : Leads (inside n) cs q rest) : Leads (inside n) (c :: cs) q rest := by
  have hquote : c ≠ '"' := by
    rintro rfl
    exact absurd h (by decide)
  have hslash : c ≠ '\\' := by
    rintro rfl
    exact absurd h (by decide)
  refine .cons ?_
  rw [next, if_neg hquote, if_neg hslash]
  exact hleads

/-- **A string ends outside strings.** -/
theorem leads_stringTail {acc : List Char} {high : Option Nat} {s : String}
    (h : stringTail acc high cs = .ok (s, rest)) (n : Nat) :
    Leads (inside n) cs (outside n) rest := by
  fun_induction stringTail acc high cs with
  | case1 => cases h
  | case2 acc high cs =>
    cases h
    exact .cons (.refl _ _)
  | case3 acc high a b c d cs u hu _ _ _ ih =>
    -- an escape of four digits
    have hdigits := isSome_digitValue?_of_number? hu
    simp only [List.forall_mem_cons] at hdigits
    obtain ⟨ha, hb, hc, hd, -⟩ := hdigits
    refine .cons (.cons ?_)
    exact leads_inside_digit ha (leads_inside_digit hb (leads_inside_digit hc
      (leads_inside_digit hd (ih h))))
  | case4 => cases h
  | case5 acc high e cs _ c _ ih => exact .cons (.cons (ih h))
  | case6 => cases h
  | case7 => cases h
  | case8 acc high c cs hquote _ _ hplain ih =>
    refine .cons ?_
    rw [next, if_neg hquote, if_neg fun hslash => hplain (.inr hslash)]
    exact ih h

/-- Reading a string fails in one way only: the string is malformed. -/
theorem stringTail_eq_error {acc : List Char} {high : Option Nat}
    (h : stringTail acc high cs = .error f) : f = .malformed := by
  fun_induction stringTail acc high cs with
  | case3 acc high a b c d cs u hu _ _ _ ih => exact ih h
  | case5 acc high e cs _ c _ ih => exact ih h
  | case8 acc high c cs _ _ _ _ ih => exact ih h
  | case2 => cases h
  | _ => exact (Except.error.inj h).symm

/-- Reading a word stays at the depth. -/
theorem leads_word? (h : word? cs = some (d, rest)) (n : Nat) :
    Leads (outside n) cs (outside n) rest := by
  obtain ⟨w, hw, rfl⟩ := word?_eq_some h
  have hquiet : ∀ p ∈ wordValues, p.1.toList.all isQuiet = true := by decide
  exact leads_quiet (List.all_eq_true.mp (hquiet _ hw)) n rest

/-- Reading any scalar stays at the depth. -/
theorem leads_scalar (h : scalar cs = .ok (d, rest)) (n : Nat) :
    Leads (outside n) cs (outside n) rest := by
  unfold scalar at h
  split at h
  · next cs =>
    cases hstring : stringTail [] none cs with
    | error f =>
      rw [hstring] at h
      cases h
    | ok p =>
      rw [hstring] at h
      cases h
      exact .cons (leads_stringTail hstring n)
  · split at h
    · next hword =>
      cases h
      exact leads_word? hword n
    · split at h
      · exact (leads_cons_quiet (by decide) n _).trans (leads_unsigned h n)
      · exact leads_unsigned h n

/-! ### Faults -/

/-- What a fault of a reader that began at a place tells of the text, the limit for nesting being
given. -/
def Shows (limit : Nat) (p : Place) (cs : List Char) : ReadFault → Prop
  | .malformed => True
  | .tooDeep => ∃ q rest, Leads p cs q rest ∧ limit < q.depth
  | .longInteger count => Text.digitLimit < count ∧ ∃ ds rest n,
      Leads p cs (outside n) (ds ++ rest) ∧ ds.length = count ∧
        ∀ d ∈ ds, Text.isAsciiDigit d = true

/-- What a fault tells of the rest of a text it tells of the whole. -/
theorem Shows.of_leads {limit : Nat} (hleads : Leads p cs q rest) (h : Shows limit q rest f) :
    Shows limit p cs f := by
  cases f with
  | malformed => trivial
  | tooDeep =>
    obtain ⟨q', rest', hdeep, hlimit⟩ := h
    exact ⟨q', rest', hleads.trans hdeep, hlimit⟩
  | longInteger count =>
    obtain ⟨hcount, ds, rest', n, hlong, hds⟩ := h
    exact ⟨hcount, ds, rest', n, hleads.trans hlong, hds⟩

/-- A number that cannot be read shows why: it is malformed, or it has too many digits. -/
theorem shows_unsigned {negative : Bool} (h : unsigned negative cs = .error f) (limit n : Nat) :
    Shows limit (outside n) cs f := by
  unfold unsigned at h
  split at h
  · cases h
    trivial
  · next ds tail hwhole =>
    obtain ⟨rfl, hds⟩ := whole?_eq_some hwhole
    dsimp only at h
    split at h
    · split at h
      · next hlong =>
        cases h
        exact ⟨hlong, ds, tail, n, .refl _ _, rfl, hds⟩
      · cases h
    · cases h

/-- A scalar that cannot be read shows why. -/
theorem shows_scalar (h : scalar cs = .error f) (limit n : Nat) : Shows limit (outside n) cs f := by
  unfold scalar at h
  split at h
  · next cs =>
    cases hstring : stringTail [] none cs with
    | error f' =>
      rw [hstring] at h
      cases h
      rw [stringTail_eq_error hstring]
      trivial
    | ok p =>
      rw [hstring] at h
      cases h
  · split at h
    · cases h
    · split at h
      · exact (shows_unsigned h limit n).of_leads (leads_cons_quiet (by decide) n _)
      · exact shows_unsigned h limit n

/-! ### Containers -/

/-- What is asked of the reader of the items of a container: it leads from the outside of strings to
there, and its faults can be seen. The depth is how much deeper than the item a text may nest. -/
structure IsOrderly (depth : Nat) (item : List Char → ReadResult Datum) : Prop where
  /-- What was read leaves no bracket open. -/
  leads : ∀ {cs d rest}, item cs = .ok (d, rest) → ∀ n, Leads (outside n) cs (outside n) rest
  /-- A fault can be seen in the text. -/
  shows : ∀ {cs f}, item cs = .error f → ∀ n, Shows (n + depth) (outside n) cs f

variable {item : List Char → ReadResult Datum}

/-- A closing bracket leads out by one. -/
theorem leads_close {c : Char} (h : c = ']' ∨ c = '}') (n : Nat) (cs : List Char) :
    Leads (outside (n + 1)) (c :: cs) (outside n) cs := by
  refine .cons ?_
  rcases h with rfl | rfl <;> exact .refl _ _

/-- An opening bracket leads in by one. -/
theorem leads_open {c : Char} (h : c = '[' ∨ c = '{') (n : Nat) (cs : List Char) :
    Leads (outside n) (c :: cs) (outside (n + 1)) cs := by
  refine .cons ?_
  rcases h with rfl | rfl <;> exact .refl _ _

/-- The items of a list end with its bracket. -/
theorem leads_items (hitem : IsOrderly depth item) {acc : List Datum} {fuel : List Char}
    (h : items item acc fuel cs = .ok (d, rest)) (n : Nat) :
    Leads (outside (n + 1)) cs (outside n) rest := by
  fun_induction items item acc fuel cs with
  | case1 => cases h
  | case2 => cases h
  | case3 acc _ fuel cs d' tail hread rest' hcomma ih =>
    refine ((leads_skipSpace (n + 1) cs).trans (hitem.leads hread (n + 1))).trans ?_
    refine (leads_skipSpace (n + 1) tail).trans ?_
    rw [hcomma]
    exact (leads_cons_quiet (by decide) (n + 1) rest').trans (ih h)
  | case4 acc _ fuel cs d' tail hread rest' hclose =>
    cases h
    refine ((leads_skipSpace (n + 1) cs).trans (hitem.leads hread (n + 1))).trans ?_
    refine (leads_skipSpace (n + 1) tail).trans ?_
    rw [hclose]
    exact leads_close (.inl rfl) n _
  | case5 => cases h

/-- A list that cannot be read shows why, below its own depth. -/
theorem shows_items (hitem : IsOrderly depth item) {acc : List Datum} {fuel : List Char}
    (h : items item acc fuel cs = .error f) (n : Nat) :
    Shows (n + depth) (outside n) cs f := by
  fun_induction items item acc fuel cs with
  | case1 =>
    cases h
    trivial
  | case2 acc _ fuel cs f' hread =>
    cases h
    exact (hitem.shows hread n).of_leads (leads_skipSpace n cs)
  | case3 acc _ fuel cs d' tail hread rest' hcomma ih =>
    have hrest := (ih h).of_leads (leads_cons_quiet (c := ',') (by decide) n rest')
    rw [← hcomma] at hrest
    exact ((hrest.of_leads (leads_skipSpace n tail)).of_leads (hitem.leads hread n)).of_leads
      (leads_skipSpace n cs)
  | case4 => cases h
  | case5 =>
    cases h
    trivial

/-- A name and its colon lead to the value of the member. -/
theorem leads_name {key : String} {tail tail' : List Char} (hquote : skipSpace cs = '"' :: tail)
    (hkey : stringTail [] none tail = .ok (key, tail')) (hcolon : skipSpace tail' = ':' :: rest)
    (n : Nat) : Leads (outside n) cs (outside n) (skipSpace rest) := by
  have hname : Leads (outside n) cs (outside n) tail' := by
    refine (leads_skipSpace n cs).trans ?_
    rw [hquote]
    exact .cons (leads_stringTail hkey n)
  refine hname.trans ((leads_skipSpace n tail').trans ?_)
  rw [hcolon]
  exact (leads_cons_quiet (by decide) n rest).trans (leads_skipSpace n rest)

/-- The members of a table end with its brace. -/
theorem leads_members (hitem : IsOrderly depth item) {acc : List (String × Datum)}
    {fuel : List Char} (h : members item acc fuel cs = .ok (d, rest)) (n : Nat) :
    Leads (outside (n + 1)) cs (outside n) rest := by
  fun_induction members item acc fuel cs with
  | case4 acc _ fuel cs tail hquote key tail' hkey body hcolon d' after hread rest' hcomma ih =>
    refine ((leads_name hquote hkey hcolon (n + 1)).trans (hitem.leads hread (n + 1))).trans ?_
    refine (leads_skipSpace (n + 1) after).trans ?_
    rw [hcomma]
    exact (leads_cons_quiet (by decide) (n + 1) rest').trans (ih h)
  | case5 acc _ fuel cs tail hquote key tail' hkey body hcolon d' after hread rest' hclose =>
    cases h
    refine ((leads_name hquote hkey hcolon (n + 1)).trans (hitem.leads hread (n + 1))).trans ?_
    refine (leads_skipSpace (n + 1) after).trans ?_
    rw [hclose]
    exact leads_close (.inr rfl) n _
  | _ => cases h

/-- A table that cannot be read shows why, below its own depth. -/
theorem shows_members (hitem : IsOrderly depth item) {acc : List (String × Datum)}
    {fuel : List Char} (h : members item acc fuel cs = .error f) (n : Nat) :
    Shows (n + depth) (outside n) cs f := by
  fun_induction members item acc fuel cs with
  | case2 acc _ fuel cs tail hquote f' hkey =>
    cases h
    rw [stringTail_eq_error hkey]
    trivial
  | case3 acc _ fuel cs tail hquote key tail' hkey body hcolon f' hread =>
    cases h
    exact (hitem.shows hread n).of_leads (leads_name hquote hkey hcolon n)
  | case4 acc _ fuel cs tail hquote key tail' hkey body hcolon d' after hread rest' hcomma ih =>
    have hrest := (ih h).of_leads (leads_cons_quiet (c := ',') (by decide) n rest')
    rw [← hcomma] at hrest
    exact ((hrest.of_leads (leads_skipSpace n after)).of_leads (hitem.leads hread n)).of_leads
      (leads_name hquote hkey hcolon n)
  | case5 => cases h
  | _ =>
    cases h
    trivial

/-- Reading a list leads out of its bracket. -/
theorem leads_list (hitem : IsOrderly depth item) (h : list item cs = .ok (d, rest)) (n : Nat) :
    Leads (outside (n + 1)) cs (outside n) rest := by
  unfold list at h
  split at h
  · next hclose =>
    cases h
    refine (leads_skipSpace (n + 1) cs).trans ?_
    rw [hclose]
    exact leads_close (.inl rfl) n _
  · exact leads_items hitem h n

/-- Reading a table leads out of its brace. -/
theorem leads_table (hitem : IsOrderly depth item) (h : table item cs = .ok (d, rest)) (n : Nat) :
    Leads (outside (n + 1)) cs (outside n) rest := by
  unfold table at h
  split at h
  · next hclose =>
    cases h
    refine (leads_skipSpace (n + 1) cs).trans ?_
    rw [hclose]
    exact leads_close (.inr rfl) n _
  · exact leads_members hitem h n

/-- A container opens a bracket, closes it again, and lets its items nest one level less. -/
theorem isOrderly_container {c : Char} (hc : c = '[' ∨ c = '{') (cs : List Char)
    {body : List Char → ReadResult Datum}
    (hleads : ∀ {cs d rest}, body cs = .ok (d, rest) →
      ∀ n, Leads (outside (n + 1)) cs (outside n) rest)
    (hshows : ∀ {cs f}, body cs = .error f → ∀ n, Shows (n + depth) (outside n) cs f) :
    (∀ {d rest}, body cs = .ok (d, rest) → ∀ n, Leads (outside n) (c :: cs) (outside n) rest) ∧
      ∀ {f}, body cs = .error f → ∀ n, Shows (n + (depth + 1)) (outside n) (c :: cs) f := by
  constructor
  · intro d rest h n
    exact (leads_open hc n cs).trans (hleads h n)
  · intro f h n
    have hbody := hshows h (n + 1)
    rw [Nat.add_assoc, Nat.add_comm 1] at hbody
    exact hbody.of_leads (leads_open hc n cs)

/-- **Every value leads from the outside of strings to there**, and its faults can be seen. -/
theorem isOrderly_value (depth : Nat) : IsOrderly depth (value depth) := by
  induction depth with
  | zero =>
    constructor
    · intro cs d rest h n
      unfold value at h
      split at h
      · cases h
      · cases h
      · exact leads_scalar h n
    · intro cs f h n
      unfold value at h
      split at h
      · cases h
        exact ⟨outside (n + 1), _, leads_open (.inl rfl) n _, Nat.lt_succ_self n⟩
      · cases h
        exact ⟨outside (n + 1), _, leads_open (.inr rfl) n _, Nat.lt_succ_self n⟩
      · exact shows_scalar h _ n
  | succ depth ih =>
    have hlist := fun cs => isOrderly_container (c := '[') (.inl rfl) cs
      (leads_list ih) fun h n => by
        unfold list at h
        split at h
        · cases h
        · exact shows_items ih h n
    have htable := fun cs => isOrderly_container (c := '{') (.inr rfl) cs
      (leads_table ih) fun h n => by
        unfold table at h
        split at h
        · cases h
        · exact shows_members ih h n
    constructor
    · intro cs d rest h n
      unfold value at h
      split at h
      · exact (hlist _).1 h n
      · exact (htable _).1 h n
      · exact leads_scalar h n
    · intro cs f h n
      unfold value at h
      split at h
      · exact (hlist _).2 h n
      · exact (htable _).2 h n
      · exact shows_scalar h _ n

/-- The fault of a whole text can be seen in it. -/
theorem shows_of_parse (h : parse cs = .error f) : Shows nestingLimit (outside 0) cs f := by
  unfold parse at h
  split at h
  · next hread =>
    cases h
    have hshows := (isOrderly_value nestingLimit).shows hread 0
    rw [Nat.zero_add] at hshows
    exact hshows.of_leads (leads_skipSpace 0 cs)
  · split at h
    · cases h
    · cases h
      trivial

/-- **A reader gives up on nesting only where brackets outside strings nest that deep.** -/
theorem nestsBeyond_of_parse (h : parse cs = .error .tooDeep) : NestsBeyond nestingLimit cs := by
  obtain ⟨q, rest, ⟨read, hread, rfl⟩, hdeep⟩ := shows_of_parse h
  exact ⟨read, rest, hread, hdeep⟩

/-- **A reader gives up on an integer only where so many digits stand in a row outside strings.** -/
theorem holdsDigits_of_parse {count : Nat} (h : parse cs = .error (.longInteger count)) :
    Text.digitLimit < count ∧ HoldsDigits count cs := by
  obtain ⟨hcount, ds, rest, n, ⟨read, hread, hplace⟩, hds⟩ := shows_of_parse h
  exact ⟨hcount, read, ds, rest, n, hread, hplace, hds⟩

/-! ### Short texts -/

/-- One character opens at most one bracket. -/
theorem depth_next_le (p : Place) (c : Char) : (p.next c).depth ≤ p.depth + 1 := by
  cases p with
  | outside n =>
    rw [next]
    repeat' split
    all_goals
      simp only [Place.depth]
      omega
  | inside n =>
    rw [next]
    repeat' split
    all_goals exact Nat.le_succ n
  | escaped n => exact Nat.le_succ n

/-- A text opens at most as many brackets as it has characters. -/
theorem depth_after_le (p : Place) (cs : List Char) : (p.after cs).depth ≤ p.depth + cs.length := by
  induction cs generalizing p with
  | nil => exact Nat.le_refl _
  | cons c cs ih =>
    have hrest := ih (p.next c)
    have hnext := depth_next_le p c
    rw [List.length_cons]
    show ((p.next c).after cs).depth ≤ _
    omega

/-- A text nests no deeper than it is long. -/
theorem length_of_nestsBeyond {limit : Nat} (h : NestsBeyond limit cs) : limit < cs.length := by
  obtain ⟨read, rest, rfl, hdeep⟩ := h
  have hle : ((outside 0).after read).depth ≤ 0 + read.length := depth_after_le _ _
  rw [List.length_append]
  omega

/-- A text that holds so many digits is as long. -/
theorem length_of_holdsDigits {count : Nat} (h : HoldsDigits count cs) : count ≤ cs.length := by
  obtain ⟨read, ds, rest, n, rfl, -, rfl, -⟩ := h
  simp only [List.length_append]
  omega

end ProjectSurvey.Json
