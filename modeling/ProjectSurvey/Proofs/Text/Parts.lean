import Mathlib.Data.List.DropRight
import ProjectSurvey.Proofs.Paths
import ProjectSurvey.Text.Classes

/-!
# Parts of texts

What the operations that take a text apart come to on texts that are put together: fields between
separators (`pieces_join`), what stands before the first occurrence of a part (`before_append`) and
whether there is one (`occursIn_iff`), a run of characters of a set (`takeWhile_of_head`), a text
without the blanks around it (`trim_append`), and the words between blanks (`words_append`).
**Blanks are no word characters** (`isWord_of_isBlank`), so that neither is taken for the other.
-/

namespace ProjectSurvey.Text

/-! ### Fields -/

/-- The fields that a text was put together of, if none holds the separator. -/
theorem pieces_join {sep : Char} {fields : List (List Char)} (hne : fields ≠ [])
    (h : ∀ f ∈ fields, sep ∉ f) : pieces sep (join [sep] fields) = fields := by
  induction fields with
  | nil => exact absurd rfl hne
  | cons f rest ih =>
    obtain ⟨hf, hrest⟩ := List.forall_mem_cons.mp h
    cases rest with
    | nil => exact pieces_of_not_mem hf
    | cons g rest =>
      rw [join, List.append_assoc, List.singleton_append, pieces_append_cons hf,
        ih (List.cons_ne_nil g rest) hrest]

/-- A text joined behind others has the separator in front of it. -/
theorem join_concat {sep : Char} {fs : List (List Char)} (hne : fs ≠ []) (f : List Char) :
    join [sep] (fs ++ [f]) = join [sep] fs ++ [sep] ++ f := by
  induction fs with
  | nil => exact absurd rfl hne
  | cons g fs ih =>
    cases fs with
    | nil => rfl
    | cons g' fs =>
      have hrest : join [sep] (g' :: (fs ++ [f])) = join [sep] (g' :: fs) ++ [sep] ++ f :=
        ih (List.cons_ne_nil g' fs)
      show g ++ [sep] ++ join [sep] (g' :: (fs ++ [f])) =
        g ++ [sep] ++ join [sep] (g' :: fs) ++ [sep] ++ f
      rw [hrest]
      simp only [List.append_assoc]

/-- A text joined in front of others has the separator in front of each of them. -/
theorem join_cons (sep f : List Char) (fs : List (List Char)) :
    join sep (f :: fs) = f ++ fs.flatMap (sep ++ ·) := by
  induction fs generalizing f with
  | nil => simp [join]
  | cons g fs ih => rw [join, ih, List.flatMap_cons, List.append_assoc, List.append_assoc]

/-- The first of several fields stands in front of a separator or of nothing. -/
theorem exists_join_cons (sep : Char) (fs : List (List Char)) :
    ∃ back, (∀ f, join [sep] (f :: fs) = f ++ back) ∧ ∀ c ∈ back.head?, c = sep := by
  refine ⟨fs.flatMap ([sep] ++ ·), fun f => join_cons [sep] f fs, ?_⟩
  cases fs <;> simp

/-- The last of several fields stands behind the rest of the text. -/
theorem exists_join_concat (sep : Char) (fs : List (List Char)) :
    ∃ front, ∀ f, join [sep] (fs ++ [f]) = front ++ f := by
  rcases eq_or_ne fs [] with rfl | hne
  · exact ⟨[], fun _ => rfl⟩
  · exact ⟨join [sep] fs ++ [sep], join_concat hne⟩

/-- A character of joined texts is the separator or one of a text. -/
theorem of_mem_join {sep c : Char} {fs : List (List Char)} (h : c ∈ join [sep] fs) :
    c = sep ∨ ∃ f ∈ fs, c ∈ f := by
  induction fs with
  | nil => cases h
  | cons f fs ih =>
    cases fs with
    | nil => exact .inr ⟨f, List.mem_singleton_self f, h⟩
    | cons g fs =>
      rw [join, List.append_assoc, List.mem_append] at h
      rcases h with hc | h
      · exact .inr ⟨f, List.mem_cons_self, hc⟩
      · rcases List.mem_cons.mp h with rfl | h
        · exact .inl rfl
        · rcases ih h with hc | ⟨f', hf', hc⟩
          · exact .inl hc
          · exact .inr ⟨f', List.mem_cons_of_mem f hf', hc⟩

/-! ### What stands before a part -/

/-- What is after a start is the rest of a text that starts with it. -/
theorem after?_eq_some_iff {start cs rest : List Char} :
    after? start cs = some rest ↔ cs = start ++ rest := by
  induction start generalizing cs with
  | nil => rw [after?, List.nil_append, Option.some_inj]
  | cons s start ih =>
    cases cs with
    | nil => simp [after?]
    | cons c cs =>
      rw [after?, List.cons_append, List.cons.injEq]
      by_cases hs : s = c
      · rw [if_pos hs, ih, and_iff_right hs.symm]
      · rw [if_neg hs]
        simp [Ne.symm hs]

/-- The search for a part keeps what it has seen. -/
theorem cut?_go (part seen cs : List Char) :
    cut?.go part seen cs = (cut? part cs).map fun x => (seen.reverse ++ x.1, x.2) := by
  suffices hall : ∀ seen more, cut?.go part (seen ++ more) cs =
      (cut?.go part seen cs).map fun x => (more.reverse ++ x.1, x.2) from hall [] seen
  induction cs with
  | nil =>
    intro seen more
    simp only [cut?.go, Option.map_map, List.reverse_append]
    rfl
  | cons c cs ih =>
    intro seen more
    simp only [cut?.go]
    cases after? part (c :: cs) with
    | some rest => simp
    | none => exact ih (c :: seen) more

variable {part : String}

/-- Nothing stands before a part at the beginning. -/
theorem before_prefix (hne : part ≠ "") (back : List Char) :
    before part (part.toList ++ back) = [] := by
  obtain ⟨c, cs, hpart⟩ := List.exists_cons_of_ne_nil (mt String.toList_eq_nil_iff.mp hne)
  have hafter : after? (c :: cs) (c :: (cs ++ back)) = some back := after?_eq_some_iff.mpr rfl
  unfold before cut?
  rw [hpart, List.cons_append, cut?.go, hafter]
  rfl

/-- Before any part of an empty text there is nothing. -/
theorem before_nil (hne : part ≠ "") : before part [] = [] := by
  obtain ⟨c, cs, hpart⟩ := List.exists_cons_of_ne_nil (mt String.toList_eq_nil_iff.mp hne)
  unfold before cut?
  rw [hpart]
  rfl

/-- A character stands before a part that does not begin with it. -/
theorem before_cons {c : Char} {cs : List Char} (h : ¬ part.toList <+: c :: cs) :
    before part (c :: cs) = c :: before part cs := by
  have hafter : after? part.toList (c :: cs) = none := by
    rw [Option.eq_none_iff_forall_not_mem]
    intro rest hrest
    exact h ⟨rest, (after?_eq_some_iff.mp hrest).symm⟩
  unfold before
  rw [cut?, cut?.go, hafter]
  dsimp only
  rw [cut?_go]
  cases cut? part.toList cs <;> rfl

/-- A text stands before a part that begins nowhere in it. -/
theorem before_append {front back : List Char}
    (h : ∀ shown hidden, front = shown ++ hidden → hidden ≠ [] →
      ¬ part.toList <+: hidden ++ back) :
    before part (front ++ back) = front ++ before part back := by
  induction front with
  | nil => rfl
  | cons c front ih =>
    have hhere : ¬ part.toList <+: c :: (front ++ back) :=
      h [] (c :: front) rfl (List.cons_ne_nil c front)
    have hrest := ih fun shown hidden heq hne => h (c :: shown) hidden (congrArg (c :: ·) heq) hne
    rw [List.cons_append, before_cons hhere, hrest, List.cons_append]

/-! ### Occurrences -/

/-- A part occurs exactly if it stands somewhere in the text. -/
theorem occursIn_iff {cs : List Char} : occursIn part cs = true ↔ part.toList <:+: cs := by
  unfold occursIn
  induction cs with
  | nil =>
    cases h : part.toList <;> simp [cut?, cut?.go, after?]
  | cons c cs ih =>
    rw [List.infix_cons_iff, ← ih, cut?, cut?.go]
    cases hafter : after? part.toList (c :: cs) with
    | some rest =>
      have hbegins : part.toList <+: c :: cs := ⟨rest, (after?_eq_some_iff.mp hafter).symm⟩
      simp [hbegins]
    | none =>
      have hbegins : ¬ part.toList <+: c :: cs := by
        rintro ⟨rest, hrest⟩
        rw [after?_eq_some_iff.mpr hrest.symm] at hafter
        cases hafter
      dsimp only
      rw [cut?_go, Option.isSome_map]
      simp [hbegins]

/-! ### Runs of characters -/

/-- What holds of each character of a text is decided by going through it, and not through all
characters there are. -/
theorem forall_mem_of_all {p : Char → Prop} [DecidablePred p] {cs : List Char}
    (h : cs.all (fun c => decide (p c)) = true) : ∀ c ∈ cs, p c :=
  fun c hc => of_decide_eq_true (List.all_eq_true.mp h c hc)

/-- A run of characters of a set ends where another character comes. -/
theorem takeWhile_of_head {p : Char → Bool} {front back : List Char}
    (hall : ∀ c ∈ front, p c = true) (hhead : ∀ c ∈ back.head?, p c = false) :
    (front ++ back).takeWhile p = front ∧ (front ++ back).dropWhile p = back := by
  rw [List.takeWhile_append_of_pos hall, List.dropWhile_append_of_pos hall]
  cases back with
  | nil => simp
  | cons c back =>
    have hc : p c = false := hhead c rfl
    rw [List.takeWhile_cons_of_neg (by simp [hc]), List.dropWhile_cons_of_neg (by simp [hc]),
      List.append_nil]
    exact ⟨rfl, rfl⟩

/-- A text begins with one run of characters of a set only. -/
theorem append_inj_of_head {p : Char → Bool} {front back front' back' : List Char}
    (hall : ∀ c ∈ front, p c = true) (hhead : ∀ c ∈ back.head?, p c = false)
    (hall' : ∀ c ∈ front', p c = true) (hhead' : ∀ c ∈ back'.head?, p c = false)
    (heq : front ++ back = front' ++ back') : front = front' ∧ back = back' := by
  obtain ⟨htake, hdrop⟩ := takeWhile_of_head hall hhead
  obtain ⟨htake', hdrop'⟩ := takeWhile_of_head hall' hhead'
  exact ⟨by rw [← htake, heq, htake'], by rw [← hdrop, heq, hdrop']⟩

/-! ### Blanks around a text -/

/-- Whether a text is made of blanks. -/
def IsGap (cs : List Char) : Prop := ∀ c ∈ cs, isBlank c = true

/-- Repeated blanks are a gap. -/
theorem isGap_replicate {c : Char} (h : isBlank c = true) (n : Nat) : IsGap (List.replicate n c) :=
  fun _ hx => List.eq_of_mem_replicate hx ▸ h

/-- What comes after a text keeps what is trimmed at its beginning from going on. -/
theorem trimLeft_append {p : Char → Bool} (front : List Char) {back : List Char}
    (h : trimLeft p back = back) : trimLeft p (front ++ back) = trimLeft p front ++ back := by
  unfold trimLeft at h ⊢
  rw [List.dropWhile_append]
  split
  · next hnone => rw [h, List.isEmpty_iff.mp hnone, List.nil_append]
  · rfl

/-- What comes before a text keeps what is trimmed at its end from going on. -/
theorem trimRight_append {p : Char → Bool} {front : List Char} (back : List Char)
    (h : trimRight p front = front) : trimRight p (front ++ back) = front ++ trimRight p back := by
  have hreverse : trimLeft p front.reverse = front.reverse := by
    rw [← List.reverse_inj, List.reverse_reverse]
    exact h
  unfold trimRight
  rw [List.reverse_append]
  exact (congrArg List.reverse (trimLeft_append back.reverse hreverse)).trans (by simp [trimLeft])

/-- Trimming stops at once on the left at a character to keep, -/
theorem trimLeft_cons {p : Char → Bool} {c : Char} (h : p c = false) (cs : List Char) :
    trimLeft p (c :: cs) = c :: cs := List.dropWhile_cons_of_neg (by simp [h])

/-- and on the right. -/
theorem trimRight_concat {p : Char → Bool} {c : Char} (h : p c = false) (cs : List Char) :
    trimRight p (cs ++ [c]) = cs ++ [c] := by
  unfold trimRight
  rw [List.reverse_append, List.reverse_singleton, List.singleton_append,
    List.dropWhile_cons_of_neg (by simp [h])]
  simp

/-- Trimming a text with nothing to keep leaves nothing. -/
theorem trimLeft_of_all {p : Char → Bool} {cs : List Char} (h : ∀ c ∈ cs, p c = true) :
    trimLeft p cs = [] := List.dropWhile_eq_nil_iff.mpr h

/-- What is left of a text is a part of it, with characters of the set around. -/
theorem exists_trimLeft (p : Char → Bool) (cs : List Char) :
    ∃ front, cs = front ++ trimLeft p cs ∧ ∀ c ∈ front, p c = true :=
  ⟨cs.takeWhile p, List.takeWhile_append_dropWhile.symm, fun _ hc => List.mem_takeWhile_imp hc⟩

/-- What is trimmed on the right was there to trim. -/
theorem exists_trimRight (p : Char → Bool) (cs : List Char) :
    ∃ back, cs = trimRight p cs ++ back ∧ ∀ c ∈ back, p c = true := by
  refine ⟨(cs.reverse.takeWhile p).reverse, ?_, fun c hc =>
    List.mem_takeWhile_imp (List.mem_reverse.mp hc)⟩
  unfold trimRight
  rw [← List.reverse_append, List.takeWhile_append_dropWhile, List.reverse_reverse]

/-- A character to keep is kept. -/
theorem mem_trim_of_neg {p : Char → Bool} {c : Char} {cs : List Char} (hc : c ∈ cs)
    (h : p c = false) : c ∈ trim p cs := by
  obtain ⟨front, hfront, hall⟩ := exists_trimLeft p cs
  obtain ⟨back, hback, hall'⟩ := exists_trimRight p (trimLeft p cs)
  have hno : ∀ xs : List Char, (∀ x ∈ xs, p x = true) → c ∉ xs := fun xs hxs hmem => by
    rw [hxs c hmem] at h
    cases h
  rw [hfront, List.mem_append] at hc
  have hleft := hc.resolve_left (hno front hall)
  rw [hback, List.mem_append] at hleft
  exact hleft.resolve_right (hno back hall')

/-- What lies between two characters that stay is not trimmed. -/
theorem mem_trim_of_between {p : Char → Bool} {a b c : Char} {mid : List Char}
    (front back : List Char) (ha : p a = false) (hb : p b = false) (hc : c ∈ mid) :
    c ∈ trim p (front ++ (a :: mid ++ b :: back)) := by
  have hleft : trimLeft p (a :: mid ++ b :: back) = a :: mid ++ b :: back := trimLeft_cons ha _
  have hsplit : trimLeft p front ++ (a :: mid ++ b :: back) =
      (trimLeft p front ++ a :: mid ++ [b]) ++ back := by simp
  rw [trim, trimLeft_append front hleft, hsplit, trimRight_append back (trimRight_concat hb _)]
  simp [hc]

/-- Characters of the set around a text are trimmed off it. -/
theorem trim_append {p : Char → Bool} {front back : List Char} (cs : List Char)
    (hfront : ∀ c ∈ front, p c = true) (hback : ∀ c ∈ back, p c = true) :
    trim p (front ++ (cs ++ back)) = trim p cs := by
  have hleft : trimLeft p (front ++ (cs ++ back)) = trimLeft p (cs ++ back) :=
    List.dropWhile_append_of_pos hfront
  have hright : ∀ xs, trimRight p (xs ++ back) = trimRight p xs := by
    intro xs
    unfold trimRight
    rw [List.reverse_append,
      List.dropWhile_append_of_pos fun c hc => hback c (List.mem_reverse.mp hc)]
  rw [trim, trim, hleft, trimLeft, List.dropWhile_append]
  split
  · next hnone =>
    rw [trimLeft, List.isEmpty_iff.mp hnone, List.dropWhile_eq_nil_iff.mpr hback]
  · exact hright _

/-- A text that neither begins nor ends with characters of the set is not trimmed. -/
theorem trim_eq_self {p : Char → Bool} {cs : List Char} (hhead : ∀ c ∈ cs.head?, p c = false)
    (hlast : ∀ c ∈ cs.getLast?, p c = false) : trim p cs = cs := by
  rcases List.eq_nil_or_concat cs with rfl | ⟨front, last, rfl⟩
  · rfl
  · rw [List.concat_eq_append] at hhead hlast ⊢
    obtain ⟨first, rest, hfirst⟩ : ∃ first rest, front ++ [last] = first :: rest :=
      List.exists_cons_of_ne_nil (by simp)
    have hleft : trimLeft p (front ++ [last]) = front ++ [last] := by
      rw [hfirst]
      exact trimLeft_cons (hhead first (by simp [hfirst])) rest
    rw [trim, hleft, trimRight_concat (hlast last (by simp))]

/-- A text with nothing to trim is what is left of it with characters of the set around. -/
theorem trim_eq_of_edges {p : Char → Bool} {front word back : List Char}
    (hfront : ∀ c ∈ front, p c = true) (hword : ∀ c ∈ word, p c = false)
    (hback : ∀ c ∈ back, p c = true) : trim p (front ++ (word ++ back)) = word := by
  rw [trim_append word hfront hback]
  exact trim_eq_self (fun c hc => hword c (List.mem_of_mem_head? hc))
    fun c hc => hword c (List.mem_of_mem_getLast? hc)

/-- A text that begins with characters that stay begins so when it is trimmed. -/
theorem exists_trim_append {p : Char → Bool} {front word : List Char}
    (hfront : ∀ c ∈ front, p c = true) (hne : word ≠ []) (hword : ∀ c ∈ word, p c = false)
    (back : List Char) : ∃ more, trim p (front ++ (word ++ back)) = word ++ more := by
  have hleft : trimLeft p (front ++ (word ++ back)) = word ++ back := by
    obtain ⟨c, word, rfl⟩ := List.exists_cons_of_ne_nil hne
    exact (List.dropWhile_append_of_pos hfront).trans
      (trimLeft_cons (hword c List.mem_cons_self) (word ++ back))
  have hright : trimRight p word = word := by
    rw [trimRight, List.dropWhile_eq_self_iff.mpr, List.reverse_reverse]
    intro hlen hp
    rw [hword _ (List.mem_reverse.mp (List.getElem_mem hlen))] at hp
    cases hp
  exact ⟨trimRight p back, by rw [trim, hleft, trimRight_append back hright]⟩

/-! ### Words -/

/-- Blanks in front of a text belong to no word. -/
theorem words_cons_of_isBlank {c : Char} (h : isBlank c = true) (cs : List Char) :
    words (c :: cs) = words cs := by
  unfold words
  rw [List.foldr_cons]
  cases hcs : cs.foldr words.step ([], []) with
  | mk first others => simp [words.step, h]

/-- Blanks in front of a text change nothing about its words. -/
theorem words_append_of_isBlank {front : List Char} (h : ∀ c ∈ front, isBlank c = true)
    (cs : List Char) : words (front ++ cs) = words cs := by
  induction front with
  | nil => rfl
  | cons c front ih =>
    obtain ⟨hc, hfront⟩ := List.forall_mem_cons.mp h
    rw [List.cons_append, words_cons_of_isBlank hc, ih hfront]

/-- A run of characters that are not blank is a word if a blank comes behind it, or nothing. -/
theorem words_append {word back : List Char} (hne : word ≠ [])
    (hword : ∀ c ∈ word, isBlank c = false)
    (hback : ∀ c ∈ back.head?, isBlank c = true) : words (word ++ back) = word :: words back := by
  have hfold : back.foldr words.step ([], []) = ([], words back) := by
    unfold words
    cases back with
    | nil => rfl
    | cons c back =>
      rw [List.foldr_cons]
      cases hcs : back.foldr words.step ([], []) with
      | mk first others => simp [words.step, hback c rfl]
  have hall : (word ++ back).foldr words.step ([], []) = (word, words back) := by
    rw [List.foldr_append, hfold]
    clear hne hfold
    induction word with
    | nil => rfl
    | cons c word ih =>
      obtain ⟨hc, hword⟩ := List.forall_mem_cons.mp hword
      rw [List.foldr_cons, ih hword]
      simp [words.step, hc]
  rw [words, hall]
  simp [hne]

/-! ### Blanks and word characters -/

/-- The code points of the blanks but for those from U+2000 to U+205F. -/
def blankCodes : List Nat :=
  List.range' 9 5 ++ List.range' 28 5 ++ [0x85, 0xa0, 0x1680, 0x3000]

/-- A blank outside the one block is among those listed. -/
theorem mem_blankCodes {c : Char} (h : isBlank c = true)
    (hspace : ¬ (0x2000 ≤ c.toNat ∧ c.toNat ≤ 0x205f)) : c.toNat ∈ blankCodes := by
  unfold isBlank at h
  simp only [Bool.or_eq_true, Bool.and_eq_true, decide_eq_true_eq, beq_iff_eq] at h
  simp only [blankCodes, List.mem_append, List.mem_range'_1, List.mem_cons, List.not_mem_nil,
    or_false]
  omega

/-- Points that no bound sets apart lie in the same sets. -/
theorem inBounds_congr {p q : Nat} {bounds : List Nat} (h : ∀ b ∈ bounds, p < b ↔ q < b) :
    inBounds p bounds = inBounds q bounds := by
  induction bounds with
  | nil => rfl
  | cons b bounds ih =>
    obtain ⟨hb, hbounds⟩ := List.forall_mem_cons.mp h
    rw [inBounds, inBounds, ih hbounds]
    simp only [hb]

/-- A blank is no part of a word. -/
theorem isWord_of_isBlank {c : Char} (h : isBlank c = true) : isWord c = false := by
  have hcodes : ∀ n ∈ blankCodes, isWord (Char.ofNat n) = false := by decide +kernel
  -- no letter lies among the spaces of typography, so one of them tells for all
  have hapart : ∀ b ∈ wordBounds, 0x2000 < b → 0x205f < b := by decide +kernel
  have hlast : inBounds 0x205f wordBounds = false := by decide +kernel
  by_cases hspace : 0x2000 ≤ c.toNat ∧ c.toNat ≤ 0x205f
  · have hsame : ∀ b ∈ wordBounds, c.toNat < b ↔ 0x205f < b := by
      intro b hb
      have hb := hapart b hb
      omega
    unfold isWord
    rw [if_neg (by omega), inBounds_congr hsame, hlast]
  · rw [← Char.ofNat_toNat c]
    exact hcodes _ (mem_blankCodes h hspace)

/-- A part of a word is no blank. -/
theorem isBlank_of_isWord {c : Char} (h : isWord c = true) : isBlank c = false := by
  cases hblank : isBlank c with
  | false => rfl
  | true =>
    rw [isWord_of_isBlank hblank] at h
    cases h

end ProjectSurvey.Text
