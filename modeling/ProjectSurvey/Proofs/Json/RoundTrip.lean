import ProjectSurvey.Proofs.Json.Scalars

/-!
# Reading JSON that was written

**What `Json.indented` writes, `Json.parse` reads** (`parse_indented`): of values that hold no
doubles and no dates, no integer too long to be read, no key twice in a table and not too many
containers in one another (`IsWritable`). The proof follows a value and the text in front of
whatever stands behind it (`value_indented`).
-/

namespace ProjectSurvey.Json

mutual

/-- What may be written and is the same when it is read again. -/
def IsWritable : Datum → Prop
  | .list ds => AreWritable ds
  | .table kvs => (kvs.map Prod.fst).Nodup ∧ MembersAreWritable kvs
  | d => IsPlain d

/-- `IsWritable` of every item. -/
def AreWritable : List Datum → Prop
  | [] => True
  | d :: ds => IsWritable d ∧ AreWritable ds

/-- `IsWritable` of every value. -/
def MembersAreWritable : List (String × Datum) → Prop
  | [] => True
  | (_, d) :: kvs => IsWritable d ∧ MembersAreWritable kvs

end

/-- A list of data is writable when each of them is. -/
theorem areWritable_iff (ds : List Datum) : AreWritable ds ↔ ∀ d ∈ ds, IsWritable d := by
  induction ds with
  | nil => simp [AreWritable]
  | cons d ds ih => rw [AreWritable, ih, List.forall_mem_cons]

/-- The members of a table are writable when each value is. -/
theorem membersAreWritable_iff (kvs : List (String × Datum)) :
    MembersAreWritable kvs ↔ ∀ p ∈ kvs, IsWritable p.2 := by
  induction kvs with
  | nil => simp [MembersAreWritable]
  | cons p kvs ih =>
    obtain ⟨k, d⟩ := p
    rw [MembersAreWritable, ih, List.forall_mem_cons]

/-- A list is writable when its items are. -/
theorem isWritable_list {ds : List Datum} : IsWritable (.list ds) ↔ ∀ d ∈ ds, IsWritable d := by
  rw [IsWritable, areWritable_iff]

/-- A table is writable when its keys are distinct and its values writable. -/
theorem isWritable_table {kvs : List (String × Datum)} :
    IsWritable (.table kvs) ↔ (kvs.map Prod.fst).Nodup ∧ ∀ p ∈ kvs, IsWritable p.2 := by
  rw [IsWritable, membersAreWritable_iff]

/-- Plain data are writable. -/
theorem isWritable_of_isPlain {d : Datum} (h : IsPlain d) : IsWritable d := by
  cases d with
  | list _ => exact absurd h id
  | table _ => exact absurd h id
  | _ => exact h

/-- A list of texts is writable. -/
theorem isWritable_texts (ss : List String) : IsWritable (Datum.texts ss) := by
  rw [Datum.texts, isWritable_list]
  intro d hd
  obtain ⟨s, -, rfl⟩ := List.mem_map.mp hd
  trivial

/-! ### Depth -/

/-- Plain data have no depth. -/
theorem depth_of_isPlain {d : Datum} (h : IsPlain d) : d.depth = 0 := by
  cases d with
  | list _ => exact absurd h id
  | table _ => exact absurd h id
  | _ => rfl

/-- The items of a list are bounded in depth one by one. -/
theorem depthOf_le_iff (ds : List Datum) (n : Nat) :
    Datum.depthOf ds ≤ n ↔ ∀ d ∈ ds, d.depth ≤ n := by
  induction ds with
  | nil => simp [Datum.depthOf]
  | cons d ds ih => rw [Datum.depthOf, Nat.max_le, ih, List.forall_mem_cons]

/-- So are the members of a table. -/
theorem depthOfMembers_le_iff (kvs : List (String × Datum)) (n : Nat) :
    Datum.depthOfMembers kvs ≤ n ↔ ∀ p ∈ kvs, p.2.depth ≤ n := by
  induction kvs with
  | nil => simp [Datum.depthOfMembers]
  | cons p kvs ih =>
    obtain ⟨k, d⟩ := p
    rw [Datum.depthOfMembers, Nat.max_le, ih, List.forall_mem_cons]

/-- A list is one deeper than its items at most. -/
theorem depth_list_le_iff {ds : List Datum} {n : Nat} :
    (Datum.list ds).depth ≤ n + 1 ↔ ∀ d ∈ ds, d.depth ≤ n := by
  rw [Datum.depth, Nat.add_le_add_iff_right, depthOf_le_iff]

/-- A table is one deeper than its values at most. -/
theorem depth_table_le_iff {kvs : List (String × Datum)} {n : Nat} :
    (Datum.table kvs).depth ≤ n + 1 ↔ ∀ p ∈ kvs, p.2.depth ≤ n := by
  rw [Datum.depth, Nat.add_le_add_iff_right, depthOfMembers_le_iff]

/-- An item is less deep than its list. -/
theorem depth_lt_of_mem {d : Datum} {ds : List Datum} (h : d ∈ ds) :
    d.depth < (Datum.list ds).depth := by
  rw [Datum.depth]
  exact Nat.lt_succ_of_le ((depthOf_le_iff ds _).mp (Nat.le_refl _) d h)

/-- A list of texts is one deep at most. -/
theorem depth_texts_le (ss : List String) : (Datum.texts ss).depth ≤ 1 := by
  rw [Datum.texts, depth_list_le_iff]
  intro d hd
  obtain ⟨s, -, rfl⟩ := List.mem_map.mp hd
  exact Nat.le_refl 0

/-! ### The shape of the text -/

/-- White space ends at a character that is none. -/
theorem skipSpace_of_head {c : Char} (h : isSpace c = false) (cs : List Char) :
    skipSpace (c :: cs) = c :: cs := by
  rw [skipSpace, List.dropWhile_cons_of_neg (by simp [h])]

/-- The line break between items is white space. -/
theorem skipSpace_newline (level : Nat) (behind : List Char) :
    skipSpace (newline level behind) = skipSpace behind := by
  have hblanks : ∀ c ∈ List.replicate (2 * level) ' ', isSpace c = true := by
    intro c hc
    obtain ⟨-, rfl⟩ := List.mem_replicate.mp hc
    rfl
  rw [newline, skipSpace, List.dropWhile_cons_of_pos rfl, List.dropWhile_append_of_pos hblanks]
  rfl

/-- A comma may follow a scalar. -/
theorem follows_comma (rest : List Char) : Follows (',' :: rest) := by
  intro c hc
  exact .inl (Option.some_inj.mp hc).symm

/-- A line break may follow one. -/
theorem follows_newline (level : Nat) (behind : List Char) : Follows (newline level behind) := by
  intro c hc
  exact .inr (Option.some_inj.mp hc).symm

/-- What can be the first character of a value. -/
structure Begins (c : Char) : Prop where
  /-- It is not white space. -/
  noSpace : isSpace c = false
  /-- It ends no list. -/
  noBracket : c ≠ ']'
  /-- It ends no table. -/
  noBrace : c ≠ '}'

instance (c : Char) : Decidable (Begins c) :=
  decidable_of_iff (isSpace c = false ∧ c ≠ ']' ∧ c ≠ '}')
    ⟨fun ⟨h₁, h₂, h₃⟩ => ⟨h₁, h₂, h₃⟩, fun h => ⟨h.noSpace, h.noBracket, h.noBrace⟩⟩

/-- A digit may begin a value. -/
theorem begins_digit {c : Char} (h : Text.isAsciiDigit c = true) : Begins c := by
  rw [Text.isAsciiDigit_iff] at h
  have hne : ∀ d : Char, d.toNat < 48 ∨ 57 < d.toNat → c ≠ d := by
    rintro d hd rfl
    omega
  refine ⟨?_, hne _ (by decide), hne _ (by decide)⟩
  have hspace : ∀ d : Char, d.toNat < 48 ∨ 57 < d.toNat → (c == d) = false :=
    fun d hd => beq_eq_false_iff_ne.mpr (hne d hd)
  unfold isSpace
  simp [hspace ' ' (by decide), hspace '\t' (by decide), hspace '\n' (by decide),
    hspace '\r' (by decide)]

/-- A scalar begins as a value does, and not as a container does. -/
theorem exists_scalarText_eq_cons {d : Datum} (h : IsPlain d) :
    ∃ c cs, scalarText d = c :: cs ∧ Begins c ∧ c ≠ '[' ∧ c ≠ '\x7b' := by
  cases d with
  | null => exact ⟨'n', _, rfl, by decide, by decide, by decide⟩
  | bool b =>
    cases b with
    | false => exact ⟨'f', _, rfl, by decide, by decide, by decide⟩
    | true => exact ⟨'t', _, rfl, by decide, by decide, by decide⟩
  | int n =>
    obtain ⟨c, cs, hcs, hc⟩ := Text.exists_decimalInt_eq_cons n
    rcases hc with rfl | hc
    · exact ⟨'-', cs, hcs, by decide, by decide, by decide⟩
    · refine ⟨c, cs, hcs, begins_digit hc, ?_, ?_⟩ <;>
      · rintro rfl
        exact absurd hc (by decide)
  | text s => exact ⟨'"', _, rfl, by decide, by decide, by decide⟩
  | real x =>
    have hdigit : ∀ {c : Char}, Text.isAsciiDigit c = true → c ≠ '[' ∧ c ≠ '\x7b' := by
      intro c hc
      constructor <;>
      · rintro rfl
        exact absurd hc (by decide)
    rcases scalar_eq_real h with ⟨w, hw, hcs⟩ | ⟨c, cs, hcs, hc, -⟩ | ⟨c, cs, hcs, hc, -⟩
    · unfold wordValues at hw
      simp only [List.mem_cons, Prod.mk.injEq, List.not_mem_nil, or_false] at hw
      rcases hw with ⟨rfl, -⟩ | ⟨rfl, -⟩ | ⟨rfl, -⟩ | ⟨rfl, -⟩ | ⟨rfl, -⟩ | ⟨rfl, -⟩ <;>
        exact ⟨_, _, hcs, by decide, by decide, by decide⟩
    · exact ⟨c, cs, hcs, begins_digit hc, hdigit hc⟩
    · exact ⟨'-', _, hcs, by decide, by decide, by decide⟩
  | moment _ _ => exact absurd h id
  | list _ => exact absurd h id
  | table _ => exact absurd h id

/-- Plain data are written on one line. -/
theorem indented_of_isPlain {d : Datum} (h : IsPlain d) (level : Nat) (behind : List Char) :
    indented level d behind = scalarText d ++ behind := by
  cases d with
  | list _ => exact absurd h id
  | table _ => exact absurd h id
  | _ => rfl

/-- What is written of a value begins as a value does. -/
theorem exists_indented_eq_cons {d : Datum} (h : IsWritable d) (level : Nat)
    (behind : List Char) : ∃ c cs, indented level d behind = c :: cs ∧ Begins c := by
  have hscalar (hplain : IsPlain d) :
      ∃ c cs, indented level d behind = c :: cs ∧ Begins c := by
    obtain ⟨c, cs, hcs, hc, -, -⟩ := exists_scalarText_eq_cons hplain
    exact ⟨c, cs ++ behind, by rw [indented_of_isPlain hplain, hcs, List.cons_append], hc⟩
  cases d with
  | list ds => cases ds <;> exact ⟨'[', _, by rw [indented], by decide⟩
  | table kvs => cases kvs <;> exact ⟨'\x7b', _, by rw [indented], by decide⟩
  | _ => exact hscalar h

/-- What is written of items begins with the first one. -/
theorem exists_indentedItems_eq_cons {d : Datum} (h : IsWritable d) (ds : List Datum)
    (level : Nat) (behind : List Char) :
    ∃ c cs, indentedItems level (d :: ds) behind = c :: cs ∧ Begins c := by
  cases ds with
  | nil =>
    rw [indentedItems]
    exact exists_indented_eq_cons h level behind
  | cons e ds =>
    rw [indentedItems]
    exact exists_indented_eq_cons h level _

/-- What is written of members begins with the quote of the first key. -/
theorem exists_indentedMembers_eq_cons (p : String × Datum) (kvs : List (String × Datum))
    (level : Nat) (behind : List Char) :
    ∃ cs, indentedMembers level (p :: kvs) behind = '"' :: cs := by
  obtain ⟨k, d⟩ := p
  cases kvs <;> exact ⟨_, by rw [indentedMembers, string_append]⟩

/-- What stands behind a text is no longer than the whole. -/
theorem length_le_length_append (cs behind : List Char) :
    behind.length ≤ (cs ++ behind).length := by
  rw [List.length_append]
  exact Nat.le_add_left _ _

mutual

/-- A value is written in front of what stands behind it. -/
theorem length_indented (level : Nat) (d : Datum) (behind : List Char) :
    behind.length ≤ (indented level d behind).length :=
  match d with
  | .list [] => by rw [indented]; simp; omega
  | .list (d :: ds) => by
      have h := length_indentedItems (level + 1) (d :: ds) (newline level (']' :: behind))
      rw [indented]
      simp only [newline, List.length_cons, List.length_append] at h ⊢
      omega
  | .table [] => by rw [indented]; simp; omega
  | .table (p :: kvs) => by
      have h := length_indentedMembers (level + 1) (p :: kvs) (newline level ('\x7d' :: behind))
      rw [indented]
      simp only [newline, List.length_cons, List.length_append] at h ⊢
      omega
  | .null => length_le_length_append (scalarText .null) behind
  | .bool b => length_le_length_append (scalarText (.bool b)) behind
  | .int n => length_le_length_append (scalarText (.int n)) behind
  | .real x => length_le_length_append (scalarText (.real x)) behind
  | .text s => length_le_length_append (scalarText (.text s)) behind
  | .moment p l => length_le_length_append (scalarText (.moment p l)) behind

/-- Every item but the first has a comma in front of it. -/
theorem length_indentedItems (level : Nat) (ds : List Datum) (behind : List Char) :
    ds.length + behind.length ≤ (indentedItems level ds behind).length + 1 :=
  match ds with
  | [] => by rw [indentedItems]; simp
  | [d] => by
      have h := length_indented level d behind
      rw [indentedItems, List.length_singleton]
      omega
  | d :: e :: ds => by
      have hrest := length_indentedItems level (e :: ds) behind
      have h := length_indented level d
        (',' :: newline level (indentedItems level (e :: ds) behind))
      rw [indentedItems]
      simp only [newline, List.length_cons, List.length_append] at h hrest ⊢
      omega

/-- The written members leave the reader as many turns as it needs. -/
theorem length_indentedMembers (level : Nat) (kvs : List (String × Datum)) (behind : List Char) :
    kvs.length + behind.length ≤ (indentedMembers level kvs behind).length + 1 :=
  match kvs with
  | [] => by rw [indentedMembers]; simp
  | [(k, d)] => by
      have h := length_indented level d behind
      rw [indentedMembers]
      simp only [List.length_nil, List.length_cons, List.length_append]
      omega
  | (k, d) :: q :: kvs => by
      have hrest := length_indentedMembers level (q :: kvs) behind
      have h := length_indented level d
        (',' :: newline level (indentedMembers level (q :: kvs) behind))
      rw [indentedMembers]
      simp only [newline, List.length_cons, List.length_append] at h hrest ⊢
      omega

end

/-! ### Reading values -/

/-- A value that starts with no bracket is a scalar. -/
theorem value_of_head {c : Char} (hlist : c ≠ '[') (htable : c ≠ '\x7b') (depth : Nat)
    (cs : List Char) : value depth (c :: cs) = scalar (c :: cs) := by
  cases depth <;>
  · unfold value
    split <;> simp_all

/-- Plain data are read back in front of anything that may follow them. -/
theorem value_scalarText {d : Datum} (h : IsPlain d) (depth : Nat) {rest : List Char}
    (hrest : Follows rest) : value depth (scalarText d ++ rest) = .ok (d, rest) := by
  have hread := scalar_scalarText h hrest
  obtain ⟨c, cs, hcs, -, hlist, htable⟩ := exists_scalarText_eq_cons h
  rw [hcs, List.cons_append] at hread ⊢
  rw [value_of_head hlist htable, hread]

/-- A list with something in it is read item by item. -/
theorem list_of_begins (item : List Char → ReadResult Datum) {cs rest : List Char} {c : Char}
    (hcs : skipSpace cs = c :: rest) (hc : Begins c) : list item cs = items item [] cs cs := by
  unfold list
  rw [hcs]
  split
  · next heq => exact absurd (List.cons.inj heq).1 hc.noBracket
  · rfl

/-- A table with something in it is read member by member. -/
theorem table_of_begins (item : List Char → ReadResult Datum) {cs rest : List Char} {c : Char}
    (hcs : skipSpace cs = c :: rest) (hc : Begins c) : table item cs = members item [] cs cs := by
  unfold table
  rw [hcs]
  split
  · next heq => exact absurd (List.cons.inj heq).1 hc.noBrace
  · rfl

/-- With distinct keys the next one has not been met before. -/
theorem notMem_keys {acc kvs : List (String × Datum)} {k : String} {d : Datum}
    (h : ((acc ++ (k, d) :: kvs).map Prod.fst).Nodup) : k ∉ Assoc.keys acc := by
  rw [List.map_append, List.nodup_append] at h
  intro hmem
  exact h.2.2 k hmem k List.mem_cons_self rfl

/-- Whether a reader gives a value back from its text, whatever stands behind it. -/
def ReadsBack (item : List Char → ReadResult Datum) (level : Nat) (d : Datum) : Prop :=
  ∀ behind, Follows behind → item (indented level d behind) = .ok (d, behind)

/-- Written items are read as themselves if each is, given fuel for each. -/
theorem items_indentedItems {item : List Char → ReadResult Datum} {level : Nat} (outer : Nat)
    (d : Datum) (ds : List Datum) (h : ∀ x ∈ d :: ds, IsWritable x)
    (hread : ∀ x ∈ d :: ds, ReadsBack item level x) (acc : List Datum)
    {fuel cs behind : List Char}
    (hcs : skipSpace cs = indentedItems level (d :: ds) (newline outer (']' :: behind)))
    (hfuel : ds.length < fuel.length) :
    items item acc fuel cs = .ok (.list (acc.reverse ++ d :: ds), behind) := by
  induction ds generalizing d acc fuel cs with
  | nil =>
    obtain ⟨x, fuel, rfl⟩ := List.exists_cons_of_length_pos hfuel
    have hd := hread d List.mem_cons_self _ (follows_newline outer (']' :: behind))
    rw [indentedItems] at hcs
    rw [items, hcs, hd]
    dsimp only
    rw [skipSpace_newline, skipSpace_of_head rfl]
    simp
  | cons e ds ih =>
    obtain ⟨x, fuel, rfl⟩ := List.exists_cons_of_length_pos (Nat.zero_lt_of_lt hfuel)
    obtain ⟨-, hrest⟩ := List.forall_mem_cons.mp h
    obtain ⟨hd, hreadRest⟩ := List.forall_mem_cons.mp hread
    have hd := hd _ (follows_comma
      (newline level (indentedItems level (e :: ds) (newline outer (']' :: behind)))))
    obtain ⟨c, cs', hcs', hc⟩ := exists_indentedItems_eq_cons (hrest e List.mem_cons_self)
      ds level (newline outer (']' :: behind))
    have hskip : skipSpace (newline level
        (indentedItems level (e :: ds) (newline outer (']' :: behind)))) =
        indentedItems level (e :: ds) (newline outer (']' :: behind)) := by
      rw [skipSpace_newline, hcs', skipSpace_of_head hc.noSpace]
    have hnext := ih e hrest hreadRest (d :: acc) hskip (Nat.lt_of_succ_lt_succ hfuel)
    rw [indentedItems] at hcs
    rw [items, hcs, hd]
    dsimp only
    rw [skipSpace_of_head rfl]
    show items item (d :: acc) fuel _ = _
    rw [hnext]
    simp

/-- The blank behind a colon is skipped. -/
theorem skipSpace_blank {d : Datum} (h : IsWritable d) (level : Nat) (behind : List Char) :
    skipSpace (' ' :: indented level d behind) = indented level d behind := by
  obtain ⟨c, cs, hcs, hc⟩ := exists_indented_eq_cons h level behind
  rw [skipSpace, List.dropWhile_cons_of_pos rfl, hcs]
  exact skipSpace_of_head hc.noSpace _

/-- One member is read, and what stands behind it says how to go on. -/
theorem members_eq_of_member {item : List Char → ReadResult Datum} {level : Nat} {k : String}
    {d : Datum} (h : IsWritable d) (acc : List (String × Datum)) (x : Char)
    {fuel cs rest : List Char}
    (hcs : skipSpace cs = string k ++ ':' :: ' ' :: indented level d rest)
    (hd : item (indented level d rest) = .ok (d, rest)) :
    members item acc (x :: fuel) cs =
      match skipSpace rest with
      | ',' :: rest => members item (Assoc.insert k d acc) fuel rest
      | '\x7d' :: rest => .ok (.table (Assoc.insert k d acc), rest)
      | _ => .error .malformed := by
  have hblank := skipSpace_blank h level rest
  rw [string_append] at hcs
  have hcolon :
      skipSpace (':' :: ' ' :: indented level d rest) = ':' :: ' ' :: indented level d rest :=
    skipSpace_of_head rfl _
  generalize hresult : members item acc (x :: fuel) cs = result
  simp only [members, hcs, stringTail_string, hcolon, hblank, hd] at hresult
  exact hresult.symm

/-- Written members are read as themselves if each value is, given fuel for each. -/
theorem members_indentedMembers {item : List Char → ReadResult Datum} {level : Nat} (outer : Nat)
    (p : String × Datum) (kvs : List (String × Datum)) (h : ∀ x ∈ p :: kvs, IsWritable x.2)
    (hread : ∀ x ∈ p :: kvs, ReadsBack item level x.2) (acc : List (String × Datum))
    (hnodup : ((acc ++ p :: kvs).map Prod.fst).Nodup) {fuel cs behind : List Char}
    (hcs : skipSpace cs = indentedMembers level (p :: kvs) (newline outer ('\x7d' :: behind)))
    (hfuel : kvs.length < fuel.length) :
    members item acc fuel cs = .ok (.table (acc ++ p :: kvs), behind) := by
  induction kvs generalizing p acc fuel cs with
  | nil =>
    obtain ⟨k, d⟩ := p
    obtain ⟨x, fuel, rfl⟩ := List.exists_cons_of_length_pos hfuel
    have hd := hread (k, d) List.mem_cons_self _ (follows_newline outer ('\x7d' :: behind))
    rw [indentedMembers] at hcs
    rw [members_eq_of_member (h (k, d) List.mem_cons_self) acc x hcs hd, skipSpace_newline,
      skipSpace_of_head rfl]
    show Except.ok (Datum.table (Assoc.insert k d acc), behind) = _
    rw [Assoc.insert_of_notMem (notMem_keys hnodup)]
  | cons q kvs ih =>
    obtain ⟨k, d⟩ := p
    obtain ⟨x, fuel, rfl⟩ := List.exists_cons_of_length_pos (Nat.zero_lt_of_lt hfuel)
    obtain ⟨hwritable, hrest⟩ := List.forall_mem_cons.mp h
    obtain ⟨hd, hreadRest⟩ := List.forall_mem_cons.mp hread
    have hd := hd _ (follows_comma
      (newline level (indentedMembers level (q :: kvs) (newline outer ('\x7d' :: behind)))))
    obtain ⟨cs', hcs'⟩ := exists_indentedMembers_eq_cons q kvs level
      (newline outer ('\x7d' :: behind))
    have hskip : skipSpace (newline level
        (indentedMembers level (q :: kvs) (newline outer ('\x7d' :: behind)))) =
        indentedMembers level (q :: kvs) (newline outer ('\x7d' :: behind)) := by
      rw [skipSpace_newline, hcs', skipSpace_of_head rfl]
    have hnext := ih q hrest hreadRest (acc ++ [(k, d)]) (by simpa using hnodup) hskip
      (Nat.lt_of_succ_lt_succ hfuel)
    rw [indentedMembers] at hcs
    rw [members_eq_of_member hwritable acc x hcs hd, skipSpace_of_head rfl]
    show members item (Assoc.insert k d acc) fuel _ = _
    rw [Assoc.insert_of_notMem (notMem_keys hnodup), hnext]
    simp

/-- A list is read back if its items are. -/
theorem readsBack_list {depth level : Nat} {ds : List Datum} (hall : ∀ d ∈ ds, IsWritable d)
    (hread : ∀ d ∈ ds, ReadsBack (value depth) (level + 1) d) :
    ReadsBack (value (depth + 1)) level (.list ds) := by
  intro behind _
  cases ds with
  | nil =>
    rw [indented]
    rfl
  | cons d ds =>
    obtain ⟨c, cs, hcs, hc⟩ := exists_indentedItems_eq_cons (hall d List.mem_cons_self)
      ds (level + 1) (newline level (']' :: behind))
    have hskip : skipSpace (newline (level + 1)
        (indentedItems (level + 1) (d :: ds) (newline level (']' :: behind)))) =
        indentedItems (level + 1) (d :: ds) (newline level (']' :: behind)) := by
      rw [skipSpace_newline, hcs, skipSpace_of_head hc.noSpace]
    have hlength := length_indentedItems (level + 1) (d :: ds) (newline level (']' :: behind))
    rw [indented, value, list_of_begins _ (hskip.trans hcs) hc]
    refine items_indentedItems level d ds hall hread [] hskip ?_
    simp only [newline, List.length_cons, List.length_append] at hlength ⊢
    omega

/-- A table is read back if its members are. -/
theorem readsBack_table {depth level : Nat} {kvs : Assoc String Datum}
    (h : IsWritable (.table kvs)) (hread : ∀ p ∈ kvs, ReadsBack (value depth) (level + 1) p.2) :
    ReadsBack (value (depth + 1)) level (.table kvs) := by
  intro behind _
  cases kvs with
  | nil =>
    rw [indented]
    rfl
  | cons p kvs =>
    obtain ⟨hnodup, hall⟩ := isWritable_table.mp h
    obtain ⟨cs, hcs⟩ := exists_indentedMembers_eq_cons p kvs (level + 1)
      (newline level ('\x7d' :: behind))
    have hskip : skipSpace (newline (level + 1)
        (indentedMembers (level + 1) (p :: kvs) (newline level ('\x7d' :: behind)))) =
        indentedMembers (level + 1) (p :: kvs) (newline level ('\x7d' :: behind)) := by
      rw [skipSpace_newline, hcs, skipSpace_of_head rfl]
    have hlength := length_indentedMembers (level + 1) (p :: kvs)
      (newline level ('\x7d' :: behind))
    rw [indented, value, table_of_begins _ (hskip.trans hcs) (by decide)]
    refine members_indentedMembers level p kvs hall hread [] hnodup hskip ?_
    simp only [newline, List.length_cons, List.length_append] at hlength ⊢
    omega

/-- **A written value is read as itself**, whatever stands behind it. -/
theorem value_indented {depth : Nat} {d : Datum} (h : IsWritable d) (hdepth : d.depth ≤ depth)
    (level : Nat) : ReadsBack (value depth) level d := by
  induction depth generalizing d level with
  | zero =>
    intro behind hbehind
    cases d with
    | list _ => cases hdepth
    | table _ => cases hdepth
    | null => exact value_scalarText (d := .null) h 0 hbehind
    | bool b => exact value_scalarText (d := .bool b) h 0 hbehind
    | int n => exact value_scalarText (d := .int n) h 0 hbehind
    | text s => exact value_scalarText (d := .text s) h 0 hbehind
    | real x => exact value_scalarText (d := .real x) h 0 hbehind
    | moment _ _ => exact absurd h id
  | succ depth ih =>
    cases d with
    | list ds =>
      have hall := isWritable_list.mp h
      have hdeep := depth_list_le_iff.mp hdepth
      exact readsBack_list hall fun x hx => ih (hall x hx) (hdeep x hx) (level + 1)
    | table kvs =>
      have hall := (isWritable_table.mp h).2
      have hdeep := depth_table_le_iff.mp hdepth
      exact readsBack_table h fun p hp => ih (hall p hp) (hdeep p hp) (level + 1)
    | null => exact fun _ hbehind => value_scalarText (d := .null) h _ hbehind
    | bool b => exact fun _ hbehind => value_scalarText (d := .bool b) h _ hbehind
    | int n => exact fun _ hbehind => value_scalarText (d := .int n) h _ hbehind
    | text s => exact fun _ hbehind => value_scalarText (d := .text s) h _ hbehind
    | real x => exact fun _ hbehind => value_scalarText (d := .real x) h _ hbehind
    | moment _ _ => exact absurd h id

/-- What is written at the top level is parsed as the value. -/
theorem parse_indented {d : Datum} (h : IsWritable d) (hdepth : d.depth ≤ nestingLimit) :
    parse (indented 0 d []) = .ok d := by
  have hread := value_indented h hdepth 0 [] (by intro c hc; cases hc)
  obtain ⟨c, cs, hcs, hc⟩ := exists_indented_eq_cons h 0 []
  have hskip : skipSpace (indented 0 d []) = indented 0 d [] := by
    rw [hcs, skipSpace_of_head hc.noSpace]
  unfold parse
  rw [hskip, hread]
  rfl

end ProjectSurvey.Json
