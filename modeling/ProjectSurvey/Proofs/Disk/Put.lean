import ProjectSurvey.Proofs.Disk.Tree

/-!
# Putting an entry

What `Entry.put` changes and what it leaves. **At the location it puts the entry, beside the way
there it changes nothing** (`at?_put_self`, `at?_put_of_notPrefix`), and what lies on the way has
the same put below it (`at?_put_append`). A tree stays one (`IsTree.put`).
-/

namespace ProjectSurvey.Entry

/-- Putting an entry right into a directory sets its name among the entries. -/
theorem put_directory_singleton (es : List (String × Entry)) (b : ListRight) (g : Bool) (n : String)
    (new : Entry) : (directory es b g).put [n] new = directory (putName n new es) b g := by
  rw [put]

/-- Putting an entry deeper goes on in the child that the way leads through. -/
theorem put_directory_cons {es : List (String × Entry)} {n : String} {c : Entry}
    (hc : es.lookup n = some c) (b : ListRight) (g : Bool) {l : Location} (hl : l ≠ [])
    (new : Entry) :
    (directory es b g).put (n :: l) new = directory (putName n (c.put l new) es) b g := by
  obtain ⟨m, l, rfl⟩ := List.exists_cons_of_ne_nil hl
  simp [put, hc]

/-- Putting an entry below a name that is not there changes nothing. -/
theorem put_directory_missing {es : List (String × Entry)} {n : String}
    (hn : es.lookup n = none) (b : ListRight) (g : Bool) {l : Location} (hl : l ≠ [])
    (new : Entry) :
    (directory es b g).put (n :: l) new = directory es b g := by
  obtain ⟨m, l, rfl⟩ := List.exists_cons_of_ne_nil hl
  simp [put, hn]

/-- A directory's child after one name was set: the new entry there, the old ones elsewhere. -/
theorem child?_putName (n m : String) (e : Entry) (es : List (String × Entry)) (b : ListRight)
    (g : Bool) : (directory (putName n e es) b g).child? m =
      if m = n then some e else (directory es b g).child? m :=
  lookup_putName n m e es

/-! ### The entry itself -/

/-- An entry without what is in it. -/
def shell : Entry → Entry
  | directory _ b g => directory [] b g
  | e => e

/-- The shell of what is no directory is the whole of it. -/
theorem shell_of_not_isDirectory {e : Entry} (h : e.isDirectory = false) : e.shell = e := by
  cases e with
  | file _ _ => rfl
  | link _ _ => rfl
  | directory _ _ _ => cases h

/-- The shell of a directory is a directory, and no other is. -/
theorem isDirectory_shell (e : Entry) : e.shell.isDirectory = e.isDirectory := by
  cases e <;> rfl

/-- What has the shell of a directory is a directory with its rights. -/
theorem eq_directory_of_shell_eq {e : Entry} {es : List (String × Entry)} {b : ListRight} {g : Bool}
    (h : e.shell = (directory es b g).shell) : ∃ es', e = directory es' b g := by
  cases e with
  | file _ _ => cases h
  | link _ _ => cases h
  | directory es' _ _ =>
    cases h
    exact ⟨es', rfl⟩

/-- The shell of a directory keeps the right to be searched. -/
theorem isSearchable_shell (e : Entry) : e.shell.isSearchable = e.isSearchable := by
  cases e <;> rfl

/-- An entry that is put below another one changes what is in it and nothing else. -/
theorem shell_put (e : Entry) {m : Location} (hm : m ≠ []) (new : Entry) :
    (e.put m new).shell = e.shell := by
  obtain ⟨n, m, rfl⟩ := List.exists_cons_of_ne_nil hm
  cases e with
  | file _ _ => rfl
  | link _ _ => rfl
  | directory es b g =>
    by_cases hempty : m = []
    · subst hempty
      rw [put_directory_singleton]
      rfl
    · cases hc : es.lookup n with
      | none => rw [put_directory_missing hc b g hempty]
      | some c =>
        rw [put_directory_cons hc b g hempty]
        rfl

/-- An entry that is put below a directory leaves it the right to be searched. -/
theorem isSearchable_put (e : Entry) {m : Location} (hm : m ≠ []) (new : Entry) :
    (e.put m new).isSearchable = e.isSearchable := by
  rw [← isSearchable_shell, shell_put e hm, isSearchable_shell]

/-- A directory in which an entry is put stays one, and nothing else becomes one. -/
theorem isDirectory_put (e : Entry) {m : Location} (hm : m ≠ []) (new : Entry) :
    (e.put m new).isDirectory = e.isDirectory := by
  rw [← isDirectory_shell, shell_put e hm, isDirectory_shell]

/-! ### What is found afterwards -/

/-- On the way there an entry is put below what is there. -/
theorem at?_put_append (e : Entry) (l m : Location) (hm : m ≠ []) (new : Entry) :
    (e.put (l ++ m) new).at? l = (e.at? l).map fun x => x.put m new := by
  induction l generalizing e with
  | nil => rfl
  | cons n l ih =>
    rw [List.cons_append]
    cases e with
    | file _ _ => rfl
    | link _ _ => rfl
    | directory es b g =>
      have hlm : l ++ m ≠ [] := by simp [hm]
      cases h : es.lookup n with
      | none =>
        have hchild : (directory es b g).child? n = none := h
        rw [put_directory_missing h b g hlm, at?_cons, hchild]
        rfl
      | some c =>
        have hchild : (directory es b g).child? n = some c := h
        rw [put_directory_cons h b g hlm, at?_cons, at?_cons, child?_putName, if_pos rfl, hchild]
        exact ih c

/-- At the location itself there is the new entry. -/
theorem at?_put_self {e : Entry} {l : Location} {es : List (String × Entry)} {b : ListRight}
    {g : Bool} (h : e.at? l = some (directory es b g)) (n : String) (new : Entry) :
    (e.put (l ++ [n]) new).at? (l ++ [n]) = some new := by
  rw [at?_append, at?_put_append e l [n] (by simp), h, Option.map_some, put_directory_singleton,
    Option.bind_some, at?_cons, child?_putName, if_pos rfl]
  rfl

/-- What takes the place of an entry is there afterwards. -/
theorem at?_put_of_at? {e x : Entry} {l : Location} (h : e.at? l = some x) (new : Entry) :
    (e.put l new).at? l = some new := by
  rcases List.eq_nil_or_concat l with rfl | ⟨front, n, hl⟩
  · rw [put]
    rfl
  · rw [List.concat_eq_append] at hl
    subst hl
    obtain ⟨es, b, g, hdir⟩ := exists_directory_of_at? h
    exact at?_put_self hdir n new

/-- A way reaches what it reached, with an entry put below it. -/
theorem reach?_put_append (e : Entry) (l m : Location) (hm : m ≠ []) (new : Entry) :
    (e.put (l ++ m) new).reach? l = (e.reach? l).map fun x => x.put m new := by
  induction l generalizing e with
  | nil => rfl
  | cons n l ih =>
    have hlm : l ++ m ≠ [] := by simp [hm]
    rw [List.cons_append, reach?_cons, reach?_cons, isSearchable_put e (List.cons_ne_nil n _)]
    cases e with
    | file _ _ => rfl
    | link _ _ => rfl
    | directory es b g =>
      cases g with
      | false => rfl
      | true =>
        cases h : es.lookup n with
        | none =>
          have hchild : (directory es b true).child? n = none := h
          rw [put_directory_missing h b true hlm, hchild]
          rfl
        | some c =>
          have hchild : (directory es b true).child? n = some c := h
          rw [put_directory_cons h b true hlm, child?_putName, if_pos rfl, hchild]
          exact ih c

/-- In a directory that may be searched, the new entry is reached. -/
theorem reach?_put_self {e : Entry} {l : Location} {es : List (String × Entry)} {b : ListRight}
    (h : e.reach? l = some (directory es b true)) (n : String) (new : Entry) :
    (e.put (l ++ [n]) new).reach? (l ++ [n]) = some new := by
  have hl : (e.put (l ++ [n]) new).reach? l = some (directory (putName n new es) b true) := by
    rw [reach?_put_append e l [n] (List.cons_ne_nil n []), h, Option.map_some,
      put_directory_singleton]
  rw [reach?_concat hl, isSearchable_directory, if_pos rfl, child?_putName, if_pos rfl]

/-- Beside the way there nothing changes. -/
theorem at?_put_of_notPrefix (e : Entry) {l k : Location} (hbelow : ¬ l <+: k)
    (habove : ¬ k <+: l) (new : Entry) : (e.put l new).at? k = e.at? k := by
  induction l generalizing e k with
  | nil => exact absurd List.nil_prefix hbelow
  | cons n l ih =>
    cases k with
    | nil => exact absurd List.nil_prefix habove
    | cons j k =>
      cases e with
      | file _ _ => rfl
      | link _ _ => rfl
      | directory es b g =>
        rw [List.cons_prefix_cons] at hbelow habove
        by_cases hl : l = []
        · subst hl
          have hj : j ≠ n := fun heq => hbelow ⟨heq.symm, List.nil_prefix⟩
          rw [put_directory_singleton, at?_cons, at?_cons, child?_putName, if_neg hj]
        · cases h : es.lookup n with
          | none => rw [put_directory_missing h b g hl]
          | some c =>
            rw [put_directory_cons h b g hl, at?_cons, at?_cons, child?_putName]
            by_cases hj : j = n
            · subst hj
              have hchild : (directory es b g).child? j = some c := h
              rw [if_pos rfl, hchild]
              exact ih c (fun hp => hbelow ⟨rfl, hp⟩) (fun hp => habove ⟨rfl, hp⟩)
            · rw [if_neg hj]

/-- A way beside reaches what it reached. -/
theorem reach?_put_of_notPrefix (e : Entry) {l k : Location} (hbelow : ¬ l <+: k)
    (habove : ¬ k <+: l) (new : Entry) : (e.put l new).reach? k = e.reach? k := by
  induction l generalizing e k with
  | nil => exact absurd List.nil_prefix hbelow
  | cons n l ih =>
    cases k with
    | nil => exact absurd List.nil_prefix habove
    | cons j k =>
      rw [reach?_cons, reach?_cons, isSearchable_put e (List.cons_ne_nil n l)]
      cases e with
      | file _ _ => rfl
      | link _ _ => rfl
      | directory es b g =>
        rw [List.cons_prefix_cons] at hbelow habove
        by_cases hl : l = []
        · subst hl
          have hj : j ≠ n := fun heq => hbelow ⟨heq.symm, List.nil_prefix⟩
          rw [put_directory_singleton, child?_putName, if_neg hj]
        · cases h : es.lookup n with
          | none => rw [put_directory_missing h b g hl]
          | some c =>
            rw [put_directory_cons h b g hl, child?_putName]
            by_cases hj : j = n
            · subst hj
              have hchild : (directory es b g).child? j = some c := h
              rw [if_pos rfl, hchild, Option.bind_some, Option.bind_some,
                ih c (fun hp => hbelow ⟨rfl, hp⟩) fun hp => habove ⟨rfl, hp⟩]
            · rw [if_neg hj]

/-! ### Trees -/

/-- The entries after one name was set are that entry and old ones. -/
theorem mem_putName {n : String} {e : Entry} {es : List (String × Entry)} {p : String × Entry}
    (h : p ∈ putName n e es) : p = (n, e) ∨ p ∈ es := by
  induction es with
  | nil => exact .inl (List.mem_singleton.mp h)
  | cons q es ih =>
    obtain ⟨m, x⟩ := q
    rw [putName] at h
    by_cases hm : m = n
    · rw [if_pos hm, List.mem_cons] at h
      rcases h with rfl | h
      · exact .inl (by rw [hm])
      · exact .inr (List.mem_cons_of_mem _ h)
    · rw [if_neg hm, List.mem_cons] at h
      rcases h with rfl | h
      · exact .inr List.mem_cons_self
      · exact (ih h).imp_right (List.mem_cons_of_mem _)

/-- Setting a name keeps the order of the names and puts a new one last. -/
theorem map_fst_putName (n : String) (e : Entry) (es : List (String × Entry)) :
    (putName n e es).map Prod.fst =
      if n ∈ es.map Prod.fst then es.map Prod.fst else es.map Prod.fst ++ [n] := by
  induction es with
  | nil => rfl
  | cons q es ih =>
    obtain ⟨m, x⟩ := q
    rw [putName]
    by_cases hm : m = n
    · subst hm
      simp
    · rw [if_neg hm, List.map_cons, ih, List.map_cons]
      by_cases hn : n ∈ es.map Prod.fst
      · rw [if_pos hn, if_pos (List.mem_cons_of_mem _ hn)]
      · have hnone : n ∉ (m, x).1 :: es.map Prod.fst := by
          rw [List.mem_cons, not_or]
          exact ⟨fun heq => hm heq.symm, hn⟩
        rw [if_neg hn, if_neg hnone, List.cons_append]

/-- Setting a name brings no name in twice. -/
theorem nodup_putName {n : String} {e : Entry} {es : List (String × Entry)}
    (h : (es.map Prod.fst).Nodup) : ((putName n e es).map Prod.fst).Nodup := by
  rw [map_fst_putName]
  by_cases hn : n ∈ es.map Prod.fst
  · rwa [if_pos hn]
  · rw [if_neg hn, List.nodup_append]
    refine ⟨h, by simp, ?_⟩
    rintro a ha b hb rfl
    rw [List.mem_singleton] at hb
    exact hn (hb ▸ ha)

/-- What other names stand for stays. -/
theorem filter_putName (n : String) (e : Entry) (es : List (String × Entry)) :
    (putName n e es).filter (fun p => p.1 ≠ n) = es.filter fun p => p.1 ≠ n := by
  induction es with
  | nil => simp [putName]
  | cons q es ih =>
    obtain ⟨m, x⟩ := q
    rw [putName]
    by_cases hm : m = n
    · simp [hm]
    · rw [if_neg hm, List.filter_cons, List.filter_cons, ih]

/-- A directory stays a tree when a plain name of it is set to a tree. -/
theorem IsTree.putName {n : String} {e : Entry} {es : List (String × Entry)} {b : ListRight}
    {g : Bool} (h : (directory es b g).IsTree) (hn : Path.IsName n) (he : e.IsTree) :
    (directory (putName n e es) b g).IsTree := by
  obtain ⟨hnodup, hall⟩ := isTree_directory.mp h
  refine isTree_directory.mpr ⟨nodup_putName hnodup, ?_⟩
  intro p hp
  rcases mem_putName hp with rfl | hp
  · exact ⟨hn, he⟩
  · exact hall p hp

/-- A tree stays one. -/
theorem IsTree.put {e new : Entry} {l : Location} (h : e.IsTree) (hl : Path.AreNames l)
    (hnew : new.IsTree) : (e.put l new).IsTree := by
  induction l generalizing e with
  | nil =>
    cases e <;> exact hnew
  | cons n l ih =>
    obtain ⟨hn, hrest⟩ := Path.areNames_cons.mp hl
    cases e with
    | file _ _ => exact h
    | link _ _ => exact h
    | directory es b g =>
      by_cases hempty : l = []
      · subst hempty
        rw [put_directory_singleton]
        exact h.putName hn hnew
      · cases hc : es.lookup n with
        | none =>
          rw [put_directory_missing hc b g hempty]
          exact h
        | some c =>
          obtain ⟨-, htree⟩ := h.child (n := n) (c := c) hc
          rw [put_directory_cons hc b g hempty]
          exact h.putName hn (ih htree hrest)

/-! ### Taking the right to search away -/

/-- The entry without the right to search the directory at a location. -/
def shut : Entry → Location → Entry
  | directory es listing _, [] => directory es listing false
  | directory es listing searchable, n :: l =>
    match es.lookup n with
    | some c => directory (putName n (shut c l) es) listing searchable
    | none => directory es listing searchable
  | e, _ => e

section

variable {e x : Entry} {l m : Location}

/-- What is no directory has no such right. -/
theorem shut_eq_self (h : e.isDirectory = false) (l : Location) : e.shut l = e := by
  cases e with
  | file _ _ => cases l <;> rfl
  | link _ _ => cases l <;> rfl
  | directory _ _ _ => cases h

/-- A directory stays one. -/
theorem isDirectory_shut (e : Entry) (l : Location) : (e.shut l).isDirectory = e.isDirectory := by
  cases e with
  | file _ _ => rw [shut_eq_self rfl]
  | link _ _ => rw [shut_eq_self rfl]
  | directory es b g =>
    cases l with
    | nil => rfl
    | cons n l =>
      rw [shut]
      cases es.lookup n <;> rfl

/-- What is no directory comes from nothing else. -/
theorem shut_eq_iff (hx : x.isDirectory = false) : e.shut l = x ↔ e = x := by
  constructor
  · rintro rfl
    rw [isDirectory_shut] at hx
    exact (shut_eq_self hx l).symm
  · rintro rfl
    exact shut_eq_self hx l

/-- The directories around it keep the right. -/
theorem isSearchable_shut_cons (e : Entry) (n : String) (l : Location) :
    (e.shut (n :: l)).isSearchable = e.isSearchable := by
  cases e with
  | file _ _ => rfl
  | link _ _ => rfl
  | directory es b g =>
    rw [shut]
    cases es.lookup n <;> rfl

/-- The directories around it keep their rights. -/
theorem exists_shut_cons (es : List (String × Entry)) (b : ListRight) (g : Bool) (n : String)
    (l : Location) : ∃ es', (directory es b g).shut (n :: l) = directory es' b g := by
  rw [shut]
  cases es.lookup n with
  | none => exact ⟨_, rfl⟩
  | some c => exact ⟨_, rfl⟩

/-- The right to list a directory stays. -/
theorem mayList_shut_nil (e : Entry) (l : Location) : (e.shut l).mayList [] = e.mayList [] := by
  cases e with
  | file _ _ => rw [shut_eq_self rfl]
  | link _ _ => rw [shut_eq_self rfl]
  | directory es b g =>
    cases l with
    | nil => cases b <;> rfl
    | cons n l =>
      rw [shut]
      cases es.lookup n <;> cases b <;> rfl

/-- Shutting an entry itself leaves its children as they are. -/
theorem child?_shut_nil (e : Entry) (k : String) : (e.shut []).child? k = e.child? k := by
  cases e <;> rfl

/-- Shutting a location below an entry shuts it in the one child on the way. -/
theorem child?_shut_cons (e : Entry) (n : String) (l : Location) (k : String) :
    (e.shut (n :: l)).child? k =
      if k = n then (e.child? k).map fun c => c.shut l else e.child? k := by
  cases e with
  | file _ _ => simp [shut, child?, entries]
  | link _ _ => simp [shut, child?, entries]
  | directory es b g =>
    rw [shut]
    cases h : es.lookup n with
    | none =>
      by_cases hk : k = n
      · subst hk
        simp [child?, entries, h]
      · rw [if_neg hk]
    | some c =>
      dsimp only
      rw [child?_putName]
      by_cases hk : k = n
      · subst hk
        simp [child?, entries, h]
      · rw [if_neg hk, if_neg hk]

/-- What is found on the way is found without the right below it. -/
theorem at?_shut_append (e : Entry) (l m : Location) :
    (e.shut (l ++ m)).at? l = (e.at? l).map fun x => x.shut m := by
  induction l generalizing e with
  | nil => rfl
  | cons n l ih =>
    rw [List.cons_append, at?_cons, at?_cons, child?_shut_cons, if_pos rfl]
    cases e.child? n with
    | none => rfl
    | some c => exact ih c

/-- What is reached on the way is reached without the right below it. -/
theorem reach?_shut_append (e : Entry) (l m : Location) :
    (e.shut (l ++ m)).reach? l = (e.reach? l).map fun x => x.shut m := by
  induction l generalizing e with
  | nil => rfl
  | cons n l ih =>
    rw [List.cons_append, reach?_cons, reach?_cons, child?_shut_cons, if_pos rfl,
      isSearchable_shut_cons]
    cases e.isSearchable with
    | false => rfl
    | true =>
      cases e.child? n with
      | none => rfl
      | some c => exact ih c

/-- There is a directory at a location whether or not one may be searched. -/
theorem isDirectory_at?_shut (e : Entry) (l m : Location) :
    ((e.shut l).at? m).map isDirectory = (e.at? m).map isDirectory := by
  induction m generalizing e l with
  | nil => simp [at?, isDirectory_shut]
  | cons k m ih =>
    rw [at?_cons, at?_cons]
    cases l with
    | nil => rw [child?_shut_nil]
    | cons n l =>
      rw [child?_shut_cons]
      by_cases hk : k = n
      · rw [if_pos hk]
        cases e.child? k with
        | none => rfl
        | some c => exact ih c l
      · rw [if_neg hk]

/-- A location lies strictly below another when it starts with the same name and its rest lies
strictly below the other rest. -/
theorem below_cons_iff {n k : String} :
    (n :: l <+: k :: m ∧ k :: m ≠ n :: l) ↔ k = n ∧ l <+: m ∧ m ≠ l := by
  rw [List.cons_prefix_cons]
  constructor
  · rintro ⟨⟨rfl, hprefix⟩, hne⟩
    exact ⟨rfl, hprefix, fun heq => hne (by rw [heq])⟩
  · rintro ⟨rfl, hprefix, hne⟩
    exact ⟨⟨rfl, hprefix⟩, fun heq => hne (List.cons.inj heq).2⟩

/-- **What is no directory is reached as before, unless it lies below.** -/
theorem reach?_shut_iff (hx : x.isDirectory = false) :
    (e.shut l).reach? m = some x ↔ e.reach? m = some x ∧ ¬ (l <+: m ∧ m ≠ l) := by
  induction m generalizing e l with
  | nil =>
    have hbelow : ¬ (l <+: [] ∧ [] ≠ l) := fun h => h.2 (List.prefix_nil.mp h.1).symm
    simp only [reach?, Option.some.injEq, shut_eq_iff hx, hbelow, not_false_iff, and_true]
  | cons k m ih =>
    rw [reach?_cons, reach?_cons]
    cases l with
    | nil =>
      have hshut : (e.shut []).isSearchable = false := by cases e <;> rfl
      rw [hshut, if_neg Bool.false_ne_true]
      simp
    | cons n l =>
      rw [below_cons_iff, isSearchable_shut_cons, child?_shut_cons]
      cases e.isSearchable with
      | false => simp
      | true =>
        rw [if_pos rfl, if_pos rfl]
        by_cases hk : k = n
        · subst hk
          rw [if_pos rfl]
          cases e.child? k with
          | none => simp
          | some c => simpa using ih
        · simp [hk]

/-- **A directory can be listed as before, unless it lies below.** -/
theorem mayList_shut (e : Entry) (l m : Location) :
    (e.shut l).mayList m = (e.mayList m && decide (¬ (l <+: m ∧ m ≠ l))) := by
  induction m generalizing e l with
  | nil =>
    have hbelow : ¬ (l <+: [] ∧ [] ≠ l) := fun h => h.2 (List.prefix_nil.mp h.1).symm
    rw [mayList_shut_nil, decide_eq_true hbelow, Bool.and_true]
  | cons k m ih =>
    rw [mayList_cons, mayList_cons]
    cases l with
    | nil =>
      have hshut : (e.shut []).isSearchable = false := by cases e <;> rfl
      rw [hshut]
      simp
    | cons n l =>
      rw [isSearchable_shut_cons, child?_shut_cons]
      by_cases hk : k = n
      · subst hk
        rw [if_pos rfl]
        cases e.child? k with
        | none => simp
        | some c => simp [ih, Bool.and_assoc]
      · have hbelow : ¬ (n :: l <+: k :: m ∧ k :: m ≠ n :: l) :=
          fun h => hk (below_cons_iff.mp h).1
        rw [if_neg hk, decide_eq_true hbelow, Bool.and_true]

/-- A tree stays one. -/
theorem isTree_shut {e : Entry} (h : e.IsTree) (l : Location) : (e.shut l).IsTree := by
  induction l generalizing e with
  | nil => cases e <;> exact h
  | cons n l ih =>
    cases e with
    | file _ _ => exact h
    | link _ _ => exact h
    | directory es b g =>
      rw [shut]
      cases hc : es.lookup n with
      | none => exact h
      | some c =>
        obtain ⟨hn, htree⟩ := h.child (n := n) (c := c) hc
        exact h.putName hn (ih htree)

end

end ProjectSurvey.Entry
