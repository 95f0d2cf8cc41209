import ProjectSurvey.Proofs.Paths

/-!
# Entries by location

A disk is a tree if its names are names and no directory holds one twice (`Entry.IsTree`). **In a
tree, what a directory holds and what is found by name are the same** (`lookup_eq_some_iff`), and
the locations at which something is are lists of names (`IsTree.areNames_of_at?`).

What a way reaches is there (`at?_of_reach?`), and what is there is reached if every directory in
front may be searched (`reach?_eq_at?`).

`Entry.deny` takes away the right to list one directory. A way along a path never lists one, so
reading does not notice: `forget` drops the rights to list, and whatever is read is read alike where
two disks agree up to these (`readOctets_forget`).
-/

namespace ProjectSurvey.Entry

/-! ### Trees -/

mutual

/-- Whether all names below are names that a directory can hold, each once in its directory. -/
def IsTree : Entry → Prop
  | file .. => True
  | link .. => True
  | directory es _ _ => (es.map Prod.fst).Nodup ∧ AreTrees es

/-- Whether some entries are trees and their names are names. -/
def AreTrees : List (String × Entry) → Prop
  | [] => True
  | (n, e) :: es => (Path.IsName n ∧ IsTree e) ∧ AreTrees es

end

/-- The entries of a directory are trees under plain names, each of them. -/
theorem areTrees_iff (es : List (String × Entry)) :
    AreTrees es ↔ ∀ p ∈ es, Path.IsName p.1 ∧ IsTree p.2 := by
  induction es with
  | nil => simp [AreTrees]
  | cons p es ih =>
    obtain ⟨n, e⟩ := p
    rw [AreTrees, ih, List.forall_mem_cons]

/-- A directory is a tree when its names are plain and distinct and its children are trees. -/
theorem isTree_directory {es : List (String × Entry)} {listing : ListRight} {searchable : Bool} :
    IsTree (directory es listing searchable) ↔
      (es.map Prod.fst).Nodup ∧ ∀ p ∈ es, Path.IsName p.1 ∧ IsTree p.2 := by
  rw [IsTree, areTrees_iff]

/-- A directory with a single child is a tree when the child is one under a plain name. -/
theorem isTree_singleton {n : String} {e : Entry} {listing : ListRight} {searchable : Bool}
    (hn : Path.IsName n) (h : e.IsTree) : (directory [(n, e)] listing searchable).IsTree := by
  refine isTree_directory.mpr ⟨by simp, ?_⟩
  intro p hp
  rw [List.mem_singleton] at hp
  subst hp
  exact ⟨hn, h⟩

/-- Where no name comes twice, a name stands for what is beside it. -/
theorem lookup_eq_some_iff {α : Type} {es : List (String × α)} (h : (es.map Prod.fst).Nodup)
    {n : String} {e : α} : es.lookup n = some e ↔ (n, e) ∈ es := by
  induction es with
  | nil => simp
  | cons p es ih =>
    obtain ⟨m, x⟩ := p
    rw [List.map_cons, List.nodup_cons] at h
    obtain ⟨hnew, hrest⟩ := h
    rw [List.lookup_cons, List.mem_cons, Prod.mk.injEq]
    by_cases hm : n = m
    · subst hm
      have habsent : (n, e) ∉ es := by
        intro hmem
        have hkey : (n, e).1 ∈ es.map Prod.fst := List.mem_map_of_mem hmem
        exact hnew hkey
      simp [habsent, eq_comm]
    · have hne : (n == m) = false := by simpa using hm
      rw [hne, ih hrest]
      simp [hm]

/-- An entry that is found by its name is among the entries. -/
theorem mem_of_lookup {α : Type} {es : List (String × α)} {n : String} {e : α}
    (h : es.lookup n = some e) : (n, e) ∈ es := by
  induction es with
  | nil => cases h
  | cons p es ih =>
    obtain ⟨m, x⟩ := p
    rw [List.lookup_cons] at h
    by_cases hm : n = m
    · subst hm
      simp_all
    · have hne : (n == m) = false := by simpa using hm
      rw [hne] at h
      exact List.mem_cons_of_mem _ (ih h)

/-- A longer location is looked up through the child it starts with. -/
theorem at?_cons (e : Entry) (n : String) (l : Location) :
    e.at? (n :: l) = (e.child? n).bind (at? · l) := by
  rw [at?]
  cases e.child? n <;> rfl

/-- Looking up a location in two parts is looking up the second where the first ends. -/
theorem at?_append (e : Entry) (l m : Location) :
    e.at? (l ++ m) = (e.at? l).bind (at? · m) := by
  induction l generalizing e with
  | nil => rfl
  | cons n l ih =>
    rw [List.cons_append, at?_cons, at?_cons]
    cases e.child? n with
    | none => rfl
    | some c => exact ih c

/-- The children of a tree are trees under plain names. -/
theorem IsTree.child {e c : Entry} {n : String} (h : e.IsTree) (hc : e.child? n = some c) :
    Path.IsName n ∧ c.IsTree := by
  cases e with
  | file _ _ => cases hc
  | link _ _ => cases hc
  | directory es _ _ => exact (isTree_directory.mp h).2 (n, c) (mem_of_lookup hc)

/-- What is at a location of a tree is a tree, and the location is made of names. -/
theorem IsTree.areNames_of_at? {e x : Entry} {l : Location} (h : e.IsTree)
    (hx : e.at? l = some x) : Path.AreNames l ∧ x.IsTree := by
  induction l generalizing e with
  | nil =>
    cases hx
    exact ⟨Path.areNames_nil, h⟩
  | cons n l ih =>
    rw [at?_cons, Option.bind_eq_some_iff] at hx
    obtain ⟨c, hc, hx⟩ := hx
    obtain ⟨hn, htree⟩ := h.child hc
    obtain ⟨hl, hx⟩ := ih htree hx
    exact ⟨Path.areNames_cons.mpr ⟨hn, hl⟩, hx⟩

/-- In front of an entry there is a directory. -/
theorem exists_directory_of_at? {e x : Entry} {front back : Location} {n : String}
    (h : e.at? (front ++ n :: back) = some x) :
    ∃ es b g, e.at? front = some (directory es b g) := by
  obtain ⟨d, hd, h⟩ := Option.bind_eq_some_iff.mp ((at?_append e front (n :: back)).symm.trans h)
  cases d with
  | file _ _ => cases h
  | link _ _ => cases h
  | directory es b g => exact ⟨es, b, g, hd⟩

/-! ### What a way reaches -/

/-- A directory may be searched if it is marked so. -/
@[simp] theorem isSearchable_directory (es : List (String × Entry)) (b : ListRight) (g : Bool) :
    (directory es b g).isSearchable = g := rfl

/-- A way goes on from a name only in a directory that may be searched. -/
theorem reach?_cons (e : Entry) (n : String) (l : Location) :
    e.reach? (n :: l) = if e.isSearchable then (e.child? n).bind (reach? · l) else none := by
  rw [reach?]
  cases e.isSearchable with
  | false => rfl
  | true => cases e.child? n <;> rfl

/-- A way that goes on from a name found it in a directory that may be searched. -/
theorem exists_of_reach?_cons {e x : Entry} {n : String} {l : Location}
    (h : e.reach? (n :: l) = some x) :
    ∃ es b c, e = directory es b true ∧ es.lookup n = some c ∧ c.reach? l = some x := by
  rw [reach?_cons] at h
  split at h
  · next hsearch =>
    obtain ⟨c, hc, hx⟩ := Option.bind_eq_some_iff.mp h
    cases e with
    | file _ _ => cases hsearch
    | link _ _ => cases hsearch
    | directory es b g =>
      cases hsearch
      exact ⟨es, b, c, rfl, hc, hx⟩
  · cases h

/-- A way to a location goes on from what it reaches on the way. -/
theorem reach?_append (e : Entry) (l m : Location) :
    e.reach? (l ++ m) = (e.reach? l).bind (reach? · m) := by
  induction l generalizing e with
  | nil => rfl
  | cons n l ih =>
    rw [List.cons_append, reach?_cons, reach?_cons]
    cases e.isSearchable with
    | false => rfl
    | true =>
      cases e.child? n with
      | none => rfl
      | some c => exact ih c

/-- What a way reaches is there. -/
theorem at?_of_reach? {e x : Entry} {l : Location} (h : e.reach? l = some x) :
    e.at? l = some x := by
  induction l generalizing e with
  | nil => exact h
  | cons n l ih =>
    rw [reach?_cons] at h
    rw [at?_cons]
    split at h
    · obtain ⟨c, hc, h⟩ := Option.bind_eq_some_iff.mp h
      rw [hc]
      exact ih h
    · cases h

/-- What is in a directory that a way reaches is reached if the directory may be searched. -/
theorem reach?_concat {e d : Entry} {l : Location} (h : e.reach? l = some d) (n : String) :
    e.reach? (l ++ [n]) = if d.isSearchable then d.child? n else none := by
  rw [reach?_append, h, Option.bind_some, reach?_cons]
  cases d.isSearchable with
  | false => rfl
  | true => cases d.child? n <;> rfl

/-- Where every directory in front may be searched, whatever is there is reached. -/
theorem reach?_eq_at? {e : Entry} {l : Location}
    (h : ∀ front n back, l = front ++ n :: back →
      ∀ d, e.at? front = some d → d.isSearchable = true) :
    e.reach? l = e.at? l := by
  induction l generalizing e with
  | nil => rfl
  | cons n l ih =>
    rw [reach?_cons, at?_cons, if_pos (h [] n l rfl e rfl)]
    cases hc : e.child? n with
    | none => rfl
    | some c =>
      refine ih fun front m back hl d hd => h (n :: front) m back (by rw [hl]; rfl) d ?_
      rw [at?_cons, hc]
      exact hd

/-- What is reached is there, behind directories that may be searched. -/
theorem reach?_eq_some_iff {e x : Entry} {l : Location} :
    e.reach? l = some x ↔ e.at? l = some x ∧ ∀ front n back, l = front ++ n :: back →
      ∃ es b, e.at? front = some (directory es b true) := by
  constructor
  · intro h
    refine ⟨at?_of_reach? h, ?_⟩
    rintro front n back rfl
    rw [reach?_append, Option.bind_eq_some_iff] at h
    obtain ⟨d, hd, h⟩ := h
    obtain ⟨es, b, -, rfl, -⟩ := exists_of_reach?_cons h
    exact ⟨es, b, at?_of_reach? hd⟩
  · rintro ⟨hx, hdirs⟩
    rw [← hx]
    refine reach?_eq_at? fun front n back hl d hd => ?_
    obtain ⟨es, b, hdir⟩ := hdirs front n back hl
    cases hd.symm.trans hdir
    rfl

/-! ### The right to list -/

mutual

/-- The entry with the right to list every directory. -/
def forget : Entry → Entry
  | file octets m => file octets m
  | link target m => link target m
  | directory es _ searchable => directory (forgetAll es) .granted searchable

/-- The entries with the right to list every directory. -/
def forgetAll : List (String × Entry) → List (String × Entry)
  | [] => []
  | (n, e) :: es => (n, forget e) :: forgetAll es

end

/-- Forgetting the rights of a list of entries forgets those of each. -/
theorem forgetAll_eq_map (es : List (String × Entry)) :
    forgetAll es = es.map fun p => (p.1, forget p.2) := by
  induction es with
  | nil => rfl
  | cons p es ih =>
    obtain ⟨n, e⟩ := p
    rw [forgetAll, ih, List.map_cons]

/-- Looking a name up commutes with forgetting the rights. -/
theorem lookup_forgetAll (es : List (String × Entry)) (n : String) :
    (forgetAll es).lookup n = (es.lookup n).map forget := by
  induction es with
  | nil => rfl
  | cons p es ih =>
    obtain ⟨m, e⟩ := p
    rw [forgetAll, List.lookup_cons, List.lookup_cons, ih]
    cases n == m <;> rfl

/-- A child of an entry without rights is the child without rights. -/
theorem child?_forget (e : Entry) (n : String) : e.forget.child? n = (e.child? n).map forget := by
  cases e with
  | file _ _ => rfl
  | link _ _ => rfl
  | directory es _ _ => exact lookup_forgetAll es n

/-- So is the entry at any location. -/
theorem at?_forget (e : Entry) (l : Location) : e.forget.at? l = (e.at? l).map forget := by
  induction l generalizing e with
  | nil => rfl
  | cons n l ih =>
    rw [at?_cons, at?_cons, child?_forget]
    cases e.child? n with
    | none => rfl
    | some c => exact ih c

/-- Reaching a location takes no right to list. -/
theorem reach?_forget (e : Entry) (l : Location) : e.forget.reach? l = (e.reach? l).map forget := by
  induction l generalizing e with
  | nil => rfl
  | cons n l ih =>
    have hsearch : e.forget.isSearchable = e.isSearchable := by cases e <;> rfl
    rw [reach?_cons, reach?_cons, child?_forget, hsearch]
    cases e.isSearchable with
    | false => rfl
    | true =>
      cases e.child? n with
      | none => rfl
      | some c => exact ih c

/-- Whether an entry is a directory does not depend on the rights. -/
theorem isDirectory_forget (e : Entry) : e.forget.isDirectory = e.isDirectory := by
  cases e <;> rfl

/-- An entry that is no directory has no rights to forget. -/
theorem forget_eq_self {e : Entry} (h : e.isDirectory = false) : e.forget = e := by
  cases e with
  | file _ _ => rfl
  | link _ _ => rfl
  | directory _ _ _ => cases h

/-- Where a way comes to, with the right to list every directory. -/
def Way.forget : Way → Way
  | .found l e => .found l e.forget
  | .link l target rest => .link l target rest
  | .lost f => .lost f

/-- A way lists no directory. -/
theorem way_forget (disk : Entry) (last : Bool) (l : Location) (e : Entry) (names : List String) :
    way disk.forget last l e.forget names = (way disk last l e names).forget := by
  induction names generalizing l e with
  | nil => rfl
  | cons n names ih =>
    cases e with
    | file _ _ => rfl
    | link _ _ => rfl
    | directory es b g =>
      rw [Entry.forget, way, way]
      split
      · rfl
      split
      · rw [at?_forget, ← ih]
        cases disk.at? l.dropLast <;> rfl
      · rw [lookup_forgetAll]
        cases es.lookup n with
        | none => rfl
        | some c =>
          cases c with
          | file _ _ => exact ih (l.child n) _
          | directory _ _ _ => exact ih (l.child n) _
          | link t m =>
            rw [Option.map_some, Entry.forget]
            dsimp only
            split <;> rfl

/-- Following a path reads no right to list, so it leads to the same place without them. -/
theorem follow_forget (disk : Entry) (last : Bool) (links : Nat) (l : Location)
    (names : List String) :
    follow disk.forget last links l names =
      (follow disk last links l names).map fun p => (p.1, p.2.forget) := by
  induction links generalizing l names with
  | zero =>
    rw [follow, follow, at?_forget, show ((disk.at? l).map forget).getD disk.forget =
      ((disk.at? l).getD disk).forget by cases disk.at? l <;> rfl, way_forget]
    cases way disk last l ((disk.at? l).getD disk) names <;> rfl
  | succ links ih =>
    rw [follow, follow, at?_forget, show ((disk.at? l).map forget).getD disk.forget =
      ((disk.at? l).getD disk).forget by cases disk.at? l <;> rfl, way_forget]
    cases way disk last l ((disk.at? l).getD disk) names with
    | found l e => rfl
    | lost f => rfl
    | link l target rest => exact ih _ _

/-- A path leads to the same entry whether or not the rights to list are known. -/
theorem locate_forget (disk : Entry) (last : Bool) (path : String) :
    disk.forget.locate last path = (disk.locate last path).map fun p => (p.1, p.2.forget) := by
  unfold locate
  cases checkPath path with
  | error f => rfl
  | ok u => exact follow_forget disk last linkLimit [] _

/-- The octets read from a path do not depend on the rights to list. -/
theorem readOctets_forget (disk : Entry) (path : String) :
    disk.forget.readOctets path = disk.readOctets path := by
  unfold readOctets
  rw [locate_forget]
  cases disk.locate true path with
  | error f => rfl
  | ok p =>
    obtain ⟨l, e⟩ := p
    cases e <;> rfl

mutual

/-- Being a tree does not depend on the rights to list. -/
theorem isTree_forget (e : Entry) : e.forget.IsTree ↔ e.IsTree :=
  match e with
  | file _ _ => Iff.rfl
  | link _ _ => Iff.rfl
  | directory es _ _ => by
      have hkeys : (forgetAll es).map Prod.fst = es.map Prod.fst := by
        rw [forgetAll_eq_map, List.map_map]
        rfl
      rw [forget, IsTree, IsTree, hkeys, areTrees_forgetAll es]

/-- Being trees does not depend on the rights to list. -/
theorem areTrees_forgetAll (es : List (String × Entry)) : AreTrees (forgetAll es) ↔ AreTrees es :=
  match es with
  | [] => Iff.rfl
  | (n, e) :: es => by
      rw [forgetAll, AreTrees, AreTrees, isTree_forget e, areTrees_forgetAll es]

end

/-! ### Taking the right away -/

/-- The entry without the right to list the directory at a location. -/
def deny : Entry → Location → Entry
  | directory es _ searchable, [] => directory es .denied searchable
  | directory es listing searchable, n :: l =>
    match es.lookup n with
    | some c => directory (putName n (deny c l) es) listing searchable
    | none => directory es listing searchable
  | e, _ => e

/-- Whether a way reaches a directory at a location that can be listed. -/
def mayList (e : Entry) (l : Location) : Bool :=
  match e.reach? l with
  | some (directory _ .granted _) => true
  | _ => false

/-- A deeper directory may be listed when it can be reached and may be listed there. -/
theorem mayList_cons (e : Entry) (n : String) (l : Location) :
    e.mayList (n :: l) =
      (e.isSearchable && ((e.child? n).map fun c => c.mayList l).getD false) := by
  unfold mayList
  rw [reach?_cons]
  cases e.isSearchable with
  | false => rfl
  | true => cases e.child? n <;> rfl

/-- A list of entries forgets the change of a child that differs in its rights only. -/
theorem forgetAll_putName {es : List (String × Entry)} {n : String} {c x : Entry}
    (hc : es.lookup n = some c) (hx : x.forget = c.forget) :
    forgetAll (putName n x es) = forgetAll es := by
  induction es with
  | nil => cases hc
  | cons p es ih =>
    obtain ⟨m, e⟩ := p
    rw [putName]
    rw [List.lookup_cons] at hc
    by_cases hm : m = n
    · subst hm
      rw [beq_self_eq_true] at hc
      cases hc
      rw [if_pos rfl, forgetAll, forgetAll, hx]
    · have hne : (n == m) = false := by simpa using Ne.symm hm
      rw [hne] at hc
      rw [if_neg hm, forgetAll, forgetAll, ih hc]

/-- Denying the right to list a location is forgotten with the rights. -/
theorem forget_deny (e : Entry) (l : Location) : (e.deny l).forget = e.forget := by
  induction l generalizing e with
  | nil => cases e <;> rfl
  | cons n l ih =>
    cases e with
    | file _ _ => rfl
    | link _ _ => rfl
    | directory es b g =>
      rw [deny]
      cases h : es.lookup n with
      | none => rfl
      | some c => rw [forget, forget, forgetAll_putName h (ih c)]

/-- Taking the right away from one directory leaves it to all others. -/
theorem mayList_deny (e : Entry) (l m : Location) :
    (e.deny l).mayList m = (e.mayList m && decide (m ≠ l)) := by
  induction l generalizing e m with
  | nil =>
    cases e with
    | file _ _ => cases m <;> rfl
    | link _ _ => cases m <;> rfl
    | directory es b g =>
      cases m with
      | nil => simp [deny, mayList, reach?]
      | cons k m =>
        rw [deny, mayList_cons, mayList_cons]
        simp [child?, entries]
  | cons n l ih =>
    cases e with
    | file _ _ => cases m <;> rfl
    | link _ _ => cases m <;> rfl
    | directory es b g =>
      rw [deny]
      cases h : es.lookup n with
      | none =>
        by_cases hm : m = n :: l
        · subst hm
          simp [mayList_cons, child?, entries, h]
        · simp [hm]
      | some c =>
        cases m with
        | nil => cases b <;> simp [mayList, reach?]
        | cons k m =>
          rw [mayList_cons, mayList_cons]
          simp only [child?, entries, lookup_putName]
          by_cases hk : k = n
          · subst hk
            simp [h, ih, Bool.and_assoc]
          · simp [hk]

/-- Denying a location below another one denies the rest of it there. -/
theorem at?_deny_append (e : Entry) (l m : Location) :
    (e.deny (l ++ m)).at? l = (e.at? l).map fun x => x.deny m := by
  induction l generalizing e with
  | nil => rfl
  | cons n l ih =>
    rw [List.cons_append, at?_cons, at?_cons]
    cases e with
    | file _ _ => rfl
    | link _ _ => rfl
    | directory es b g =>
      rw [deny]
      cases h : es.lookup n with
      | none => simp [child?, entries, h]
      | some c =>
        have hput : (directory (putName n (c.deny (l ++ m)) es) b g).child? n =
            some (c.deny (l ++ m)) := by
          simp [child?, entries, lookup_putName]
        rw [hput, show (directory es b g).child? n = some c from h]
        exact ih c

/-- There is a directory at a location whether or not it may be listed. -/
theorem isDirectory_at?_deny (e : Entry) (l m : Location) :
    ((e.deny l).at? m).map isDirectory = (e.at? m).map isDirectory := by
  have h := congrArg (fun x : Entry => (x.at? m).map isDirectory) (forget_deny e l)
  simpa [at?_forget, isDirectory_forget, Function.comp_def] using h

/-- What a way reaches does not depend on what may be listed. -/
theorem isSome_reach?_deny (e : Entry) (l m : Location) :
    ((e.deny l).reach? m).isSome = (e.reach? m).isSome := by
  have h := congrArg (fun x : Entry => (x.reach? m).isSome) (forget_deny e l)
  simpa [reach?_forget] using h

/-- The directories around it keep their rights. -/
theorem exists_deny_cons (es : List (String × Entry)) (b : ListRight) (g : Bool) (n : String)
    (l : Location) : ∃ es', (directory es b g).deny (n :: l) = directory es' b g := by
  rw [deny]
  cases es.lookup n with
  | none => exact ⟨_, rfl⟩
  | some c => exact ⟨_, rfl⟩

/-- What is no directory is reached as before. -/
theorem reach?_deny_iff (e : Entry) (l m : Location) {x : Entry} (hx : x.isDirectory = false) :
    (e.deny l).reach? m = some x ↔ e.reach? m = some x := by
  have hiff : ∀ e : Entry, e.reach? m = some x ↔ (e.forget.reach? m) = some x := by
    intro e
    rw [reach?_forget, Option.map_eq_some_iff]
    constructor
    · intro h
      exact ⟨x, h, forget_eq_self hx⟩
    · rintro ⟨y, hy, rfl⟩
      rw [isDirectory_forget] at hx
      rw [hy, forget_eq_self hx]
  rw [hiff, forget_deny, ← hiff]

/-- Denying a right keeps a tree a tree. -/
theorem isTree_deny {e : Entry} (h : e.IsTree) (l : Location) : (e.deny l).IsTree := by
  rw [← isTree_forget, forget_deny, isTree_forget]
  exact h

/-- Nothing is read differently for want of the right to list a directory. -/
theorem readOctets_deny (disk : Entry) (l : Location) (path : String) :
    (disk.deny l).readOctets path = disk.readOctets path := by
  rw [← readOctets_forget, forget_deny, readOctets_forget]

end ProjectSurvey.Entry
