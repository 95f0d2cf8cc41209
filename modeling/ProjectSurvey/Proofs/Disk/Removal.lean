import ProjectSurvey.Proofs.Disk.Put
import ProjectSurvey.Proofs.Disk.Unlinked

/-!
# Removing what is at a location

What `Entry.remove` takes away and what it leaves. **At the location and below there is nothing
left** (`at?_remove_below`), and everywhere else there is what there was (`map_shell_at?_remove`): a
file with its octets, and a directory with its rights, whose other names stand for what they stood
for.

A directory is removed by its path as a whole if all directories in it can be emptied
(`Entry.IsClearable`); otherwise a part of it goes. **Whatever goes, elsewhere there is what there
was, and what is left was there** (`IsPruned`, `IsRemoved.isPruned`).
-/

namespace ProjectSurvey.Entry

/-- What is no directory is known by its shell. -/
theorem map_shell_eq_some_iff {o : Option Entry} {x : Entry} (hx : x.isDirectory = false) :
    o.map shell = some x ↔ o = some x := by
  rw [Option.map_eq_some_iff]
  constructor
  · rintro ⟨y, rfl, rfl⟩
    rw [isDirectory_shell] at hx
    rw [shell_of_not_isDirectory hx]
  · intro ho
    exact ⟨x, ho, shell_of_not_isDirectory hx⟩

/-- Filtering a name out of a list of entries unbinds that name and no other. -/
theorem lookup_filter_ne (es : List (String × Entry)) (n m : String) :
    (es.filter fun p => p.1 ≠ n).lookup m = if m = n then none else es.lookup m := by
  induction es with
  | nil => simp
  | cons p es ih =>
    obtain ⟨k, x⟩ := p
    rw [List.lookup_cons]
    by_cases hk : k = n
    · rw [List.filter_cons_of_neg (by simp [hk]), ih]
      by_cases hm : m = n
      · rw [if_pos hm, if_pos hm]
      · rw [if_neg hm, if_neg hm, hk, beq_eq_false_iff_ne.mpr hm]
    · rw [List.filter_cons_of_pos (by simp [hk]), List.lookup_cons, ih]
      by_cases hm : m = k
      · subst hm
        simp [hk]
      · rw [beq_eq_false_iff_ne.mpr hm]

/-- A directory's children after one was removed: all the others. -/
theorem child?_remove_singleton (es : List (String × Entry)) (b : ListRight) (g : Bool)
    (n m : String) :
    ((directory es b g).remove [n]).child? m = if m = n then none else es.lookup m :=
  lookup_filter_ne es n m

/-- Removing a deeper location goes on in the child that the way leads through. -/
theorem remove_cons_of_some {es : List (String × Entry)} {n : String} {c : Entry}
    (hc : es.lookup n = some c) (b : ListRight) (g : Bool) {l : Location} (hl : l ≠ []) :
    (directory es b g).remove (n :: l) = directory (putName n (c.remove l) es) b g := by
  obtain ⟨m, l, rfl⟩ := List.exists_cons_of_ne_nil hl
  rw [remove, hc]

/-- Removing below a name that is not there changes nothing. -/
theorem remove_cons_of_none {es : List (String × Entry)} {n : String} (hn : es.lookup n = none)
    (b : ListRight) (g : Bool) {l : Location} (hl : l ≠ []) :
    (directory es b g).remove (n :: l) = directory es b g := by
  obtain ⟨m, l, rfl⟩ := List.exists_cons_of_ne_nil hl
  rw [remove, hn]

/-- Nothing can be removed below an entry that is no directory. -/
theorem remove_of_not_isDirectory {e : Entry} (h : e.isDirectory = false) (l : Location) :
    e.remove l = e := by
  cases e with
  | directory _ _ _ => cases h
  | _ => simp [remove]

/-- An entry keeps its kind and its rights when something is removed below it. -/
theorem shell_remove (e : Entry) (l : Location) : (e.remove l).shell = e.shell := by
  cases e with
  | file _ _ => rw [remove_of_not_isDirectory rfl]
  | link _ _ => rw [remove_of_not_isDirectory rfl]
  | directory es b g =>
    cases l with
    | nil => rfl
    | cons n l =>
      by_cases hl : l = []
      · subst hl
        rfl
      · cases hc : es.lookup n with
        | none => rw [remove_cons_of_none hc b g hl]
        | some c =>
          rw [remove_cons_of_some hc b g hl]
          rfl

/-- **Nothing is left at the location or below.** -/
theorem at?_remove_below (disk : Entry) {l k : Location} (hl : l ≠ []) (h : l <+: k) :
    (disk.remove l).at? k = none := by
  induction l generalizing disk k with
  | nil => exact absurd rfl hl
  | cons n l ih =>
    obtain ⟨r, rfl⟩ := h
    rw [List.cons_append]
    cases disk with
    | file _ _ => rfl
    | link _ _ => rfl
    | directory es b g =>
      rw [at?_cons]
      by_cases hempty : l = []
      · subst hempty
        rw [child?_remove_singleton, if_pos rfl]
        rfl
      · cases hc : es.lookup n with
        | none =>
          rw [remove_cons_of_none hc b g hempty, show (directory es b g).child? n = none from hc]
          rfl
        | some c =>
          rw [remove_cons_of_some hc b g hempty, child?_putName, if_pos rfl]
          exact ih c hempty (List.prefix_append l r)

/-- **Everywhere else there is what there was.** -/
theorem map_shell_at?_remove (disk : Entry) {l k : Location} (h : ¬ l <+: k) :
    ((disk.remove l).at? k).map shell = (disk.at? k).map shell := by
  induction l generalizing disk k with
  | nil => exact absurd List.nil_prefix h
  | cons n l ih =>
    cases k with
    | nil =>
      rw [at?, at?, Option.map_some, Option.map_some, shell_remove]
    | cons m k =>
      cases disk with
      | file _ _ => rfl
      | link _ _ => rfl
      | directory es b g =>
        rw [List.cons_prefix_cons] at h
        have hchild : (directory es b g).child? m = es.lookup m := rfl
        rw [at?_cons, at?_cons, hchild]
        by_cases hempty : l = []
        · subst hempty
          have hm : m ≠ n := fun heq => h ⟨heq.symm, List.nil_prefix⟩
          rw [child?_remove_singleton, if_neg hm]
        · cases hc : es.lookup n with
          | none =>
            rw [remove_cons_of_none hc b g hempty]
            rfl
          | some c =>
            rw [remove_cons_of_some hc b g hempty, child?_putName]
            by_cases hm : m = n
            · subst hm
              rw [if_pos rfl, hc]
              exact ih c fun hp => h ⟨rfl, hp⟩
            · rw [if_neg hm]
              rfl

/-- Without an entry a tree is still one. -/
theorem IsTree.remove {disk : Entry} (h : disk.IsTree) (l : Location) : (disk.remove l).IsTree := by
  induction l generalizing disk with
  | nil => cases disk <;> exact h
  | cons n l ih =>
    cases disk with
    | file _ _ => rwa [remove_of_not_isDirectory rfl]
    | link _ _ => rwa [remove_of_not_isDirectory rfl]
    | directory es b g =>
      by_cases hempty : l = []
      · subst hempty
        obtain ⟨hnodup, hall⟩ := isTree_directory.mp h
        refine isTree_directory.mpr ⟨?_, fun p hp => hall p (List.mem_filter.mp hp).1⟩
        exact hnodup.sublist (List.filter_sublist.map Prod.fst)
      · cases hc : es.lookup n with
        | none => rwa [remove_cons_of_none hc b g hempty]
        | some c =>
          obtain ⟨hn, hctree⟩ := h.child (n := n) hc
          rw [remove_cons_of_some hc b g hempty]
          exact h.putName hn (ih hctree)

/-! ### What can be emptied -/

mutual

/-- Whether all directories in an entry can be emptied: each can be listed and, if there is anything
in it, searched. -/
def IsClearable : Entry → Prop
  | file .. => True
  | link .. => True
  | directory es listing searchable =>
    listing = .granted ∧ (es = [] ∨ searchable = true) ∧ AreClearable es

/-- Whether all directories in some entries can be emptied. -/
def AreClearable : List (String × Entry) → Prop
  | [] => True
  | (_, e) :: es => e.IsClearable ∧ AreClearable es

end

mutual

/-- Nothing is left of an entry just if all directories in it can be emptied. -/
theorem leftover_eq_none_iff (l : Location) (shown : String) (e : Entry) :
    leftover l shown e = none ↔ e.IsClearable :=
  match e with
  | file _ _ => by simp [leftover, IsClearable]
  | link _ _ => by simp [leftover, IsClearable]
  | directory es listing searchable => by
      rw [IsClearable, ← leftoverIn_eq_none_iff l searchable es]
      cases listing <;> simp [leftover]

/-- Nothing is left of the entries of a directory just if they can all go. -/
theorem leftoverIn_eq_none_iff (l : Location) (searchable : Bool) (es : List (String × Entry)) :
    leftoverIn l searchable es = none ↔ (es = [] ∨ searchable = true) ∧ AreClearable es :=
  match es with
  | [] => by simp [leftoverIn, AreClearable]
  | (n, e) :: es => by
      rw [AreClearable, ← leftover_eq_none_iff (l.child n) n e]
      cases searchable with
      | false => simp [leftoverIn]
      | true =>
        have hrest := leftoverIn_eq_none_iff l true es
        rw [leftoverIn, if_pos rfl]
        cases leftover (l.child n) n e with
        | none => simpa using hrest
        | some p => simp

end

/-! ### What is left -/

/-- Whether everything in an entry is in another one at the same place, directories with the same
rights. -/
def IsPartOf (left e : Entry) : Prop :=
  ∀ k x, left.at? k = some x → (e.at? k).map shell = some x.shell

/-- An entry is a part of itself. -/
theorem IsPartOf.refl (e : Entry) : e.IsPartOf e := by
  intro k x hx
  rw [hx, Option.map_some]

/-- A part of a directory has names of the directory, each for a part of what it stood for. -/
theorem isPartOf_directory {left es : List (String × Entry)} (hnodup : (es.map Prod.fst).Nodup)
    (h : ∀ n x, (n, x) ∈ left → ∃ y, (n, y) ∈ es ∧ x.IsPartOf y) (b : ListRight) (g : Bool) :
    (directory left b g).IsPartOf (directory es b g) := by
  intro k x hx
  cases k with
  | nil =>
    cases hx
    rfl
  | cons n k =>
    rw [at?_cons, Option.bind_eq_some_iff] at hx
    obtain ⟨c, hc, hx⟩ := hx
    obtain ⟨y, hy, hpart⟩ := h n c (mem_of_lookup hc)
    have hlookup : (directory es b g).child? n = some y := (lookup_eq_some_iff hnodup).mpr hy
    rw [at?_cons, hlookup]
    exact hpart k x hx

mutual

/-- What is left of a tree is a part of it, and a tree. -/
theorem isPartOf_of_leftover {l : Location} {shown refused : String} {left : Entry} (e : Entry)
    (htree : e.IsTree) (h : leftover l shown e = some (left, refused)) :
    left.IsPartOf e ∧ left.IsTree :=
  match e with
  | file _ _ => by cases h
  | link _ _ => by cases h
  | directory es listing searchable => by
      cases listing with
      | granted =>
        rw [leftover, Option.map_eq_some_iff] at h
        obtain ⟨⟨es', r⟩, hin, heq⟩ := h
        cases heq
        rw [IsTree] at htree
        obtain ⟨hsub, hall⟩ := isPartOf_of_leftoverIn es htree.2 hin
        refine ⟨isPartOf_directory htree.1 (fun n x hx => ?_) _ _, ?_⟩
        · obtain ⟨y, hy, -, hpart, -⟩ := hall n x hx
          exact ⟨y, hy, hpart⟩
        · refine isTree_directory.mpr ⟨htree.1.sublist hsub, fun p hp => ?_⟩
          obtain ⟨-, -, hn, -, hx⟩ := hall p.1 p.2 hp
          exact ⟨hn, hx⟩
      | denied =>
        cases h
        exact ⟨.refl _, htree⟩
      | failing =>
        cases h
        exact ⟨.refl _, htree⟩

/-- What is left of some entries has their names, each for a part of what it stood for. -/
theorem isPartOf_of_leftoverIn {l : Location} {searchable : Bool} {refused : String}
    {left : List (String × Entry)} (es : List (String × Entry)) (htrees : AreTrees es)
    (h : leftoverIn l searchable es = some (left, refused)) :
    (left.map Prod.fst).Sublist (es.map Prod.fst) ∧ ∀ n x, (n, x) ∈ left →
      ∃ y, (n, y) ∈ es ∧ Path.IsName n ∧ x.IsPartOf y ∧ x.IsTree :=
  match es with
  | [] => by cases h
  | (n, e) :: es => by
      have hself : ∀ m y, (m, y) ∈ es →
          ∃ z, (m, z) ∈ (n, e) :: es ∧ Path.IsName m ∧ y.IsPartOf z ∧ y.IsTree := fun m y hy =>
        have hm := (areTrees_iff es).mp htrees.2 (m, y) hy
        ⟨y, List.mem_cons_of_mem _ hy, hm.1, .refl y, hm.2⟩
      cases searchable with
      | false =>
        cases h
        refine ⟨List.Sublist.refl _, fun m y hy => ?_⟩
        rcases List.mem_cons.mp hy with heq | hy
        · cases heq
          exact ⟨e, List.mem_cons_self, htrees.1.1, .refl e, htrees.1.2⟩
        · exact hself m y hy
      | true =>
        rw [leftoverIn, if_pos rfl] at h
        cases hleft : leftover (l.child n) n e with
        | none =>
          rw [hleft] at h
          obtain ⟨hsub, hall⟩ := isPartOf_of_leftoverIn es htrees.2 h
          refine ⟨hsub.cons n, fun m y hy => ?_⟩
          obtain ⟨z, hz, hrest⟩ := hall m y hy
          exact ⟨z, List.mem_cons_of_mem _ hz, hrest⟩
        | some p =>
          obtain ⟨x, r⟩ := p
          rw [hleft] at h
          cases h
          obtain ⟨hpart, hx⟩ := isPartOf_of_leftover e htrees.1.2 hleft
          refine ⟨List.Sublist.refl _, fun m y hy => ?_⟩
          rcases List.mem_cons.mp hy with heq | hy
          · cases heq
            exact ⟨e, List.mem_cons_self, htrees.1.1, hpart, hx⟩
          · exact hself m y hy

end

/-! ### What removing does to a disk -/

/-- Where the same directories are on the way, a way finds the same. -/
theorem map_shell_reach?_eq {disk disk' : Entry} {l : Location}
    (h : ∀ k, k <+: l → (disk'.at? k).map shell = (disk.at? k).map shell) :
    (disk'.reach? l).map shell = (disk.reach? l).map shell := by
  induction l using List.reverseRecOn with
  | nil => exact h [] List.nil_prefix
  | append_singleton l n ih =>
    have hfront := ih fun k hk => h k (hk.trans (List.prefix_append l [n]))
    cases hd : disk.reach? l with
    | none =>
      have hd' : disk'.reach? l = none := by simpa [hd] using hfront
      rw [reach?_append, reach?_append, hd, hd', Option.bind_none]
    | some d =>
      rw [hd, Option.map_some, Option.map_eq_some_iff] at hfront
      obtain ⟨d', hd', hshell⟩ := hfront
      have hlast := h (l ++ [n]) (List.prefix_refl _)
      rw [at?_append, at?_append, at?_of_reach? hd, at?_of_reach? hd', Option.bind_some,
        Option.bind_some, at?_cons, at?_cons] at hlast
      rw [reach?_concat hd, reach?_concat hd', ← isSearchable_shell d', hshell, isSearchable_shell]
      cases d.isSearchable with
      | false => rfl
      | true => simpa [at?] using hlast

/-- What becomes of a disk if something is removed at a location or below. -/
structure IsPruned (l : Location) (disk disk' : Entry) : Prop where
  /-- Everywhere else there is what there was. -/
  outside : ∀ k, ¬ l <+: k → (disk'.at? k).map shell = (disk.at? k).map shell
  /-- What is left was there. -/
  isPartOf : disk'.IsPartOf disk
  /-- A tree stays one. -/
  isTree : disk'.IsTree

/-- Removing what is at a location leaves the rest. -/
theorem isPruned_remove {disk : Entry} (htree : disk.IsTree) {l : Location} (hl : l ≠ []) :
    IsPruned l disk (disk.remove l) := by
  refine ⟨fun k hk => map_shell_at?_remove disk hk, ?_, htree.remove l⟩
  intro k x hx
  have hk : ¬ l <+: k := by
    intro hk
    rw [at?_remove_below disk hl hk] at hx
    cases hx
  rw [← map_shell_at?_remove disk hk, hx, Option.map_some]

/-- Leaving a part of what is at a location leaves the rest. -/
theorem isPruned_put {disk e left : Entry} (htree : disk.IsTree) {l : Location}
    (he : disk.at? l = some e) (hleft : left.IsPartOf e) (hleftTree : left.IsTree) :
    IsPruned l disk (disk.put l left) := by
  have houtside : ∀ k, ¬ l <+: k →
      ((disk.put l left).at? k).map shell = (disk.at? k).map shell := by
    intro k hk
    by_cases habove : k <+: l
    · obtain ⟨r, rfl⟩ := habove
      have hr : r ≠ [] := by
        rintro rfl
        exact hk (by simp)
      rw [at?_put_append disk k r hr, Option.map_map]
      exact congrArg (fun f => (disk.at? k).map f) (funext fun x => shell_put x hr left)
    · rw [at?_put_of_notPrefix disk hk habove]
  refine ⟨houtside, ?_, htree.put (htree.areNames_of_at? he).1 hleftTree⟩
  intro k x hx
  by_cases hk : l <+: k
  · obtain ⟨r, rfl⟩ := hk
    rw [at?_append, at?_put_of_at? he, Option.bind_some] at hx
    rw [at?_append, he, Option.bind_some]
    exact hleft r x hx
  · rw [← houtside k hk, hx, Option.map_some]

namespace IsPruned

variable {l k : Location} {disk disk' x : Entry}

/-- What is no directory was there before. -/
theorem of_at? (h : IsPruned l disk disk') (hx : x.isDirectory = false)
    (hk : disk'.at? k = some x) : disk.at? k = some x := by
  rw [← map_shell_eq_some_iff hx, h.isPartOf k x hk, shell_of_not_isDirectory hx]

/-- What is no directory stays but for where something is removed. -/
theorem at?_eq_some_iff (h : IsPruned l disk disk') (hk : ¬ l <+: k) (hx : x.isDirectory = false) :
    disk'.at? k = some x ↔ disk.at? k = some x := by
  rw [← map_shell_eq_some_iff hx, h.outside k hk, map_shell_eq_some_iff hx]

/-- No link comes about. -/
theorem isUnlinked (h : IsPruned l disk disk') (hdisk : disk.IsUnlinked) : disk'.IsUnlinked :=
  fun k t m hlink => hdisk k t m (h.of_at? rfl hlink)

/-- A way that does not come to where something is removed finds what it found. -/
theorem map_shell_reach? (h : IsPruned l disk disk') (hk : ¬ l <+: k) :
    (disk'.reach? k).map shell = (disk.reach? k).map shell :=
  map_shell_reach?_eq fun m hm => h.outside m fun hle => hk (hle.trans hm)

end IsPruned

/-- What comes of removing the directory at a location by its path. -/
inductive IsRemoved (disk : Entry) (l : Location) : Change → Prop where
  /-- All of it goes. -/
  | whole {e : Entry} (he : disk.reach? l = some e) (hdir : e.isDirectory = true)
      (hclear : e.IsClearable) : IsRemoved disk l (disk.remove l, none)
  /-- A part of it goes, until something is refused. -/
  | part {e left : Entry} {refused : String} (he : disk.reach? l = some e)
      (hdir : e.isDirectory = true) (hclear : ¬ e.IsClearable)
      (hleft : leftover l l.text e = some (left, refused)) :
      IsRemoved disk l (disk.put l left, some (.denied, refused))
  /-- What is no directory stays. -/
  | kept {e : Entry} (he : disk.reach? l = some e) (hdir : e.isDirectory = false) :
      IsRemoved disk l (disk, some (.noDirectory, l.text))

/-- **What removing by a path comes to**, where something is. -/
theorem IsUnlinked.isRemoved_removeDirectory {disk : Entry} (h : disk.IsUnlinked) {l : Location}
    (hl : Path.AreNames l) (hexists : disk.existsAt l.text = .ok true) :
    IsRemoved disk l (disk.removeDirectory l.text) := by
  obtain ⟨hcheck, x, hx⟩ := h.exists_reach?_of_existsAt_text hl hexists
  have hlocate : disk.locate false l.text = .ok (l, x) := by
    rw [h.locate_text hl (at?_of_reach? hx), hcheck, hx]
    rfl
  unfold removeDirectory
  rw [hlocate]
  cases x with
  | file octets m => exact .kept hx rfl
  | link t m => exact absurd (at?_of_reach? hx) (h l t m)
  | directory es b g =>
    dsimp only
    cases hleft : leftover l l.text (directory es b g) with
    | none => exact .whole hx rfl ((leftover_eq_none_iff _ _ _).mp hleft)
    | some p =>
      obtain ⟨left, refused⟩ := p
      refine .part hx rfl (fun hclear => ?_) hleft
      rw [(leftover_eq_none_iff _ _ _).mpr hclear] at hleft
      cases hleft

namespace IsRemoved

variable {disk : Entry} {l : Location} {c : Change}

/-- **Whatever removing comes to, elsewhere there is what there was, and what is left was
there.** -/
theorem isPruned (h : IsRemoved disk l c) (htree : disk.IsTree) (hl : l ≠ []) :
    IsPruned l disk c.1 := by
  cases h with
  | whole => exact isPruned_remove htree hl
  | part he _ _ hleft =>
    obtain ⟨hpart, hleftTree⟩ :=
      isPartOf_of_leftover _ (htree.areNames_of_at? (at?_of_reach? he)).2 hleft
    exact isPruned_put htree (at?_of_reach? he) hpart hleftTree
  | kept => exact ⟨fun _ _ => rfl, .refl disk, htree⟩

end IsRemoved

end ProjectSurvey.Entry
