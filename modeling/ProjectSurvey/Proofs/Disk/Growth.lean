import Mathlib.Data.List.Induction
import ProjectSurvey.Disk.Change
import ProjectSurvey.Proofs.Disk.Put
import ProjectSurvey.Proofs.Disk.Straight

/-!
# Writing below one location

What making directories and writing files does to the rest of the disk. A disk grows below a
location (`Entry.Grows`) if directories are made there where nothing was, and files are put where
nothing but a file was. **Whatever is done along straight ways below a location, the disk grows
there and nowhere else** (`grows_makeDirectories`, `writeText_cases`); what lies elsewhere stays
(`Grows.at?_eq`), and no link comes about (`Grows.noLinkAt`).
-/

namespace ProjectSurvey.Entry

/-! ### Additions -/

/-- What is added below a location: a directory where nothing is, or a file, at one of some
locations, where nothing else is. -/
structure IsAddition (top : Location) (files : Location → Prop) (disk : Entry) (l : Location)
    (new : Entry) : Prop where
  /-- It is added there or below. -/
  below : top <+: l
  /-- Its location is made of names. -/
  names : Path.AreNames l
  /-- There is a directory to hold it. -/
  inDirectory : ∃ front n es b g, l = front ++ [n] ∧ disk.at? front = some (directory es b g)
  /-- It takes the place of nothing, or a file that of a file. -/
  kind : new = ofEntries [] ∧ disk.at? l = none ∨
    (∃ o m, new = file o m) ∧ files l ∧ l ≠ top ∧
      ∀ x, disk.at? l = some x → ∃ o m, x = file o m

namespace IsAddition

variable {top l k : Location} {files : Location → Prop} {disk new x : Entry}

/-- Whatever is added is a tree by itself. -/
theorem isTree_new (h : IsAddition top files disk l new) : new.IsTree := by
  rcases h.kind with ⟨rfl, -⟩ | ⟨⟨o, m, rfl⟩, -⟩
  · exact isTree_directory.mpr ⟨by simp, by simp⟩
  · trivial

/-- Nothing lies below an entry that was just added. -/
theorem at?_new_cons (h : IsAddition top files disk l new) (n : String) (r : Location) :
    new.at? (n :: r) = none := by
  rcases h.kind with ⟨rfl, -⟩ | ⟨⟨o, m, rfl⟩, -⟩ <;> rfl

/-- After the addition the location holds the new entry. -/
theorem at?_put_self (h : IsAddition top files disk l new) : (disk.put l new).at? l = some new := by
  obtain ⟨front, n, es, b, g, rfl, hdir⟩ := h.inDirectory
  exact Entry.at?_put_self hdir n new

/-- Nothing can be put below an entry that is no directory. -/
theorem put_eq_self {r : Location} (hr : r ≠ []) {e : Entry} (he : e.isDirectory = false) :
    e.put r new = e := by
  obtain ⟨n, r, rfl⟩ := List.exists_cons_of_ne_nil hr
  cases e with
  | file _ _ => rfl
  | link _ _ => rfl
  | directory _ _ _ => cases he

/-- What is no directory was there before, or is what was added. -/
theorem of_at?_put (h : IsAddition top files disk l new)
    (hk : (disk.put l new).at? k = some x) (hx : x.isDirectory = false) :
    disk.at? k = some x ∨ k = l ∧ x = new := by
  by_cases hbelow : l <+: k
  · obtain ⟨r, rfl⟩ := hbelow
    rw [at?_append, h.at?_put_self, Option.bind_some] at hk
    cases r with
    | nil =>
      cases hk
      exact .inr ⟨List.append_nil l, rfl⟩
    | cons n r =>
      rw [h.at?_new_cons] at hk
      cases hk
  · by_cases habove : k <+: l
    · obtain ⟨r, rfl⟩ := habove
      have hr : r ≠ [] := by
        rintro rfl
        exact hbelow (by simp)
      rw [at?_put_append disk k r hr, Option.map_eq_some_iff] at hk
      obtain ⟨e, he, rfl⟩ := hk
      rw [isDirectory_put e hr] at hx
      exact .inl (by rw [he, put_eq_self hr hx])
    · rw [at?_put_of_notPrefix disk hbelow habove] at hk
      exact .inl hk

/-- Where something is added, or below, there was no directory and nothing but a file at most. -/
theorem of_at?_below (h : IsAddition top files disk l new) (hbelow : l <+: k)
    (hk : disk.at? k = some x) : k = l ∧ files l ∧ x.isDirectory = false := by
  obtain ⟨r, rfl⟩ := hbelow
  rw [at?_append] at hk
  rcases h.kind with ⟨-, hnone⟩ | ⟨-, hfile, -, hold⟩
  · rw [hnone] at hk
    cases hk
  · obtain ⟨y, hy, hk⟩ := Option.bind_eq_some_iff.mp hk
    obtain ⟨o, m, rfl⟩ := hold y hy
    cases r with
    | nil =>
      cases hk
      exact ⟨List.append_nil l, hfile, rfl⟩
    | cons n r => cases hk

/-- On the way to what is added there are directories. -/
theorem isDirectory_of_at?_above (h : IsAddition top files disk l new) (habove : k <+: l)
    (hne : k ≠ l) (hk : disk.at? k = some x) : x.isDirectory = true := by
  obtain ⟨front, n, es, b, g, rfl, hdir⟩ := h.inDirectory
  rcases List.prefix_concat_iff.mp habove with rfl | habove
  · exact absurd rfl hne
  · obtain ⟨r, rfl⟩ := habove
    rw [at?_append, hk, Option.bind_some] at hdir
    cases r with
    | nil =>
      cases hdir
      rfl
    | cons m r =>
      cases x with
      | file _ _ => cases hdir
      | link _ _ => cases hdir
      | directory _ _ _ => rfl

/-- What is no directory stays, unless a file takes its place. -/
theorem at?_put_of_at? (h : IsAddition top files disk l new) (hfile : ¬ files k)
    (hk : disk.at? k = some x) (hx : x.isDirectory = false) :
    (disk.put l new).at? k = some x := by
  rw [at?_put_of_notPrefix disk ?_ ?_, hk]
  · intro hbelow
    obtain ⟨rfl, hfile', -⟩ := h.of_at?_below hbelow hk
    exact hfile hfile'
  · intro habove
    by_cases hne : k = l
    · subst hne
      exact hfile (h.of_at?_below (List.prefix_refl k) hk).2.1
    · rw [h.isDirectory_of_at?_above habove hne hk] at hx
      cases hx

/-- A directory stays one, with the rights it had. -/
theorem exists_directory_put (h : IsAddition top files disk l new)
    {es : List (String × Entry)} {b : ListRight} {g : Bool}
    (hk : disk.at? k = some (directory es b g)) :
    ∃ es', (disk.put l new).at? k = some (directory es' b g) := by
  have hbelow : ¬ l <+: k := fun hbelow => by cases (h.of_at?_below hbelow hk).2.2
  by_cases habove : k <+: l
  · obtain ⟨r, rfl⟩ := habove
    have hr : r ≠ [] := by
      rintro rfl
      exact hbelow (by simp)
    obtain ⟨n, r, rfl⟩ := List.exists_cons_of_ne_nil hr
    rw [at?_put_append disk k (n :: r) hr, hk, Option.map_some]
    by_cases hempty : r = []
    · subst hempty
      exact ⟨_, by rw [put_directory_singleton]⟩
    · cases hc : es.lookup n with
      | none => exact ⟨es, by rw [put_directory_missing hc b g hempty]⟩
      | some c => exact ⟨_, by rw [put_directory_cons hc b g hempty]⟩
  · exact ⟨es, by rw [at?_put_of_notPrefix disk hbelow habove, hk]⟩

end IsAddition

/-! ### Growth -/

/-- Whether a disk comes from another by additions below a location, files being added at some
locations only. -/
inductive Grows (top : Location) (files : Location → Prop) : Entry → Entry → Prop where
  /-- Nothing was added. -/
  | refl (disk : Entry) : Grows top files disk disk
  /-- One more thing was added. -/
  | step {disk disk' : Entry} {l : Location} {new : Entry} (h : Grows top files disk disk')
      (hnew : IsAddition top files disk' l new) : Grows top files disk (disk'.put l new)

namespace Grows

variable {top k : Location} {files files' : Location → Prop} {disk disk' disk'' : Entry}

/-- What grew twice has grown, within the same bounds. -/
theorem trans (h : Grows top files disk disk') (h' : Grows top files disk' disk'') :
    Grows top files disk disk'' := by
  induction h' with
  | refl => exact h
  | step _ hnew ih => exact .step ih hnew

/-- Growth that touches few files is growth that may touch more. -/
theorem mono (h : Grows top files disk disk') (hfiles : ∀ l, files l → files' l) :
    Grows top files' disk disk' := by
  induction h with
  | refl => exact .refl disk
  | step _ hnew ih =>
    refine .step ih ⟨hnew.below, hnew.names, hnew.inDirectory, hnew.kind.imp_right ?_⟩
    rintro ⟨hfile, hl, hrest⟩
    exact ⟨hfile, hfiles _ hl, hrest⟩

/-- A grown disk is a tree when the disk before it was. -/
theorem isTree (h : Grows top files disk disk') (htree : disk.IsTree) : disk'.IsTree := by
  induction h with
  | refl => exact htree
  | step _ hnew ih => exact ih.put hnew.names hnew.isTree_new

/-- Files and links come about only where files are added. -/
theorem of_at? (h : Grows top files disk disk') {x : Entry} (hx : x.isDirectory = false)
    (hk : disk'.at? k = some x) : disk.at? k = some x ∨ files k ∧ ∃ o m, x = file o m := by
  induction h with
  | refl => exact .inl hk
  | step _ hnew ih =>
    rcases hnew.of_at?_put hk hx with hk | ⟨rfl, rfl⟩
    · exact ih hk
    · rcases hnew.kind with ⟨rfl, -⟩ | ⟨hfile, hl, -⟩
      · cases hx
      · exact .inr ⟨hl, hfile⟩

/-- Where no file is put, what is no directory stays. -/
theorem at?_of_at? (h : Grows top files disk disk') (hfile : ¬ files k) {x : Entry}
    (hx : x.isDirectory = false) (hk : disk.at? k = some x) : disk'.at? k = some x := by
  induction h with
  | refl => exact hk
  | step _ hnew ih => exact hnew.at?_put_of_at? hfile ih hx

/-- What is no directory is the same, unless files are put where it is. -/
theorem at?_eq_some_iff (h : Grows top files disk disk') (hfile : ¬ files k) {x : Entry}
    (hx : x.isDirectory = false) : disk'.at? k = some x ↔ disk.at? k = some x :=
  ⟨fun hk => (h.of_at? hx hk).resolve_right fun hnew => hfile hnew.1, h.at?_of_at? hfile hx⟩

/-- A directory stays one, with the rights it had. -/
theorem exists_directory (h : Grows top files disk disk') {es : List (String × Entry)}
    {b : ListRight} {g : Bool}
    (hk : disk.at? k = some (directory es b g)) :
    ∃ es', disk'.at? k = some (directory es' b g) := by
  induction h with
  | refl => exact ⟨es, hk⟩
  | step _ hnew ih =>
    obtain ⟨es', hk'⟩ := ih
    exact hnew.exists_directory_put hk'

/-- Where nothing is afterwards, nothing was before. -/
theorem at?_eq_none (h : Grows top files disk disk') (hfile : ¬ files k)
    (hk : disk'.at? k = none) : disk.at? k = none := by
  cases hx : disk.at? k with
  | none => rfl
  | some x =>
    cases x with
    | directory es b g =>
      obtain ⟨es', hk'⟩ := h.exists_directory hx
      rw [hk] at hk'
      cases hk'
    | _ =>
      have hk' := h.at?_of_at? hfile rfl hx
      rw [hk] at hk'
      cases hk'

/-- No link comes about. -/
theorem noLinkAt (h : Grows top files disk disk') (hk : disk.NoLinkAt k) : disk'.NoLinkAt k := by
  intro t m hlink
  rcases h.of_at? rfl hlink with hold | ⟨-, o, m', hfile⟩
  · exact hk t m hold
  · cases hfile

/-- Growth puts no link in the way, so a straight way stays straight. -/
theorem isStraight (h : Grows top files disk disk') (hk : disk.IsStraight k) :
    disk'.IsStraight k := fun m hm => h.noLinkAt (hk m hm)

/-- A directory in front of what is there has the rights that it had. -/
theorem isOnWay_iff (h : Grows top files disk disk') {x : Entry} (hk : disk.at? k = some x) :
    (∀ front n back, k = front ++ n :: back →
        ∃ es b, disk'.at? front = some (directory es b true)) ↔
      ∀ front n back, k = front ++ n :: back →
        ∃ es b, disk.at? front = some (directory es b true) := by
  constructor
  · intro hdirs front n back hl
    subst hl
    obtain ⟨es, b, g, hdir⟩ := exists_directory_of_at? hk
    obtain ⟨es', hdir'⟩ := h.exists_directory hdir
    obtain ⟨fs, b', hsearch⟩ := hdirs front n back rfl
    cases hdir'.symm.trans hsearch
    exact ⟨es, b, hdir⟩
  · intro hdirs front n back hl
    obtain ⟨es, b, hdir⟩ := hdirs front n back hl
    obtain ⟨es', hdir'⟩ := h.exists_directory hdir
    exact ⟨es', b, hdir'⟩

/-- What is no directory is reached as before, unless files are put where it is. -/
theorem reach?_eq_some_iff (h : Grows top files disk disk') (hfile : ¬ files k) {x : Entry}
    (hx : x.isDirectory = false) : disk'.reach? k = some x ↔ disk.reach? k = some x := by
  rw [Entry.reach?_eq_some_iff, Entry.reach?_eq_some_iff, h.at?_eq_some_iff hfile hx]
  exact and_congr_right h.isOnWay_iff

/-- What is there before and afterwards is reached as before. -/
theorem reach?_eq_of_at? (h : Grows top files disk disk') {x : Entry} (hk : disk.at? k = some x)
    (hk' : disk'.at? k = some x) : disk'.reach? k = disk.reach? k := by
  ext y
  rw [Entry.reach?_eq_some_iff, Entry.reach?_eq_some_iff, hk, hk']
  exact and_congr_right fun _ => h.isOnWay_iff hk

/-- A directory is reached as before. -/
theorem isSome_reach? (h : Grows top files disk disk') {es : List (String × Entry)} {b : ListRight}
    {g : Bool} (hk : disk.at? k = some (directory es b g)) :
    (disk'.reach? k).isSome = (disk.reach? k).isSome := by
  obtain ⟨es', hk'⟩ := h.exists_directory hk
  have hway := h.isOnWay_iff hk
  rw [Bool.eq_iff_iff, Option.isSome_iff_exists, Option.isSome_iff_exists]
  simp only [Entry.reach?_eq_some_iff]
  constructor
  · rintro ⟨-, -, hdirs⟩
    exact ⟨_, hk, hway.mp hdirs⟩
  · rintro ⟨-, -, hdirs⟩
    exact ⟨_, hk', hway.mpr hdirs⟩

end Grows

/-! ### The directory above -/

/-- Whether a name stands for nothing but a directory. -/
def HoldsNoFile (es : List (String × Entry)) (n : String) : Prop :=
  ∀ x, es.lookup n = some x → x.isDirectory = true

/-- Whether two directories hold the same, a directory of one name apart. -/
def SameBeside (n : String) (es es' : List (String × Entry)) : Prop :=
  es' = es ∨ es'.filter (fun p => p.1 ≠ n) = es.filter (fun p => p.1 ≠ n) ∧
    HoldsNoFile es n ∧ HoldsNoFile es' n

/-- Putting a directory under a name that held no file changes nothing beside that name. -/
theorem SameBeside.putName {n : String} {es es' : List (String × Entry)} {x : Entry}
    (h : SameBeside n es es') (hold : HoldsNoFile es' n) (hx : x.isDirectory = true) :
    SameBeside n es (Entry.putName n x es') := by
  have hnew : HoldsNoFile (Entry.putName n x es') n := by
    intro y hy
    rw [lookup_putName, if_pos rfl] at hy
    cases hy
    exact hx
  rcases h with rfl | ⟨hfilter, hes, -⟩
  · exact .inr ⟨filter_putName n x _, hold, hnew⟩
  · exact .inr ⟨(filter_putName n x _).trans hfilter, hes, hnew⟩

/-- Other names stand for what they stood for. -/
theorem SameBeside.lookup_eq {n m : String} {es es' : List (String × Entry)}
    (h : SameBeside n es es') (hm : m ≠ n) : es'.lookup m = es.lookup m := by
  have hkeep : ∀ es : List (String × Entry),
      (es.filter fun p => p.1 ≠ n).lookup m = es.lookup m := by
    intro es
    induction es with
    | nil => rfl
    | cons p es ih =>
      obtain ⟨k, x⟩ := p
      by_cases hk : k = n
      · have hmk : (m == k) = false := beq_eq_false_iff_ne.mpr (hk ▸ hm)
        rw [List.filter_cons_of_neg (by simp [hk]), List.lookup_cons, hmk, ih]
      · rw [List.filter_cons_of_pos (by simp [hk]), List.lookup_cons, List.lookup_cons, ih]
  rcases h with rfl | ⟨hfilter, -⟩
  · rfl
  · rw [← hkeep es', hfilter, hkeep]

/-- The directory above stays a directory with the same rights, and holds the same beside. -/
theorem Grows.sameBeside {root : Location} {out : String} {files : Location → Prop}
    {disk disk' : Entry} (h : Grows (root ++ [out]) files disk disk') {es : List (String × Entry)}
    {b : ListRight} {g : Bool} (hroot : disk.at? root = some (directory es b g)) :
    ∃ es', disk'.at? root = some (directory es' b g) ∧ SameBeside out es es' := by
  induction h with
  | refl => exact ⟨es, hroot, .inl rfl⟩
  | @step disk' l new _ hnew ih =>
    obtain ⟨es', hroot', hsame⟩ := ih
    obtain ⟨r, rfl⟩ := hnew.below
    obtain ⟨front, n, fs, b', g', hl, hdir⟩ := hnew.inDirectory
    rw [List.append_assoc, List.singleton_append] at hl hnew ⊢
    rw [at?_put_append disk' root (out :: r) (by simp), hroot', Option.map_some]
    by_cases hr : r = []
    · -- The directory below is the one that is added.
      subst hr
      rw [put_directory_singleton]
      rcases hnew.kind with ⟨rfl, hnone⟩ | ⟨-, -, hne, -⟩
      · refine ⟨_, rfl, hsame.putName ?_ rfl⟩
        rw [at?_append, hroot', Option.bind_some, at?_cons, Option.bind_eq_none_iff] at hnone
        intro x hx
        exact absurd (hnone x hx) nofun
      · exact absurd rfl hne
    · -- It is there already, since it is on the way to what is added.
      obtain ⟨front', m, rfl⟩ := r.eq_nil_or_concat.resolve_left hr
      rw [List.concat_eq_append] at hl hr ⊢
      have hfront : front = root ++ out :: front' := by
        have hsplit : (root ++ out :: front') ++ [m] = front ++ [n] := by
          rw [← hl]
          simp
        exact (List.append_inj' hsplit rfl).1.symm
      rw [hfront, at?_append, hroot', Option.bind_some, at?_cons,
        Option.bind_eq_some_iff] at hdir
      obtain ⟨c, hc, hdir⟩ := hdir
      have hcdir : c.isDirectory = true := by
        cases front' with
        | nil =>
          cases hdir
          rfl
        | cons k front' =>
          cases c with
          | file _ _ => cases hdir
          | link _ _ => cases hdir
          | directory _ _ _ => rfl
      have hlookup : es'.lookup out = some c := hc
      rw [put_directory_cons hlookup b g hr]
      refine ⟨_, rfl, hsame.putName ?_ ?_⟩
      · intro x hx
        rw [hlookup] at hx
        cases hx
        exact hcdir
      · rw [Entry.isDirectory_put _ hr]
        exact hcdir

/-! ### Making directories -/

/-- A directory is made only in a directory that may be searched and does not hold its name. -/
theorem makeDirectory_eq_ok {disk disk' : Entry} {l : Location} {n : String}
    (hl : Path.AreNames l) (hstraight : disk.IsStraight l)
    (h : disk.makeDirectory (l ++ [n]) = .ok disk') :
    (∃ es b, disk.reach? l = some (directory es b true)) ∧ disk.at? (l ++ [n]) = none ∧
      disk' = disk.put (l ++ [n]) (ofEntries []) := by
  unfold makeDirectory at h
  rw [List.getLast?_concat, List.dropLast_concat] at h
  cases hcheck : checkPath (Location.text (l ++ [n])) with
  | error f =>
    rw [hcheck] at h
    cases h
  | ok u =>
    rw [hcheck] at h
    cases hx : disk.reach? l with
    | none =>
      obtain ⟨f, hfollow, -⟩ := follow_of_none hl hx hstraight true linkLimit
      rw [hfollow] at h
      cases h
    | some x =>
      rw [follow_of_reach? hl hx hstraight.self] at h
      cases x with
      | file _ _ => cases h
      | link _ _ => cases h
      | directory es b g =>
        dsimp only at h
        split at h
        · cases h
        next hsearch =>
        split at h
        · cases h
        cases hn : es.lookup n with
        | some c =>
          rw [hn] at h
          cases h
        | none =>
          rw [hn] at h
          dsimp only at h
          split at h
          · cases h
          · have hg : g = true := by simpa using hsearch
            subst hg
            exact ⟨⟨es, b, rfl⟩, (at?_child (at?_of_reach? hx) n).trans hn, (Except.ok.inj h).symm⟩

/-- In a directory, a directory is not refused for want of what is around it. -/
theorem makeDirectory_ne_missing {disk : Entry} {l : Location} {n : String}
    (hl : Path.AreNames (l ++ [n])) {es : List (String × Entry)} {b : ListRight} {g : Bool}
    (hdir : disk.at? l = some (directory es b g)) :
    disk.makeDirectory (l ++ [n]) ≠ .error .missing := by
  have hlink : disk.NoLinkAt l := by
    intro t m h
    rw [hdir] at h
    cases h
  unfold makeDirectory
  rw [List.getLast?_concat, List.dropLast_concat, checkPath_text hl]
  split
  · nofun
  · next heq =>
    split at heq
    · cases heq
      nofun
    · cases heq
  · rcases follow_of_at? (Path.areNames_append.mp hl).1 hdir hlink true linkLimit with
      ⟨-, hfollow⟩ | ⟨-, hfollow⟩
    · rw [hfollow]
      dsimp only
      split
      · nofun
      split
      · nofun
      split
      · nofun
      · split <;> nofun
    · rw [hfollow]
      nofun

section

variable {root : Location} {out : String} {disk : Entry}

/-- Making one directory in or below the output directory is growth of it, whichever files may
change. -/
theorem grows_of_makeDirectory {disk' : Entry} {l : Location} {n : String}
    (hl : Path.AreNames (l ++ [n])) (hbelow : root ++ [out] <+: l ++ [n])
    (hstraight : disk.IsStraight l) (h : disk.makeDirectory (l ++ [n]) = .ok disk')
    (files : Location → Prop) : Grows (root ++ [out]) files disk disk' := by
  obtain ⟨⟨es, b, hdir⟩, hnone, rfl⟩ :=
    makeDirectory_eq_ok (Path.areNames_append.mp hl).1 hstraight h
  exact .step (.refl disk)
    ⟨hbelow, hl, ⟨l, n, es, b, true, rfl, at?_of_reach? hdir⟩, .inl ⟨rfl, hnone⟩⟩

/-- The same holds when the directory may be there already. -/
theorem grows_ensureDirectory {l : Location} {n : String} (hl : Path.AreNames (l ++ [n]))
    (hbelow : root ++ [out] <+: l ++ [n]) (hstraight : disk.IsStraight l)
    (files : Location → Prop) :
    Grows (root ++ [out]) files disk (disk.ensureDirectory (l ++ [n])).1 := by
  unfold ensureDirectory
  cases h : disk.makeDirectory (l ++ [n]) with
  | ok disk' => exact grows_of_makeDirectory hl hbelow hstraight h files
  | error f =>
    dsimp only
    split <;> exact .refl disk

/-- A directory with all directories around it, given one level that is there. -/
theorem grows_makeAll {names : List String} (hl : Path.AreNames (root ++ out :: names))
    (hstraight : disk.IsStraight (root ++ out :: names)) {es : List (String × Entry)}
    {b : ListRight} {g : Bool}
    (hroot : disk.at? root = some (directory es b g)) (files : Location → Prop) :
    Grows (root ++ [out]) files disk (disk.makeAll (root ++ out :: names).reverse).1 := by
  induction names using List.reverseRecOn with
  | nil =>
    have hfront : disk.IsStraight root := hstraight.of_prefix (List.prefix_append _ _)
    rw [List.reverse_append, List.reverse_singleton, List.singleton_append, makeAll,
      List.reverse_cons, List.reverse_reverse]
    cases h : disk.makeDirectory (root ++ [out]) with
    | ok disk' => exact grows_of_makeDirectory hl (List.prefix_refl _) hfront h files
    | error f =>
      cases f with
      | missing => exact absurd h (makeDirectory_ne_missing hl hroot)
      | _ => exact grows_ensureDirectory hl (List.prefix_refl _) hfront files
  | append_singleton names n ih =>
    have hsplit : root ++ out :: (names ++ [n]) = (root ++ out :: names) ++ [n] := by simp
    have hbelow : root ++ [out] <+: (root ++ out :: names) ++ [n] := by
      refine ⟨names ++ [n], ?_⟩
      simp
    rw [hsplit] at hl hstraight ⊢
    have hfront : disk.IsStraight (root ++ out :: names) :=
      hstraight.of_prefix (List.prefix_append _ _)
    have hgrows := ih (Path.areNames_append.mp hl).1 hfront
    rw [List.reverse_append, List.reverse_singleton, List.singleton_append, makeAll,
      List.reverse_cons, List.reverse_reverse]
    cases h : disk.makeDirectory ((root ++ out :: names) ++ [n]) with
    | ok disk' => exact grows_of_makeDirectory hl hbelow hfront h files
    | error f =>
      cases f with
      | missing =>
        dsimp only
        cases hall : disk.makeAll (root ++ out :: names).reverse with
        | mk disk' refused =>
          rw [hall] at hgrows
          cases refused with
          | none =>
            exact hgrows.trans
              (grows_ensureDirectory hl hbelow (hgrows.isStraight hfront) files)
          | some f => exact hgrows
      | _ => exact grows_ensureDirectory hl hbelow hfront files

/-- **Making directories lets the disk grow below and adds no file.** -/
theorem grows_makeDirectories {names : List String} (hl : Path.AreNames (root ++ out :: names))
    (hstraight : disk.IsStraight (root ++ out :: names)) {es : List (String × Entry)}
    {b : ListRight} {g : Bool}
    (hroot : disk.at? root = some (directory es b g)) (files : Location → Prop) :
    Grows (root ++ [out]) files disk
      (disk.makeDirectories (Location.text (root ++ out :: names))).1 := by
  unfold makeDirectories
  rw [Path.components_text hl]
  exact grows_makeAll hl hstraight hroot files

/-- **Making directories along a straight way makes nothing else**, files and links included. -/
theorem makeDirectories_keeps (hdisk : disk.isDirectory = true) {l : Location}
    (hl : Path.AreNames l) (hstraight : disk.IsStraight l) :
    (disk.makeDirectories l.text).1.isDirectory = true ∧
      (∀ k, disk.IsStraight k → (disk.makeDirectories l.text).1.IsStraight k) ∧
      ∀ k x, x.isDirectory = false →
        ((disk.makeDirectories l.text).1.reach? k = some x ↔ disk.reach? k = some x) := by
  cases l with
  | nil =>
    have hsame : disk.makeDirectories (Location.text []) = (disk, none) := by
      cases disk with
      | directory es b g => rfl
      | file _ _ => cases hdisk
      | link _ _ => cases hdisk
    rw [hsame]
    exact ⟨hdisk, fun _ h => h, fun _ _ _ => Iff.rfl⟩
  | cons n names =>
    cases disk with
    | file _ _ => cases hdisk
    | link _ _ => cases hdisk
    | directory es b g =>
      have hbelow : Path.AreNames ([] ++ n :: names) := hl
      have hgrows : Grows ([] ++ [n]) (fun _ => False) (directory es b g)
          ((directory es b g).makeDirectories (Location.text (n :: names))).1 :=
        grows_makeDirectories hbelow hstraight rfl fun _ => False
      refine ⟨?_, fun k => hgrows.isStraight, fun k x hx => hgrows.reach?_eq_some_iff id hx⟩
      obtain ⟨es', hroot, -⟩ := hgrows.sameBeside rfl
      rw [Option.some.inj hroot]
      rfl

/-- In a directory that does not hold its name, a directory is made. -/
theorem makeDirectory_eq_put {disk : Entry} {l : Location} {n : String}
    (hl : Path.AreNames (l ++ [n])) (hpath : (l ++ [n]).text.utf8ByteSize ≤ pathLimit)
    (hname : n.utf8ByteSize ≤ nameLimit) {es : List (String × Entry)} {b : ListRight}
    (hdir : disk.reach? l = some (directory es b true)) (hnone : disk.at? (l ++ [n]) = none) :
    disk.makeDirectory (l ++ [n]) = .ok (disk.put (l ++ [n]) (ofEntries [])) := by
  obtain ⟨hfront, hn⟩ := Path.areNames_append.mp hl
  have hlookup : es.lookup n = none := by rw [← at?_child (at?_of_reach? hdir), hnone]
  unfold makeDirectory
  rw [List.getLast?_concat, List.dropLast_concat, checkPath_text hl, if_neg (Nat.not_lt.mpr hpath),
    follow_of_reach? hfront hdir (isOpen_of_reach? hdir).isStraight.self]
  dsimp only
  rw [if_neg (by simp), if_neg (hn n List.mem_cons_self).notDots, hlookup]
  dsimp only
  rw [if_neg (Nat.not_lt.mpr hname), Location.child]

/-- A directory that is reached need not be made. -/
theorem ensureDirectory_of_directory {disk : Entry} {l : Location} (hl : Path.AreNames l)
    {es : List (String × Entry)} {b : ListRight} {g : Bool}
    (hdir : disk.reach? l = some (directory es b g)) {f : AccessFault}
    (h : disk.makeDirectory l = .error f) : disk.ensureDirectory l = (disk, none) := by
  unfold ensureDirectory
  rw [h]
  dsimp only
  rw [follow_of_reach? hl hdir (noLinkAt_of_at? (at?_of_reach? hdir) (by simp))]

/-- Making a directory and its parents does nothing where the directory is there. -/
theorem makeAll_of_directory {disk : Entry} {l : Location} (hl : Path.AreNames l)
    {es : List (String × Entry)} {b : ListRight} {g : Bool}
    (hdir : disk.reach? l = some (directory es b g)) : disk.makeAll l.reverse = (disk, none) := by
  rcases List.eq_nil_or_concat l with rfl | ⟨front, n, hconcat⟩
  · exact ensureDirectory_of_directory hl hdir (f := .occupied) rfl
  · rw [List.concat_eq_append] at hconcat
    subst hconcat
    have hat := at?_of_reach? hdir
    obtain ⟨fs, b', g', hd⟩ := exists_directory_of_at? hat
    rw [List.reverse_append, List.reverse_singleton, List.singleton_append, makeAll,
      List.reverse_cons, List.reverse_reverse]
    cases hmake : disk.makeDirectory (front ++ [n]) with
    | ok disk' =>
      have hfront : disk.IsStraight front := isStraight_of_at? hd (by simp)
      have hnone := (makeDirectory_eq_ok (Path.areNames_append.mp hl).1 hfront hmake).2.1
      rw [hat] at hnone
      cases hnone
    | error f =>
      cases f with
      | missing => exact absurd hmake (makeDirectory_ne_missing hl hd)
      | _ => exact ensureDirectory_of_directory hl hdir hmake

/-- A location does not lie below any of its own children. -/
theorem concat_notPrefix (l : Location) (n : String) : ¬ l ++ [n] <+: l := by
  intro h
  have hlength := h.length_le
  rw [List.length_append, List.length_singleton] at hlength
  omega

/-- A directory that was put where nothing was changes nothing else. -/
theorem at?_put_ofEntries_nil {disk : Entry} {l k : Location} (hnone : disk.at? l = none)
    (hk : ¬ k <+: l) {front : Location} {n : String} (hl : l = front ++ [n])
    {es : List (String × Entry)} {b : ListRight} {g : Bool}
    (hdir : disk.at? front = some (directory es b g)) :
    (disk.put l (ofEntries [])).at? k = disk.at? k := by
  by_cases hbelow : l <+: k
  · obtain ⟨m, rfl⟩ := hbelow
    have hm : m ≠ [] := by
      rintro rfl
      exact hk ((List.append_nil l).symm ▸ List.prefix_refl l)
    obtain ⟨a, m, rfl⟩ := List.exists_cons_of_ne_nil hm
    have hput : (disk.put l (ofEntries [])).at? l = some (ofEntries []) := by
      rw [hl]
      exact Entry.at?_put_self hdir n _
    rw [at?_append, at?_append, hput, hnone]
    rfl
  · exact at?_put_of_notPrefix disk hbelow hk _

/-- Where nothing is at a location that may be searched for, nothing can be made in it. -/
theorem makeDirectory_eq_missing {disk : Entry} {l : Location} {n : String}
    (hl : Path.AreNames (l ++ [n])) (hpath : (l ++ [n]).text.utf8ByteSize ≤ pathLimit)
    (hshort : ∀ m ∈ l, m.utf8ByteSize ≤ nameLimit) (hopen : disk.IsOpen l)
    (hnone : disk.at? l = none) : disk.makeDirectory (l ++ [n]) = .error .missing := by
  unfold makeDirectory
  rw [List.getLast?_concat, List.dropLast_concat, checkPath_text hl,
    if_neg (Nat.not_lt.mpr hpath),
    follow_of_open (Path.areNames_append.mp hl).1 hshort hnone hopen]

/-- A directory that is not there is made in the one around it, which is there already or which is
made first with nothing beside it changed. -/
theorem exists_makeAll_concat {disk : Entry} {l : Location} {n : String}
    (hl : Path.AreNames (l ++ [n])) (hpath : (l ++ [n]).text.utf8ByteSize ≤ pathLimit)
    (hshort : ∀ m ∈ l ++ [n], m.utf8ByteSize ≤ nameLimit) (hopen : disk.IsOpen l)
    (hnone : disk.at? (l ++ [n]) = none)
    (hmade : ∃ disk', disk.makeAll l.reverse = (disk', none) ∧
      (∃ es b, disk'.reach? l = some (directory es b true)) ∧
      ∀ k, ¬ k <+: l → disk'.at? k = disk.at? k) :
    ∃ d : Entry, disk.makeAll (l ++ [n]).reverse = (d.put (l ++ [n]) (ofEntries []), none) ∧
      (∃ es b, d.reach? l = some (directory es b true)) ∧
      ∀ k, ¬ k <+: l → d.at? k = disk.at? k := by
  have hn : n.utf8ByteSize ≤ nameLimit := hshort n (by simp)
  rw [List.reverse_append, List.reverse_singleton, List.singleton_append, makeAll,
    List.reverse_cons, List.reverse_reverse]
  cases hd : disk.at? l with
  | some x =>
    obtain ⟨es, b, rfl⟩ := hopen.eq_directory hd
    have hreach := hopen.reach?_eq.trans hd
    rw [makeDirectory_eq_put hl hpath hn hreach hnone]
    exact ⟨disk, rfl, ⟨es, b, hreach⟩, fun _ _ => rfl⟩
  | none =>
    obtain ⟨disk', hall, ⟨es, b, hdir⟩, hsame⟩ := hmade
    have hnone' : disk'.at? (l ++ [n]) = none := (hsame _ (concat_notPrefix l n)).trans hnone
    have hfrontshort : ∀ m ∈ l, m.utf8ByteSize ≤ nameLimit := fun m hm =>
      hshort m (List.mem_append_left _ hm)
    rw [makeDirectory_eq_missing hl hpath hfrontshort hopen hd, hall]
    dsimp only
    unfold ensureDirectory
    rw [makeDirectory_eq_put hl hpath hn hdir hnone']
    exact ⟨disk', rfl, ⟨es, b, hdir⟩, hsame⟩

/-- **Where only directories that may be searched are on the way, a directory is made with all
around it**, and nothing else changes. -/
theorem makeAll_of_isOpen {disk : Entry} {l : Location} (hl : Path.AreNames l)
    (hpath : l.text.utf8ByteSize ≤ pathLimit) (hshort : ∀ n ∈ l, n.utf8ByteSize ≤ nameLimit)
    (hopen : disk.IsOpen l) :
    ∃ disk', disk.makeAll l.reverse = (disk', none) ∧
      (∃ es b, disk'.reach? l = some (directory es b true)) ∧
      ∀ k, ¬ k <+: l → disk'.at? k = disk.at? k := by
  induction l using List.reverseRecOn with
  | nil =>
    obtain ⟨es, b, rfl⟩ := hopen.eq_directory rfl
    exact ⟨_, makeAll_of_directory hl rfl, ⟨es, b, rfl⟩, fun _ _ => rfl⟩
  | append_singleton l n ih =>
    cases hx : disk.at? (l ++ [n]) with
    | some x =>
      obtain ⟨es, b, rfl⟩ := hopen.eq_directory hx
      have hreach := hopen.reach?_eq.trans hx
      exact ⟨disk, makeAll_of_directory hl hreach, ⟨es, b, hreach⟩, fun _ _ => rfl⟩
    | none =>
      obtain ⟨hfront, hname⟩ := Path.areNames_append.mp hl
      have hfrontopen := hopen.of_prefix (List.prefix_append l [n])
      have hfrontpath := (Path.utf8ByteSize_text_le hfront hname).trans hpath
      have hfrontshort : ∀ m ∈ l, m.utf8ByteSize ≤ nameLimit := fun m hm =>
        hshort m (List.mem_append_left _ hm)
      obtain ⟨d, hmake, ⟨es, b, hdir⟩, hsame⟩ := exists_makeAll_concat hl hpath hshort hfrontopen hx
        (ih hfront hfrontpath hfrontshort hfrontopen)
      have hx' : d.at? (l ++ [n]) = none := (hsame _ (concat_notPrefix l n)).trans hx
      refine ⟨_, hmake, ⟨[], .granted, reach?_put_self hdir n _⟩, fun k hk => ?_⟩
      rw [at?_put_ofEntries_nil hx' hk rfl (at?_of_reach? hdir)]
      exact hsame k fun h => hk (h.trans (List.prefix_append _ _))

/-! ### Writing files -/

/-- A text is put where a directory that may be searched holds nothing else than a file, or the disk
stays as it is. -/
theorem writeText_put_or_refused {l : Location} {n : String} (hl : Path.AreNames (l ++ [n]))
    (hstraight : disk.IsStraight (l ++ [n])) (time : Int) (cs : List Char) :
    (disk.writeText time (l ++ [n]).text cs =
        (disk.put (l ++ [n]) (file (Text.Utf8.encode cs) time), none) ∧
      checkPath (l ++ [n]).text = .ok () ∧
      (∃ es b, disk.reach? l = some (directory es b true)) ∧
      ∀ x, disk.at? (l ++ [n]) = some x → ∃ o m, x = file o m) ∨
    ∃ refused, disk.writeText time (l ++ [n]).text cs = (disk, some refused) := by
  unfold writeText
  cases hcheck : checkPath (l ++ [n]).text with
  | error f =>
    rw [locate_of_error disk hcheck]
    cases f with
    | missing => exact absurd rfl (ne_missing_of_checkPath hcheck)
    | _ => exact .inr ⟨_, rfl⟩
  | ok u =>
    rw [locate_text_of_ok disk hl hcheck]
    cases hx : disk.reach? (l ++ [n]) with
    | some x =>
      have hat := at?_of_reach? hx
      rw [follow_of_reach? hl hx hstraight.self]
      cases x with
      | link t m => exact absurd hat (hstraight.self t m)
      | directory _ _ _ => exact .inr ⟨_, rfl⟩
      | file o m =>
        refine .inl ⟨rfl, rfl, ?_, ?_⟩
        · rw [reach?_append, Option.bind_eq_some_iff] at hx
          obtain ⟨d, hd, hx⟩ := hx
          obtain ⟨es, b, -, rfl, -⟩ := exists_of_reach?_cons hx
          exact ⟨es, b, hd⟩
        · intro y hy
          cases hat.symm.trans hy
          exact ⟨o, m, rfl⟩
    | none =>
      obtain ⟨f, hfollow, -⟩ := follow_of_none hl hx hstraight true linkLimit
      rw [hfollow]
      cases f with
      | missing =>
        dsimp only
        rw [resolve_text hl hstraight]
        dsimp only
        rw [List.dropLast_concat]
        cases hd : disk.at? l with
        | none => exact .inr ⟨_, rfl⟩
        | some d =>
          cases d with
          | file _ _ => exact .inr ⟨_, rfl⟩
          | link _ _ => exact .inr ⟨_, rfl⟩
          | directory es b g =>
            obtain ⟨hreach, hnone⟩ := reach?_of_follow_missing hl hd hx hfollow
            exact .inl ⟨rfl, rfl, ⟨es, b, hreach⟩, by simp [hnone]⟩
      | _ => exact .inr ⟨_, rfl⟩

/-! ### What is refused -/

section

variable {disk : Entry} {l : Location} {f : AccessFault}

/-- Making a directory at a path of plain names never meets a zero character. -/
theorem makeDirectory_ne_zero (hl : Path.AreNames l) : disk.makeDirectory l ≠ .error .zero := by
  unfold makeDirectory
  split
  · nofun
  · next hcheck =>
    rintro ⟨⟩
    exact checkPath_text_ne_zero hl hcheck
  split
  · next hfollow =>
    rintro ⟨⟩
    exact follow_ne_zero disk true _ _ _ hfollow
  · split
    · nofun
    split
    · nofun
    split
    · nofun
    · split <;> nofun
  · nofun

/-- Ensuring a directory at a path of plain names never meets a zero character. -/
theorem ensureDirectory_ne_zero (hl : Path.AreNames l) {path : String}
    (h : (disk.ensureDirectory l).2 = some (f, path)) : f ≠ .zero := by
  unfold ensureDirectory at h
  split at h
  · cases h
  · next hmake =>
    split at h
    · cases h
    · cases h
      rintro rfl
      exact makeDirectory_ne_zero hl hmake

/-- Making the parents of such a directory never meets one either. -/
theorem makeAll_ne_zero (hl : Path.AreNames l) {path : String}
    (h : (disk.makeAll l.reverse).2 = some (f, path)) : f ≠ .zero := by
  induction l using List.reverseRecOn generalizing f path with
  | nil => exact ensureDirectory_ne_zero hl h
  | append_singleton l n ih =>
    rw [List.reverse_append, List.reverse_singleton, List.singleton_append, makeAll,
      List.reverse_cons, List.reverse_reverse] at h
    split at h
    · cases h
    · split at h
      · exact ensureDirectory_ne_zero hl h
      · exact ih (Path.areNames_append.mp hl).1 h
    · exact ensureDirectory_ne_zero hl h

/-- **Making directories is never refused for a zero character** in the path of a location. -/
theorem makeDirectories_ne_zero (hl : Path.AreNames l) {path : String}
    (h : (disk.makeDirectories l.text).2 = some (f, path)) : f ≠ .zero := by
  unfold makeDirectories at h
  rw [Path.components_text hl] at h
  exact makeAll_ne_zero hl h

/-- **Writing is never refused for a zero character** in the path of a location. -/
theorem writeText_ne_zero (hl : Path.AreNames l) {time : Int} {cs : List Char} {path : String}
    (h : (disk.writeText time l.text cs).2 = some (f, path)) : f ≠ .zero := by
  unfold writeText at h
  split at h
  · cases h
  · cases h
    nofun
  · split at h
    · cases h
      nofun
    · split at h <;> cases h <;> nofun
  · next hlocate =>
    cases h
    rintro rfl
    cases hcheck : checkPath l.text with
    | error f =>
      rw [locate_of_error disk hcheck] at hlocate
      cases hlocate
      exact checkPath_text_ne_zero hl hcheck
    | ok u =>
      rw [locate_text_of_ok disk hl hcheck] at hlocate
      exact follow_ne_zero disk true _ _ _ hlocate

end

/-! ### Room -/

/-- Whether a file can be written at a location, the last name of which is given. Directories that
are not there can be made. -/
structure HasRoom (disk : Entry) (l : Location) (n : String) : Prop where
  /-- The path is one that the system takes, -/
  path : (l ++ [n]).text.utf8ByteSize ≤ pathLimit
  /-- and so are the names. -/
  names : ∀ m ∈ l ++ [n], m.utf8ByteSize ≤ nameLimit
  /-- Only directories that may be searched are on the way, -/
  isOpen : disk.IsOpen l
  /-- and nothing but a file is at its end. -/
  free : ∀ x, disk.at? (l ++ [n]) = some x → ∃ o m, x = file o m

namespace HasRoom

variable {l : Location} {n : String}

/-- Where there is room there is no link, neither on the way nor at its end. -/
theorem isStraight (h : HasRoom disk l n) : disk.IsStraight (l ++ [n]) := by
  refine h.isOpen.isStraight.concat fun t m hlink => ?_
  obtain ⟨_, _, hfile⟩ := h.free _ hlink
  cases hfile

/-- Where there is room, the directory is made, no file comes about or changes, and there is room
afterwards. -/
theorem makeDirectories_eq (h : HasRoom disk l n) (hl : Path.AreNames (l ++ [n])) :
    ∃ disk', disk.makeDirectories l.text = (disk', none) ∧
      (∀ k x, x.isDirectory = false → (disk'.at? k = some x ↔ disk.at? k = some x)) ∧
      HasRoom disk' l n ∧ ∃ es b, disk'.reach? l = some (directory es b true) := by
  obtain ⟨hfront, hn⟩ := Path.areNames_append.mp hl
  obtain ⟨disk', hmake, ⟨es, b, hdir⟩, hsame⟩ := makeAll_of_isOpen hfront
    ((Path.utf8ByteSize_text_le hfront hn).trans h.path)
    (fun m hm => h.names m (List.mem_append_left _ hm)) h.isOpen
  have hopen : disk'.IsOpen l := isOpen_of_reach? hdir
  refine ⟨disk', ?_, ?_, ⟨h.path, h.names, hopen, ?_⟩, es, b, hdir⟩
  · unfold makeDirectories
    rw [Path.components_text hfront, hmake]
  · intro k x hx
    by_cases hk : k <+: l
    · -- on the way there are only directories, before and afterwards
      have hno : ∀ {d : Entry}, d.IsOpen l → d.at? k ≠ some x := by
        intro d hd hat
        obtain ⟨_, _, rfl⟩ := (hd.of_prefix hk).eq_directory hat
        cases hx
      exact iff_of_false (hno hopen) (hno h.isOpen)
    · rw [hsame k hk]
  · rw [hsame _ (concat_notPrefix l n)]
    exact h.free

/-- Where there is room and the directory is there, a text is written, and there is room
afterwards. -/
theorem writeText_eq (h : HasRoom disk l n) (hl : Path.AreNames (l ++ [n]))
    {es : List (String × Entry)} {b : ListRight} (hdir : disk.reach? l = some (directory es b true))
    (time : Int) (cs : List Char) :
    disk.writeText time (l ++ [n]).text cs =
        (disk.put (l ++ [n]) (file (Text.Utf8.encode cs) time), none) ∧
      HasRoom (disk.put (l ++ [n]) (file (Text.Utf8.encode cs) time)) l n := by
  constructor
  · unfold writeText
    have hcheck : checkPath (l ++ [n]).text = .ok () := by
      rw [checkPath_text hl, if_neg (Nat.not_lt.mpr h.path)]
    have hat := at?_child (at?_of_reach? hdir) n
    rw [locate_text_of_ok disk hl hcheck]
    cases hx : disk.at? (l ++ [n]) with
    | some x =>
      obtain ⟨o, m, rfl⟩ := h.free x hx
      have hreach : disk.reach? (l ++ [n]) = some (file o m) :=
        (reach?_concat hdir n).trans (hat.symm.trans hx)
      rw [follow_of_reach? hl hreach h.isStraight.self]
    | none =>
      rw [follow_of_child_none hl hdir (hat.symm.trans hx), if_neg (by simp),
        if_neg (Nat.not_lt.mpr (h.names n (by simp)))]
      dsimp only
      rw [resolve_text hl h.isStraight]
      dsimp only
      rw [List.dropLast_concat, at?_of_reach? hdir]
  · refine ⟨h.path, h.names, ?_, ?_⟩
    · have hput : (disk.put (l ++ [n]) (file (Text.Utf8.encode cs) time)).reach? l =
          some (directory (putName n (file (Text.Utf8.encode cs) time) es) b true) := by
        rw [reach?_put_append disk l [n] (List.cons_ne_nil n []), hdir, Option.map_some,
          put_directory_singleton]
      exact isOpen_of_reach? hput
    · intro x hx
      rw [Entry.at?_put_self (at?_of_reach? hdir)] at hx
      cases hx
      exact ⟨_, _, rfl⟩

end HasRoom

end

end ProjectSurvey.Entry
