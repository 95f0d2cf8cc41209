import ProjectSurvey.Disk.Access
import ProjectSurvey.Proofs.Disk.Tree

/-!
# Straight ways

The way to a location that passes no link (`Entry.IsStraight`). **There the path of a location leads
to the location**: a lookup finds what is there unless a directory in front may not be searched
(`follow_of_at?`), reading gives the octets of a file that is there and no others
(`reach?_of_readOctets_text`), and the path stands for the location whether or not something is
there (`resolve_text`).
-/

namespace ProjectSurvey.Entry

/-- Whether there is no link at a location. -/
def NoLinkAt (disk : Entry) (l : Location) : Prop := ∀ t m, disk.at? l ≠ some (link t m)

/-- Whether there is no link at a location or on the way to it. -/
def IsStraight (disk : Entry) (l : Location) : Prop := ∀ m, m <+: l → disk.NoLinkAt m

/-- There is no link at the end of a straight way. -/
theorem IsStraight.self {disk : Entry} {l : Location} (h : disk.IsStraight l) : disk.NoLinkAt l :=
  h l (List.prefix_refl l)

/-- Every start of a straight way is straight. -/
theorem IsStraight.of_prefix {disk : Entry} {l m : Location} (h : disk.IsStraight l)
    (hm : m <+: l) : disk.IsStraight m := fun k hk => h k (hk.trans hm)

/-- What a location holds says whether there is a link at it. -/
theorem noLinkAt_of_at? {disk : Entry} {l : Location} {x : Option Entry} (h : disk.at? l = x)
    (hx : ∀ t m, x ≠ some (link t m)) : disk.NoLinkAt l := by
  subst h
  exact hx

/-- A way stays straight if there is no link at its next name. -/
theorem IsStraight.concat {disk : Entry} {l : Location} (h : disk.IsStraight l) {n : String}
    (hn : disk.NoLinkAt (l ++ [n])) : disk.IsStraight (l ++ [n]) := by
  intro m hm
  rcases List.prefix_concat_iff.mp hm with rfl | hm
  · exact hn
  · exact h m hm

/-- In front of an entry there are directories only. -/
theorem isStraight_of_at? {disk x : Entry} {l : Location} (hx : disk.at? l = some x)
    (hlink : ∀ t m, x ≠ link t m) : disk.IsStraight l := by
  rintro m ⟨k, rfl⟩ t τ hm
  rw [at?_append, hm] at hx
  cases k with
  | nil =>
    cases hx
    exact hlink t τ rfl
  | cons n k => cases hx

/-! ### Looking up -/

/-- A way goes on from what it reaches along the names in front. -/
theorem way_append (disk : Entry) (last : Bool) {e x : Entry} {names : List String}
    (hnames : Path.AreNames names) (hx : e.reach? names = some x) (hlink : ∀ t m, x ≠ link t m)
    (l : Location) (rest : List String) :
    way disk last l e (names ++ rest) = way disk last (l ++ names) x rest := by
  induction names generalizing l e with
  | nil =>
    cases hx
    rw [List.nil_append, List.append_nil]
  | cons n names ih =>
    obtain ⟨hn, hrest⟩ := Path.areNames_cons.mp hnames
    obtain ⟨es, b, c, rfl, hlookup, hx⟩ := exists_of_reach?_cons hx
    have hnext := ih hrest hx (l.child n)
    rw [List.cons_append, way, if_neg (by simp), if_neg hn.notDots, hlookup]
    rw [show l ++ n :: names = l.child n ++ names by simp [Location.child]]
    cases c with
    | file _ _ => exact hnext
    | directory _ _ _ => exact hnext
    | link t m =>
      cases names with
      | nil =>
        cases hx
        exact absurd rfl (hlink t m)
      | cons k names =>
        obtain ⟨_, _, _, heq, -⟩ := exists_of_reach?_cons hx
        cases heq

/-- Where nothing is reached, a straight way is lost. -/
theorem way_of_none (disk : Entry) (last : Bool) {e : Entry} {names : List String}
    (hnames : Path.AreNames names) (hx : e.reach? names = none) (hstraight : e.IsStraight names)
    (l : Location) :
    ∃ f, way disk last l e names = .lost f ∧ f ≠ .zero ∧ f ≠ .tooManyLinks := by
  induction names generalizing l e with
  | nil => cases hx
  | cons n names ih =>
    obtain ⟨hn, hrest⟩ := Path.areNames_cons.mp hnames
    cases e with
    | file _ _ => exact ⟨.noDirectory, rfl, by decide, by decide⟩
    | link t m => exact absurd rfl (hstraight [] List.nil_prefix t m)
    | directory es b g =>
      cases g with
      | false => exact ⟨.denied, rfl, by decide, by decide⟩
      | true =>
        rw [way, if_neg (by simp), if_neg hn.notDots]
        cases hc : es.lookup n with
        | none =>
          dsimp only
          split
          · exact ⟨.longName, rfl, by decide, by decide⟩
          · exact ⟨.missing, rfl, by decide, by decide⟩
        | some c =>
          have hchild : (directory es b true).child? n = some c := hc
          have hbelow : c.IsStraight names := by
            intro k hk t m hlink
            refine hstraight (n :: k) (List.cons_prefix_cons.mpr ⟨rfl, hk⟩) t m ?_
            rw [at?_cons, hchild]
            exact hlink
          have hnone : c.reach? names = none := by
            rw [reach?_cons, hchild] at hx
            exact hx
          cases c with
          | file _ _ => exact ih hrest hnone hbelow (l.child n)
          | directory _ _ _ => exact ih hrest hnone hbelow (l.child n)
          | link t m => exact absurd rfl (hbelow [] List.nil_prefix t m)

/-- A way past what is there but not reached is denied. -/
theorem way_of_unreached (disk : Entry) (last : Bool) {e x : Entry} {names : List String}
    (hnames : Path.AreNames names) (hx : e.at? names = some x) (hnone : e.reach? names = none)
    (l : Location) (rest : List String) : way disk last l e (names ++ rest) = .lost .denied := by
  induction names generalizing l e with
  | nil => cases hnone
  | cons n names ih =>
    obtain ⟨hn, hrest⟩ := Path.areNames_cons.mp hnames
    rw [at?_cons, Option.bind_eq_some_iff] at hx
    obtain ⟨c, hc, hx⟩ := hx
    cases e with
    | file _ _ => cases hc
    | link _ _ => cases hc
    | directory es b g =>
      cases g with
      | false => rfl
      | true =>
        have hlookup : es.lookup n = some c := hc
        rw [reach?_cons, hc] at hnone
        have hnext := ih hrest hx hnone (l.child n)
        rw [List.cons_append, way, if_neg (by simp), if_neg hn.notDots, hlookup]
        cases c with
        | file _ _ => exact hnext
        | directory _ _ _ => exact hnext
        | link t m =>
          cases names with
          | nil => cases hnone
          | cons k names => cases hx

/-- Whether whatever is on the way to a location, or at its end, is a directory that may be
searched. -/
def IsOpen (disk : Entry) (l : Location) : Prop :=
  ∀ k, k <+: l → ∀ x, disk.at? k = some x → x.isSearchable = true

/-- Every start of an open way is open. -/
theorem IsOpen.of_prefix {disk : Entry} {l k : Location} (h : disk.IsOpen l) (hk : k <+: l) :
    disk.IsOpen k :=
  fun _ hm => h _ (hm.trans hk)

/-- An open way leads through directories, so there is no link on it. -/
theorem IsOpen.isStraight {disk : Entry} {l : Location} (h : disk.IsOpen l) :
    disk.IsStraight l := by
  intro k hk t m hlink
  cases h k hk _ hlink

/-- What stands at an open location is a directory that may be searched. -/
theorem IsOpen.eq_directory {disk x : Entry} {l : Location} (h : disk.IsOpen l)
    (hx : disk.at? l = some x) : ∃ es b, x = directory es b true := by
  have hdir := h l (List.prefix_refl l) x hx
  cases x with
  | file _ _ => cases hdir
  | link _ _ => cases hdir
  | directory es b g =>
    cases hdir
    exact ⟨es, b, rfl⟩

/-- An open way can be prolonged by a child that may be searched, if it is there at all. -/
theorem IsOpen.concat {disk : Entry} {l : Location} (h : disk.IsOpen l) {n : String}
    (hn : ∀ x, disk.at? (l ++ [n]) = some x → x.isSearchable = true) : disk.IsOpen (l ++ [n]) := by
  intro k hk
  rcases List.prefix_concat_iff.mp hk with rfl | hk
  · exact hn
  · exact h k hk

/-- On an open way, whatever is there is reached. -/
theorem IsOpen.reach?_eq {disk : Entry} {l : Location} (h : disk.IsOpen l) :
    disk.reach? l = disk.at? l := by
  refine reach?_eq_at? fun front n back hl d hd => h front ?_ d hd
  rw [hl]
  exact List.prefix_append front _

/-- The way to a directory that is reached and may be searched is open. -/
theorem isOpen_of_reach? {disk : Entry} {l : Location} {es : List (String × Entry)} {b : ListRight}
    (h : disk.reach? l = some (directory es b true)) : disk.IsOpen l := by
  rintro k ⟨m, rfl⟩ x hx
  rw [reach?_append, Option.bind_eq_some_iff] at h
  obtain ⟨y, hy, h⟩ := h
  cases hx.symm.trans (at?_of_reach? hy)
  cases m with
  | nil =>
    cases h
    rfl
  | cons n m =>
    obtain ⟨_, _, _, rfl, -⟩ := exists_of_reach?_cons h
    rfl

/-- Where there are only directories that may be searched, a way is lost for want of an entry. -/
theorem way_of_open (disk : Entry) (last : Bool) {e : Entry} {names : List String}
    (hnames : Path.AreNames names) (hshort : ∀ n ∈ names, n.utf8ByteSize ≤ nameLimit)
    (hx : e.at? names = none) (hopen : e.IsOpen names) (l : Location) :
    way disk last l e names = .lost .missing := by
  induction names generalizing l e with
  | nil => cases hx
  | cons n names ih =>
    obtain ⟨hn, hrest⟩ := Path.areNames_cons.mp hnames
    obtain ⟨hnshort, hshort⟩ := List.forall_mem_cons.mp hshort
    obtain ⟨es, b, rfl⟩ := (hopen.of_prefix List.nil_prefix).eq_directory rfl
    rw [way, if_neg (by simp), if_neg hn.notDots]
    cases hc : es.lookup n with
    | none =>
      dsimp only
      rw [if_neg (Nat.not_lt.mpr hnshort)]
    | some c =>
      have hchild : (directory es b true).child? n = some c := hc
      have hat : ∀ k, (directory es b true).at? (n :: k) = c.at? k := by
        intro k
        rw [at?_cons, hchild]
        rfl
      have hbelow : c.IsOpen names := by
        intro k hk x hx
        exact hopen (n :: k) (List.cons_prefix_cons.mpr ⟨rfl, hk⟩) x ((hat k).trans hx)
      have hnone : c.at? names = none := (hat names).symm.trans hx
      obtain ⟨fs, b', rfl⟩ := (hbelow.of_prefix List.nil_prefix).eq_directory rfl
      exact ih hrest hshort hnone hbelow (l.child n)

/-- A lookup of a location gives what the way to it reaches. -/
theorem follow_of_reach? {disk x : Entry} {l : Location} (hl : Path.AreNames l)
    (hx : disk.reach? l = some x) (hlink : disk.NoLinkAt l) (last : Bool) (links : Nat) :
    disk.follow last links [] l = .ok (l, x) := by
  have hne : ∀ t m, x ≠ link t m := by
    rintro t m rfl
    exact hlink t m (at?_of_reach? hx)
  have hway := way_append disk last hl hx hne [] []
  rw [List.append_nil, List.nil_append, way] at hway
  cases links <;>
  · rw [follow, at?, Option.getD_some, hway]

/-- A lookup of a location on a straight way fails where the way reaches nothing. -/
theorem follow_of_none {disk : Entry} {l : Location} (hl : Path.AreNames l)
    (hx : disk.reach? l = none) (hstraight : disk.IsStraight l) (last : Bool) (links : Nat) :
    ∃ f, disk.follow last links [] l = .error f ∧ f ≠ .zero ∧ f ≠ .tooManyLinks := by
  obtain ⟨f, hway, hf⟩ := way_of_none disk last hl hx hstraight []
  refine ⟨f, ?_, hf⟩
  cases links <;>
  · rw [follow, at?, Option.getD_some, hway]

/-- A lookup past what is there but not reached is denied. -/
theorem follow_append_of_unreached {disk x : Entry} {l : Location} (hl : Path.AreNames l)
    (hx : disk.at? l = some x) (hnone : disk.reach? l = none) (rest : List String) (last : Bool)
    (links : Nat) : disk.follow last links [] (l ++ rest) = .error .denied := by
  have hway := way_of_unreached disk last hl hx hnone [] rest
  cases links <;>
  · rw [follow, at?, Option.getD_some, hway]

/-- A lookup of what is there but not reached is denied. -/
theorem follow_of_unreached {disk x : Entry} {l : Location} (hl : Path.AreNames l)
    (hx : disk.at? l = some x) (hnone : disk.reach? l = none) (last : Bool) (links : Nat) :
    disk.follow last links [] l = .error .denied := by
  have h := follow_append_of_unreached hl hx hnone [] last links
  rwa [List.append_nil] at h

/-- A lookup of what is there gives it, or is denied. -/
theorem follow_of_at? {disk x : Entry} {l : Location} (hl : Path.AreNames l)
    (hx : disk.at? l = some x) (hlink : disk.NoLinkAt l) (last : Bool) (links : Nat) :
    disk.reach? l = some x ∧ disk.follow last links [] l = .ok (l, x) ∨
      disk.reach? l = none ∧ disk.follow last links [] l = .error .denied := by
  cases hreach : disk.reach? l with
  | none => exact .inr ⟨rfl, follow_of_unreached hl hx hreach last links⟩
  | some y =>
    cases hx.symm.trans (at?_of_reach? hreach)
    exact .inl ⟨rfl, follow_of_reach? hl hreach hlink last links⟩

/-- Where there are only directories that may be searched, a lookup finds nothing missing but an
entry. -/
theorem follow_of_open {disk : Entry} {l : Location} (hl : Path.AreNames l)
    (hshort : ∀ n ∈ l, n.utf8ByteSize ≤ nameLimit) (hx : disk.at? l = none)
    (hopen : disk.IsOpen l) (last : Bool) (links : Nat) :
    disk.follow last links [] l = .error .missing := by
  have hway := way_of_open disk last hl hshort hx hopen []
  cases links <;>
  · rw [follow, at?, Option.getD_some, hway]

/-- Where a directory does not hold a name, or may not be searched for it. -/
theorem follow_of_child_none {disk : Entry} {l : Location} {n : String}
    (hl : Path.AreNames (l ++ [n])) {es : List (String × Entry)} {b : ListRight} {g : Bool}
    (hdir : disk.reach? l = some (directory es b g)) (hn : es.lookup n = none) (last : Bool)
    (links : Nat) :
    disk.follow last links [] (l ++ [n]) =
      .error (if !g then .denied else if nameLimit < n.utf8ByteSize then .longName
        else .missing) := by
  obtain ⟨hfront, hname⟩ := Path.areNames_append.mp hl
  have hway := way_append disk last hfront hdir nofun [] [n]
  rw [List.nil_append, way, if_neg (hname n List.mem_cons_self).notDots, hn] at hway
  cases links <;>
  · rw [follow, at?, Option.getD_some, hway]
    cases g <;> rfl

/-! ### Paths that the system takes -/

/-- A path that passes the check holds no zero character. -/
theorem holdsZero_of_checkPath {path : String} (h : checkPath path = .ok ()) :
    Path.holdsZero path = false := by
  unfold checkPath at h
  split at h
  · cases h
  · next hzero => simpa using hzero

/-- A path is never refused because nothing is there. -/
theorem ne_missing_of_checkPath {path : String} {f : AccessFault} (h : checkPath path = .error f) :
    f ≠ .missing := by
  rintro rfl
  unfold checkPath at h
  split at h
  · cases h
  · split at h <;> cases h

/-- A path that passes the check is followed from the root, with a budget of links. -/
theorem locate_of_ok (disk : Entry) {path : String} (hcheck : checkPath path = .ok ())
    (last : Bool) :
    disk.locate last path = disk.follow last linkLimit [] (Path.components path) := by
  unfold locate
  rw [hcheck]
  rfl

/-- A path that fails the check leads nowhere, for the reason the check gives. -/
theorem locate_of_error (disk : Entry) {path : String} {f : AccessFault}
    (hcheck : checkPath path = .error f) (last : Bool) : disk.locate last path = .error f := by
  unfold locate
  rw [hcheck]
  rfl

/-! ### Paths of locations -/

/-- The path of a location of plain names fails the check only by its length. -/
theorem checkPath_text {l : Location} (hl : Path.AreNames l) :
    checkPath l.text = if pathLimit < l.text.utf8ByteSize then .error .longName else .ok () := by
  unfold checkPath
  rw [Path.holdsZero_text hl, if_neg Bool.false_ne_true]

/-- The path of a location of plain names never fails by a zero character. -/
theorem checkPath_text_ne_zero {l : Location} (hl : Path.AreNames l) :
    checkPath l.text ≠ .error .zero := by
  rw [checkPath_text hl]
  split <;> nofun

/-- Following names, as against checking a path, never meets a zero character. -/
theorem way_ne_lost_zero (disk : Entry) (last : Bool) (l : Location) (e : Entry)
    (names : List String) : way disk last l e names ≠ .lost .zero := by
  induction names generalizing l e with
  | nil => rintro ⟨⟩
  | cons n rest ih =>
    cases e with
    | file _ _ => rintro ⟨⟩
    | link _ _ => rintro ⟨⟩
    | directory es b g =>
      rw [way]
      split
      · rintro ⟨⟩
      split
      · exact ih _ _
      split
      · split <;> rintro ⟨⟩
      · split <;> rintro ⟨⟩
      · exact ih _ _

/-- Only a path can hold a zero character, and no name on the way. -/
theorem follow_ne_zero (disk : Entry) (last : Bool) (links : Nat) (l : Location)
    (names : List String) : disk.follow last links l names ≠ .error .zero := by
  induction links generalizing l names with
  | zero =>
    rw [follow]
    split
    · rintro ⟨⟩
    · next hway =>
      rintro ⟨⟩
      exact way_ne_lost_zero disk last _ _ _ hway
    · rintro ⟨⟩
  | succ links ih =>
    rw [follow]
    split
    · rintro ⟨⟩
    · next hway =>
      rintro ⟨⟩
      exact way_ne_lost_zero disk last _ _ _ hway
    · exact ih _ _

/-- A lookup of the path of a location follows its names, if the system takes the path. -/
theorem locate_text_of_ok (disk : Entry) {l : Location} (hl : Path.AreNames l)
    (hcheck : checkPath l.text = .ok ()) (last : Bool) :
    disk.locate last l.text = disk.follow last linkLimit [] l := by
  rw [locate_of_ok disk hcheck, Path.components_text hl]

/-- What a directory holds is found among its entries by name. -/
theorem at?_child {disk : Entry} {l : Location} {es : List (String × Entry)} {b : ListRight}
    {g : Bool} (hdir : disk.at? l = some (directory es b g)) (n : String) :
    disk.at? (l ++ [n]) = es.lookup n := by
  rw [at?_append, hdir, Option.bind_some, at?_cons]
  show (es.lookup n).bind (fun c => c.at? []) = es.lookup n
  cases es.lookup n <;> rfl

/-- What a lookup says is missing in a directory was searched for there: the directory is reached
and may be searched, and does not hold the name. -/
theorem reach?_of_follow_missing {disk : Entry} {l : Location} {n : String}
    (hl : Path.AreNames (l ++ [n])) {es : List (String × Entry)} {b : ListRight} {g last : Bool}
    {links : Nat} (hd : disk.at? l = some (directory es b g)) (hx : disk.reach? (l ++ [n]) = none)
    (hfollow : disk.follow last links [] (l ++ [n]) = .error .missing) :
    disk.reach? l = some (directory es b true) ∧ disk.at? (l ++ [n]) = none := by
  have hreach : disk.reach? l = some (directory es b g) := by
    cases hreach : disk.reach? l with
    | none =>
      rw [follow_append_of_unreached (Path.areNames_append.mp hl).1 hd hreach] at hfollow
      cases hfollow
    | some d => exact (at?_of_reach? hreach).symm.trans hd
  have hnone : disk.at? (l ++ [n]) = none := by
    cases hat : disk.at? (l ++ [n]) with
    | none => rfl
    | some x =>
      rw [follow_of_unreached hl hat hx] at hfollow
      cases hfollow
  rw [follow_of_child_none hl hreach ((at?_child hd n).symm.trans hnone)] at hfollow
  cases g with
  | false => cases hfollow
  | true => exact ⟨hreach, hnone⟩

/-- If the system takes the path of what is in a directory, it takes the path of the directory. -/
theorem checkPath_text_of_concat {l : Location} {n : String} (hl : Path.AreNames (l ++ [n]))
    (h : checkPath (l ++ [n]).text = .ok ()) : checkPath l.text = .ok () := by
  obtain ⟨hfront, hname⟩ := Path.areNames_append.mp hl
  have hle := Path.utf8ByteSize_text_le hfront hname
  rw [checkPath_text hl] at h
  rw [checkPath_text hfront, if_neg]
  intro hlong
  rw [if_pos (hlong.trans_le hle)] at h
  cases h

/-- Whether there is something by a name in a directory is told where the directory may be
searched. -/
theorem existsAt_child {disk : Entry} {l : Location} {n : String} {es : List (String × Entry)}
    {b : ListRight} {g : Bool} (hl : Path.AreNames (l ++ [n])) (hshort : n.utf8ByteSize ≤ nameLimit)
    (hdir : disk.reach? l = some (directory es b g)) (hlink : disk.NoLinkAt (l ++ [n])) :
    disk.existsAt (l ++ [n]).text = (checkPath (l ++ [n]).text).bind fun _ =>
      if g then .ok (es.lookup n).isSome else .error .denied := by
  unfold existsAt seek
  cases hcheck : checkPath (l ++ [n]).text with
  | error f =>
    rw [locate_of_error disk hcheck]
    rw [checkPath_text hl] at hcheck
    split at hcheck
    · cases hcheck
      rfl
    · cases hcheck
  | ok u =>
    rw [locate_text_of_ok disk hl hcheck]
    cases hx : es.lookup n with
    | none =>
      rw [follow_of_child_none hl hdir hx, if_neg (Nat.not_lt.mpr hshort)]
      cases g <;> rfl
    | some x =>
      have hat : disk.at? (l ++ [n]) = some x := (at?_child (at?_of_reach? hdir) n).trans hx
      have hreach : disk.reach? (l ++ [n]) = if g then some x else none := by
        rw [reach?_concat hdir]
        cases g with
        | false => rfl
        | true => exact hx
      rcases follow_of_at? hl hat hlink true linkLimit with ⟨hsome, hfollow⟩ | ⟨hnone, hfollow⟩
      · rw [hfollow]
        cases g with
        | false => cases hreach.symm.trans hsome
        | true => rfl
      · rw [hfollow]
        cases g with
        | false => rfl
        | true => cases hreach.symm.trans hnone

/-- A lookup of a name in a directory depends on what the name stands for there and on whether the
directory may be searched. -/
theorem locate_text_child_eq {disk disk' : Entry} {l : Location} {n : String}
    {es es' : List (String × Entry)} {b b' : ListRight} {g : Bool} (hl : Path.AreNames (l ++ [n]))
    (hdir : disk.reach? l = some (directory es b g))
    (hdir' : disk'.reach? l = some (directory es' b' g))
    (hn : es'.lookup n = es.lookup n) (hlink : disk.NoLinkAt (l ++ [n])) (last : Bool) :
    disk'.locate last (l ++ [n]).text = disk.locate last (l ++ [n]).text := by
  cases hcheck : checkPath (l ++ [n]).text with
  | error f => rw [locate_of_error disk hcheck, locate_of_error disk' hcheck]
  | ok u =>
    rw [locate_text_of_ok disk hl hcheck, locate_text_of_ok disk' hl hcheck]
    cases hx : es.lookup n with
    | none =>
      rw [follow_of_child_none hl hdir hx, follow_of_child_none hl hdir' (hn.trans hx)]
    | some x =>
      have hat : disk.at? (l ++ [n]) = some x := (at?_child (at?_of_reach? hdir) n).trans hx
      have hat' : disk'.at? (l ++ [n]) = some x :=
        (at?_child (at?_of_reach? hdir') n).trans (hn.trans hx)
      have hlink' : disk'.NoLinkAt (l ++ [n]) := by
        intro t m h
        rw [hat', ← hat] at h
        exact hlink t m h
      have hreach := reach?_concat hdir n
      have hreach' := reach?_concat hdir' n
      cases g with
      | false =>
        rw [follow_of_unreached hl hat hreach, follow_of_unreached hl hat' hreach']
      | true =>
        rw [follow_of_reach? hl (hreach.trans hx) hlink,
          follow_of_reach? hl (hreach'.trans (hn.trans hx)) hlink']

/-- What can be read at the end of a straight way is the file there. -/
theorem reach?_of_readOctets_text {disk : Entry} {l : Location} (hl : Path.AreNames l)
    (hstraight : disk.IsStraight l) {octets : List UInt8}
    (h : disk.readOctets l.text = .ok octets) : ∃ m, disk.reach? l = some (file octets m) := by
  unfold readOctets at h
  cases hcheck : checkPath l.text with
  | error f =>
    rw [locate_of_error disk hcheck] at h
    cases h
  | ok u =>
    rw [locate_text_of_ok disk hl hcheck] at h
    cases hx : disk.reach? l with
    | none =>
      obtain ⟨f, hfollow, -⟩ := follow_of_none hl hx hstraight true linkLimit
      rw [hfollow] at h
      cases h
    | some x =>
      rw [follow_of_reach? hl hx hstraight.self] at h
      cases x with
      | file o m =>
        cases h
        exact ⟨m, rfl⟩
      | directory _ _ _ => cases h
      | link t m => exact absurd (at?_of_reach? hx) (hstraight.self t m)

/-- A file that is reached is read if the system takes its path. -/
theorem readOctets_text_of_file {disk : Entry} {l : Location} {octets : List UInt8} {m : Int}
    (hl : Path.AreNames l) (h : disk.reach? l = some (file octets m)) :
    disk.readOctets l.text = (checkPath l.text).map fun _ => octets := by
  unfold readOctets
  cases hcheck : checkPath l.text with
  | error f =>
    rw [locate_of_error disk hcheck]
    rfl
  | ok u =>
    rw [locate_text_of_ok disk hl hcheck,
      follow_of_reach? hl h (noLinkAt_of_at? (at?_of_reach? h) (by simp))]
    rfl

/-- A file that is there but not reached is not read. -/
theorem readOctets_text_of_unreached {disk x : Entry} {l : Location} (hl : Path.AreNames l)
    (hx : disk.at? l = some x) (h : disk.reach? l = none) :
    disk.readOctets l.text = (checkPath l.text).bind fun _ => .error .denied := by
  unfold readOctets
  cases hcheck : checkPath l.text with
  | error f =>
    rw [locate_of_error disk hcheck]
    rfl
  | ok u =>
    rw [locate_text_of_ok disk hl hcheck, follow_of_unreached hl hx h]
    rfl

/-- A file that is there on two disks reads the same if it is reached on both or on none. -/
theorem readOctets_text_eq {disk disk' : Entry} {l : Location} {octets : List UInt8} {m : Int}
    (hl : Path.AreNames l) (hx : disk.at? l = some (file octets m))
    (hx' : disk'.at? l = some (file octets m)) (hreach : disk'.reach? l = disk.reach? l) :
    disk'.readOctets l.text = disk.readOctets l.text := by
  cases hsome : disk.reach? l with
  | none =>
    rw [readOctets_text_of_unreached hl hx' (hreach.trans hsome),
      readOctets_text_of_unreached hl hx hsome]
  | some x =>
    cases hx.symm.trans (at?_of_reach? hsome)
    rw [readOctets_text_of_file hl (hreach.trans hsome), readOctets_text_of_file hl hsome]

/-- Nothing is read where there is no file. -/
theorem readOctets_text_of_none {disk : Entry} {l : Location} (hl : Path.AreNames l)
    (hstraight : disk.IsStraight l) (h : ∀ octets m, disk.at? l ≠ some (file octets m)) :
    ∃ f, disk.readOctets l.text = .error f := by
  cases hread : disk.readOctets l.text with
  | error f => exact ⟨f, rfl⟩
  | ok octets =>
    obtain ⟨m, hm⟩ := reach?_of_readOctets_text hl hstraight hread
    exact absurd (at?_of_reach? hm) (h octets m)

/-- Reading the path of a location on a straight way never fails for a zero character. -/
theorem readOctets_text_ne_zero {disk : Entry} {l : Location} (hl : Path.AreNames l)
    (hstraight : disk.IsStraight l) : disk.readOctets l.text ≠ .error .zero := by
  unfold readOctets
  cases hcheck : checkPath l.text with
  | error f =>
    rw [locate_of_error disk hcheck]
    intro h
    cases h
    exact checkPath_text_ne_zero hl hcheck
  | ok u =>
    rw [locate_text_of_ok disk hl hcheck]
    cases hx : disk.reach? l with
    | none =>
      obtain ⟨f, hfollow, hzero, -⟩ := follow_of_none hl hx hstraight true linkLimit
      rw [hfollow]
      intro h
      exact hzero (Except.error.inj h)
    | some x =>
      rw [follow_of_reach? hl hx hstraight.self]
      cases x <;> nofun

/-- What the path of a location on a straight way leads to is reached there. -/
theorem reach?_of_seek_text {disk e : Entry} {l : Location} (hl : Path.AreNames l)
    (hstraight : disk.IsStraight l) (hseek : disk.seek l.text = .ok (some e)) :
    disk.reach? l = some e := by
  unfold seek at hseek
  cases hcheck : checkPath l.text with
  | error f =>
    rw [locate_of_error disk hcheck] at hseek
    dsimp only at hseek
    split at hseek <;> cases hseek
  | ok u =>
    rw [locate_text_of_ok disk hl hcheck] at hseek
    cases hx : disk.reach? l with
    | none =>
      obtain ⟨f, hfollow, -⟩ := follow_of_none hl hx hstraight true linkLimit
      rw [hfollow] at hseek
      dsimp only at hseek
      split at hseek <;> cases hseek
    | some x =>
      rw [follow_of_reach? hl hx hstraight.self] at hseek
      cases hseek
      rfl

/-- What the path of a directory leads to is the directory. -/
theorem seek_text_of_directory {disk e top : Entry} {l : Location} (htree : disk.IsTree)
    (hl : disk.at? l = some top) (htop : top.isDirectory = true)
    (hseek : disk.seek l.text = .ok (some e)) : top = e := by
  have hlink : ∀ t m, top ≠ .link t m := by
    rintro t m rfl
    cases htop
  have hreach := reach?_of_seek_text (htree.areNames_of_at? hl).1 (isStraight_of_at? hl hlink) hseek
  exact Option.some.inj (hl.symm.trans (at?_of_reach? hreach))

/-! ### Resolving -/

/-- Resolving names that meet no link appends them to the location. -/
theorem resolveWith_eq_append (disk : Entry)
    (next : Location → String → Except (List String) Location) (l : Location)
    {names : List String} (hnames : Path.AreNames names)
    (hlink : ∀ m, m <+: names → m ≠ [] → disk.NoLinkAt (l ++ m)) :
    resolveWith disk next l names = .ok (l ++ names) := by
  induction names generalizing l with
  | nil => rw [resolveWith, List.append_nil]
  | cons n names ih =>
    obtain ⟨hn, hrest⟩ := Path.areNames_cons.mp hnames
    have hhead := hlink [n] (List.cons_prefix_cons.mpr ⟨rfl, List.nil_prefix⟩) (by simp)
    have hnext := ih (l.child n) hrest (by
      intro m hm hne
      have h := hlink (n :: m) (List.cons_prefix_cons.mpr ⟨rfl, hm⟩) (by simp)
      rwa [show l ++ n :: m = l.child n ++ m by simp [Location.child]] at h)
    rw [resolveWith, if_neg hn.notDots,
      show l ++ n :: names = l.child n ++ names by simp [Location.child]]
    cases hx : disk.reach? (l.child n) with
    | none => exact hnext
    | some x =>
      cases x with
      | file _ _ => exact hnext
      | directory _ _ _ => exact hnext
      | link t m => exact absurd (at?_of_reach? hx) (hhead t m)

/-- The path of a location stands for it, whether or not something is there. -/
theorem resolve_text {disk : Entry} {l : Location} (hl : Path.AreNames l)
    (hstraight : disk.IsStraight l) : disk.resolve l.text = .ok l := by
  unfold resolve
  rw [Path.holdsZero_text hl, if_neg Bool.false_ne_true, Path.components_text hl, resolveFrom,
    resolveWith_eq_append disk _ [] hl, List.nil_append]
  intro m hm _
  exact hstraight m hm

/-- Resolving yields path components when the step over a link does. -/
theorem areComponents_of_resolveWith {disk : Entry}
    {link : Location → String → Except (List String) Location}
    (hlink : ∀ m t l, Path.AreComponents m → link m t = .ok l → Path.AreComponents l)
    {l l' : Location} {names : List String} (hl : Path.AreComponents l)
    (hnames : Path.AreComponents names) (h : resolveWith disk link l names = .ok l') :
    Path.AreComponents l' := by
  induction names generalizing l with
  | nil =>
    cases h
    exact hl
  | cons n names ih =>
    obtain ⟨hn, hrest⟩ := List.forall_mem_cons.mp hnames
    rw [resolveWith] at h
    have hchild : Path.AreComponents (l.child n) :=
      List.forall_mem_append.mpr ⟨hl, List.forall_mem_singleton.mpr hn⟩
    split at h
    · exact ih (fun m hm => hl m (List.dropLast_subset _ hm)) hrest h
    · split at h
      · split at h
        · next hlinked => exact ih (hlink _ _ _ hchild hlinked) hrest h
        · cases h
      · exact ih hchild hrest h

/-- Resolving with a budget of links yields path components. -/
theorem areComponents_of_resolveFrom {disk : Entry} {links : Nat} {active : List Location}
    {l l' : Location} {names : List String} (hl : Path.AreComponents l)
    (hnames : Path.AreComponents names) (h : resolveFrom disk links active l names = .ok l') :
    Path.AreComponents l' := by
  induction links generalizing active l names l' with
  | zero => cases h
  | succ links ih =>
    refine areComponents_of_resolveWith ?_ hl hnames h
    intro m t k hm hk
    split at hk
    · cases hk
    · refine ih ?_ (Path.areComponents_components t) hk
      split
      · exact fun n hn => absurd hn List.not_mem_nil
      · exact fun n hn => hm n (List.dropLast_subset _ hn)

/-- What a path stands for is a list of components. -/
theorem areComponents_of_resolve {disk : Entry} {path : String} {l : Location}
    (h : disk.resolve path = .ok l) : Path.AreComponents l := by
  unfold resolve at h
  split at h
  · cases h
  · split at h
    · next hfrom =>
      cases h
      exact areComponents_of_resolveFrom (fun n hn => absurd hn List.not_mem_nil)
        (Path.areComponents_components path) hfrom
    · dsimp only at h
      split at h
      · cases h
      · rw [← Except.ok.inj h]
        exact Path.areComponents_components _

end ProjectSurvey.Entry
