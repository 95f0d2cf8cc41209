import ProjectSurvey.Proofs.Disk.Growth

/-!
# Disks without links

Where no link is, a path leads where its names lead, each step up taking the last name away
(`Location.along`). **So a path stands for one location, whatever else is on the disk**
(`IsUnlinked.resolve_eq`), and a lookup that comes to an entry comes to that location
(`IsUnlinked.of_follow`). Directories are made and files written at such locations and nowhere else
(`IsUnlinked.isMade_makeDirectories`, `IsUnlinked.grows_writeText`), with whatever steps up the path
holds.
-/

namespace ProjectSurvey

namespace Location

/-- The location one step further: below by a name, above by two dots. -/
def step (l : Location) (n : String) : Location := if n = ".." then l.dropLast else l.child n

/-- The location to which steps lead. -/
def along (l : Location) (names : List String) : Location := names.foldl step l

variable {l : Location} {names more : List String} {n : String}

/-- No steps lead nowhere else. -/
@[simp] theorem along_nil (l : Location) : along l [] = l := rfl

/-- The first step is taken first. -/
@[simp] theorem along_cons (l : Location) (n : String) (names : List String) :
    along l (n :: names) = along (l.step n) names := rfl

/-- Steps in two parts are taken one part after the other. -/
theorem along_append (l : Location) (names more : List String) :
    along l (names ++ more) = along (along l names) more := List.foldl_append

/-- A step to a plain name goes down to it. -/
theorem step_of_isName (l : Location) (hn : Path.IsName n) : l.step n = l ++ [n] :=
  if_neg hn.notDots

/-- Steps to plain names append them. -/
theorem along_of_areNames (l : Location) (h : Path.AreNames names) :
    along l names = l ++ names := by
  induction names generalizing l with
  | nil => simp
  | cons n names ih =>
    obtain ⟨hn, hnames⟩ := Path.areNames_cons.mp h
    rw [along_cons, step_of_isName l hn, ih _ hnames, List.append_assoc, List.singleton_append]

/-- Steps from a location of plain names end at one, parents included. -/
theorem areNames_along (hl : Path.AreNames l) (h : Path.AreSteps names) :
    Path.AreNames (along l names) := by
  induction names generalizing l with
  | nil => exact hl
  | cons n names ih =>
    obtain ⟨hn, hnames⟩ := List.forall_mem_cons.mp h
    refine ih ?_ hnames
    rcases hn with rfl | hn
    · exact fun m hm => hl m (List.dropLast_subset l hm)
    · rw [step_of_isName l hn, Path.areNames_append]
      exact ⟨hl, by simpa using hn⟩

end Location

namespace Entry

/-- Whether there is no link on a disk. -/
def IsUnlinked (disk : Entry) : Prop := ∀ l, disk.NoLinkAt l

/-- A child has no more links than the directory it is in. -/
theorem linkCount_le_of_lookup {es : List (String × Entry)} {n : String} {c : Entry}
    (h : es.lookup n = some c) : c.linkCount ≤ linkCountOf es := by
  have hmem := mem_of_lookup h
  induction es with
  | nil => cases hmem
  | cons p es ih =>
    obtain ⟨m, x⟩ := p
    rw [linkCountOf]
    rcases List.mem_cons.mp hmem with heq | hmem
    · cases heq
      omega
    · rw [List.lookup_cons] at h
      by_cases hm : n = m
      · rw [hm, beq_self_eq_true] at h
        cases h
        omega
      · rw [beq_eq_false_iff_ne.mpr hm] at h
        have := ih h hmem
        omega

/-- What stands at a location has no more links than the disk. -/
theorem linkCount_le_of_at? {disk x : Entry} {l : Location} (h : disk.at? l = some x) :
    x.linkCount ≤ disk.linkCount := by
  induction l generalizing disk with
  | nil =>
    cases h
    omega
  | cons n l ih =>
    rw [at?_cons, Option.bind_eq_some_iff] at h
    obtain ⟨c, hc, h⟩ := h
    cases disk with
    | file _ _ => cases hc
    | link _ _ => cases hc
    | directory es b g => exact (ih h).trans (linkCount_le_of_lookup hc)

/-- A disk with no link to count has none at any location. -/
theorem isUnlinked_of_linkCount {disk : Entry} (h : disk.linkCount = 0) : disk.IsUnlinked := by
  intro l t m hlink
  have hle := linkCount_le_of_at? hlink
  rw [h] at hle
  exact absurd hle (by simp [linkCount])

/-- Growth adds no link to a disk without any. -/
theorem Grows.isUnlinked {top : Location} {files : Location → Prop} {disk disk' : Entry}
    (h : Grows top files disk disk') (hdisk : disk.IsUnlinked) : disk'.IsUnlinked :=
  fun l => h.noLinkAt (hdisk l)

/-- Whether steps lead through directories from the root of a disk, the end included. -/
def HasWay (disk : Entry) (names : List String) : Prop :=
  ∀ k, k <+: names → ∃ es b g, disk.at? (Location.along [] k) = some (directory es b g)

/-- A way is prolonged by one step from a directory that is there. -/
theorem HasWay.concat {disk : Entry} {names : List String} {n : String} (h : disk.HasWay names)
    {es : List (String × Entry)} {b : ListRight} {g : Bool}
    (hn : disk.at? ((Location.along [] names).step n) = some (directory es b g)) :
    disk.HasWay (names ++ [n]) := by
  intro k hk
  rcases List.prefix_concat_iff.mp hk with rfl | hk
  · exact ⟨es, b, g, by rwa [Location.along_append]⟩
  · exact h k hk

/-- A way stays a way on a grown disk. -/
theorem Grows.hasWay {top : Location} {files : Location → Prop} {disk disk' : Entry}
    (h : Grows top files disk disk') {names : List String} (hway : disk.HasWay names) :
    disk'.HasWay names := by
  intro k hk
  obtain ⟨es, b, g, hdir⟩ := hway k hk
  obtain ⟨es', hdir'⟩ := h.exists_directory hdir
  exact ⟨es', b, g, hdir'⟩

/-- What comes of making a directory with all directories around it: directories and nothing else,
and a way to it unless it was refused. -/
structure IsMade (disk : Entry) (names : List String) (c : Change) : Prop where
  /-- Directories are added. -/
  grows : Grows [] (fun _ => False) disk c.1
  /-- There is a way to the directory. -/
  hasWay : c.2 = none → c.1.HasWay names

/-- The directory around an entry that is there is there. -/
theorem at?_dropLast {disk x : Entry} {l : Location} (h : disk.at? l = some x) :
    ∃ y, disk.at? l.dropLast = some y := by
  rcases List.eq_nil_or_concat l with rfl | ⟨front, n, hconcat⟩
  · exact ⟨x, h⟩
  · rw [List.concat_eq_append] at hconcat
    subst hconcat
    obtain ⟨y, hy, -⟩ := Option.bind_eq_some_iff.mp ((at?_append disk front [n]).symm.trans h)
    exact ⟨y, by rwa [List.dropLast_concat]⟩

namespace IsUnlinked

variable {disk : Entry} (h : disk.IsUnlinked)

include h

/-- Without links every way is straight. -/
theorem isStraight (l : Location) : disk.IsStraight l := fun m _ => h m

/-! ### Ways -/

/-- In a directory that may be searched, a way goes on to where its first step leads. -/
theorem way_cons (last : Bool) {l : Location} {es : List (String × Entry)} {b : ListRight}
    (hdir : disk.at? l = some (directory es b true)) (n : String) {x : Entry}
    (hx : disk.at? (l.step n) = some x) (rest : List String) :
    way disk last l (directory es b true) (n :: rest) = way disk last (l.step n) x rest := by
  rw [way, if_neg (by simp)]
  unfold Location.step at hx ⊢
  by_cases hn : n = ".."
  · rw [if_pos hn] at hx ⊢
    rw [if_pos hn, hx, Option.getD_some]
  · rw [if_neg hn] at hx ⊢
    have hlookup : es.lookup n = some x := (at?_child hdir n).symm.trans hx
    rw [if_neg hn, hlookup]
    cases x with
    | file _ _ => rfl
    | directory _ _ _ => rfl
    | link t m => exact absurd hx (h _ t m)

omit h in
/-- Where its first step leads nowhere, a way is lost for want of an entry, or the directory may not
be searched. -/
theorem way_cons_of_none (last : Bool) {l : Location} {es : List (String × Entry)} {b : ListRight}
    {g : Bool} (hdir : disk.at? l = some (directory es b g)) {n : String}
    (hx : disk.at? (l.step n) = none) (rest : List String) :
    way disk last l (directory es b g) (n :: rest) =
      .lost (if !g then .denied else if nameLimit < n.utf8ByteSize then .longName
        else .missing) := by
  unfold Location.step at hx
  by_cases hn : n = ".."
  · rw [if_pos hn] at hx
    obtain ⟨y, hy⟩ := at?_dropLast hdir
    rw [hy] at hx
    cases hx
  · rw [if_neg hn] at hx
    have hlookup : es.lookup n = none := (at?_child hdir n).symm.trans hx
    rw [way, if_neg hn, hlookup]
    cases g <;> rfl

omit h in
/-- A way never goes on from a directory that may not be searched. -/
theorem way_cons_of_unsearchable (last : Bool) (l : Location) (es : List (String × Entry))
    (b : ListRight) (n : String) (rest : List String) :
    way disk last l (directory es b false) (n :: rest) = .lost .denied := rfl

/-- What a way comes to is at the location to which its steps lead, and in front of it there are
directories. -/
theorem of_way {last : Bool} {l k : Location} {e x : Entry} {names : List String}
    (he : disk.at? l = some e) (hway : way disk last l e names = .found k x) :
    k = l.along names ∧ disk.at? k = some x ∧ ∀ m n rest, names = m ++ n :: rest →
      ∃ es b g, disk.at? (l.along m) = some (directory es b g) := by
  induction names generalizing l e with
  | nil =>
    cases hway
    refine ⟨rfl, he, ?_⟩
    intro m n rest hsplit
    simp at hsplit
  | cons n names ih =>
    cases e with
    | file _ _ => cases hway
    | link t m => exact absurd he (h l t m)
    | directory es b g =>
      cases hx : disk.at? (l.step n) with
      | none =>
        rw [way_cons_of_none last he hx] at hway
        cases hway
      | some y =>
        cases g with
        | false => cases hway
        | true =>
          rw [h.way_cons last he n hx] at hway
          obtain ⟨hk, hat, hdirs⟩ := ih hx hway
          refine ⟨hk, hat, ?_⟩
          intro m n' rest hsplit
          cases m with
          | nil => exact ⟨es, b, true, he⟩
          | cons m' m =>
            rw [List.cons_append, List.cons.injEq] at hsplit
            obtain ⟨rfl, hsplit⟩ := hsplit
            exact hdirs m n' rest hsplit

/-- Without links the way never stops at one. -/
theorem way_ne_link {last : Bool} {l k : Location} {e : Entry} {names rest : List String}
    {target : String} (he : disk.at? l = some e) :
    way disk last l e names ≠ .link k target rest := by
  induction names generalizing l e with
  | nil => nofun
  | cons n names ih =>
    cases e with
    | file _ _ => nofun
    | link t m => exact absurd he (h l t m)
    | directory es b g =>
      cases hx : disk.at? (l.step n) with
      | none =>
        rw [way_cons_of_none last he hx]
        nofun
      | some y =>
        cases g with
        | false => nofun
        | true =>
          rw [h.way_cons last he n hx]
          exact ih hx

/-- Through directories a way goes on to where its steps lead, or one of them may not be
searched. -/
theorem way_append (last : Bool) {l : Location} {e x : Entry} {names : List String}
    (he : disk.at? l = some e) (hx : disk.at? (l.along names) = some x)
    (hdirs : ∀ m n rest, names = m ++ n :: rest →
      ∃ es b g, disk.at? (l.along m) = some (directory es b g)) (more : List String) :
    way disk last l e (names ++ more) = .lost .denied ∨
      way disk last l e (names ++ more) = way disk last (l.along names) x more := by
  induction names generalizing l e with
  | nil =>
    cases he.symm.trans hx
    exact .inr rfl
  | cons n names ih =>
    obtain ⟨es, b, g, hdir⟩ := hdirs [] n names rfl
    cases he.symm.trans hdir
    have hnext : ∃ y, disk.at? (l.step n) = some y := by
      cases names with
      | nil => exact ⟨x, hx⟩
      | cons n' names =>
        obtain ⟨es', b', g', hdir'⟩ := hdirs [n] n' names rfl
        exact ⟨_, hdir'⟩
    obtain ⟨y, hy⟩ := hnext
    cases g with
    | false => exact .inl (way_cons_of_unsearchable last l es b n (names ++ more))
    | true =>
      rw [List.cons_append, h.way_cons last he n hy, Location.along_cons]
      refine ih hy hx ?_
      intro m n' rest hsplit
      exact hdirs (n :: m) n' rest (by rw [hsplit, List.cons_append])

/-! ### Looking up -/

/-- Without links a path is followed in one go, whatever the budget. -/
theorem follow_eq (last : Bool) (links : Nat) (names : List String) :
    disk.follow last links [] names =
      match way disk last [] disk names with
      | .found l e => .ok (l, e)
      | .lost f => .error f
      | .link .. => .error .tooManyLinks := by
  have hway : ∀ k target rest, way disk last [] disk names ≠ .link k target rest :=
    fun _ _ _ => h.way_ne_link rfl
  cases hw : way disk last [] disk names with
  | found l e => cases links <;> rw [follow, at?, Option.getD_some, hw]
  | lost f => cases links <;> rw [follow, at?, Option.getD_some, hw]
  | link k target rest => exact absurd hw (hway k target rest)

/-- A path that leads somewhere leads to where its steps go, through directories all the way. -/
theorem of_follow {last : Bool} {links : Nat} {names : List String} {l : Location} {x : Entry}
    (hfollow : disk.follow last links [] names = .ok (l, x)) :
    l = Location.along [] names ∧ disk.at? l = some x ∧ ∀ m n rest, names = m ++ n :: rest →
      ∃ es b g, disk.at? (Location.along [] m) = some (directory es b g) := by
  rw [h.follow_eq] at hfollow
  cases hw : way disk last [] disk names with
  | found k e =>
    rw [hw] at hfollow
    cases hfollow
    exact h.of_way rfl hw
  | lost f =>
    rw [hw] at hfollow
    cases hfollow
  | link k target rest =>
    rw [hw] at hfollow
    cases hfollow

/-- A path that leads to a directory is a way. -/
theorem hasWay_of_follow {last : Bool} {links : Nat} {names : List String} {l : Location}
    {es : List (String × Entry)} {b : ListRight} {g : Bool}
    (hfollow : disk.follow last links [] names = .ok (l, directory es b g)) :
    disk.HasWay names := by
  obtain ⟨rfl, hat, hdirs⟩ := h.of_follow hfollow
  rintro k ⟨rest, hsplit⟩
  cases rest with
  | nil =>
    rw [List.append_nil] at hsplit
    subst hsplit
    exact ⟨es, b, g, hat⟩
  | cons n rest => exact hdirs k n rest hsplit.symm

/-- Behind a way, a name leads to what its directory holds, unless it is denied. -/
theorem follow_concat {names : List String} {n : String} (hway : disk.HasWay names)
    (hn : Path.IsName n) (last : Bool) (links : Nat) :
    disk.follow last links [] (names ++ [n]) = .error .denied ∨
      disk.follow last links [] (names ++ [n]) =
        match disk.at? (Location.along [] names ++ [n]) with
        | some x => .ok (Location.along [] names ++ [n], x)
        | none => .error (if nameLimit < n.utf8ByteSize then .longName else .missing) := by
  obtain ⟨es, b, g, hdir⟩ := hway names (List.prefix_refl names)
  have hstep := Location.step_of_isName (Location.along [] names) hn
  rw [h.follow_eq]
  rcases h.way_append last rfl hdir (fun m n rest hsplit => hway m ⟨n :: rest, hsplit.symm⟩)
    [n] with
    hdenied | hfront
  · rw [hdenied]
    exact .inl rfl
  · rw [hfront]
    cases g with
    | false => exact .inl rfl
    | true =>
      refine .inr ?_
      cases hx : disk.at? (Location.along [] names ++ [n]) with
      | none =>
        rw [way_cons_of_none last hdir (hstep ▸ hx), if_neg (by simp)]
      | some x =>
        rw [h.way_cons last hdir n (hstep ▸ hx), hstep]
        rfl

/-- The entry a path leads to stands where the steps of the path end. -/
theorem of_locate {last : Bool} {path : String} {l : Location} {x : Entry}
    (hlocate : disk.locate last path = .ok (l, x)) :
    l = Location.along [] (Path.components path) ∧ disk.at? l = some x := by
  cases hcheck : checkPath path with
  | error f =>
    rw [locate_of_error disk hcheck] at hlocate
    cases hlocate
  | ok u =>
    rw [locate_of_ok disk hcheck] at hlocate
    obtain ⟨hl, hat, -⟩ := h.of_follow hlocate
    exact ⟨hl, hat⟩

/-- What the path of a location leads to is at the location. -/
theorem at?_of_seek_text {l : Location} (hl : Path.AreNames l) {x : Entry}
    (hseek : disk.seek l.text = .ok (some x)) : disk.at? l = some x := by
  unfold seek at hseek
  cases hlocate : disk.locate true l.text with
  | error f =>
    rw [hlocate] at hseek
    dsimp only at hseek
    split at hseek <;> cases hseek
  | ok p =>
    obtain ⟨k, y⟩ := p
    rw [hlocate] at hseek
    cases hseek
    obtain ⟨rfl, hat⟩ := h.of_locate hlocate
    rwa [Path.components_text hl, Location.along_of_areNames [] hl, List.nil_append] at hat

/-- A path of plain names that is said to exist has an entry at its location. -/
theorem exists_of_existsAt_text {l : Location} (hl : Path.AreNames l)
    (hexists : disk.existsAt l.text = .ok true) : ∃ x, disk.at? l = some x := by
  unfold existsAt at hexists
  cases hseek : disk.seek l.text with
  | error f =>
    rw [hseek] at hexists
    cases hexists
  | ok found =>
    rw [hseek] at hexists
    cases found with
    | none => cases hexists
    | some x => exact ⟨x, h.at?_of_seek_text hl hseek⟩

/-- The path of a location leads to what is there, if the system takes the path and does not deny
it. -/
theorem locate_text {l : Location} (hl : Path.AreNames l) {x : Entry}
    (hx : disk.at? l = some x) (last : Bool) :
    disk.locate last l.text = (checkPath l.text).bind fun _ =>
      if (disk.reach? l).isSome then .ok (l, x) else .error .denied := by
  cases hcheck : checkPath l.text with
  | error f => exact locate_of_error disk hcheck last
  | ok u =>
    rw [locate_text_of_ok disk hl hcheck]
    rcases follow_of_at? hl hx (h l) last linkLimit with ⟨hreach, hfollow⟩ | ⟨hnone, hfollow⟩
    · rw [hfollow, hreach]
      rfl
    · rw [hfollow, hnone]
      rfl

/-- Asking whether an entry exists fails by a long path or by a directory that may not be
searched. -/
theorem existsAt_text {l : Location} (hl : Path.AreNames l) {x : Entry}
    (hx : disk.at? l = some x) :
    disk.existsAt l.text = (checkPath l.text).bind fun _ =>
      if (disk.reach? l).isSome then .ok true else .error .denied := by
  unfold existsAt seek
  rw [h.locate_text hl hx]
  cases hcheck : checkPath l.text with
  | ok u => cases disk.reach? l <;> rfl
  | error f =>
    rw [checkPath_text hl] at hcheck
    split at hcheck
    · cases hcheck
      rfl
    · cases hcheck

/-- Where the path of a location leads somewhere, the system takes it and a way reaches
something. -/
theorem exists_reach?_of_existsAt_text {l : Location} (hl : Path.AreNames l)
    (hexists : disk.existsAt l.text = .ok true) :
    checkPath l.text = .ok () ∧ ∃ x, disk.reach? l = some x := by
  obtain ⟨x, hx⟩ := h.exists_of_existsAt_text hl hexists
  rw [h.existsAt_text hl hx] at hexists
  cases hcheck : checkPath l.text with
  | error f =>
    rw [hcheck] at hexists
    cases hexists
  | ok u =>
    refine ⟨rfl, ?_⟩
    rw [hcheck] at hexists
    cases hreach : disk.reach? l with
    | none =>
      rw [hreach] at hexists
      cases hexists
    | some y => exact ⟨y, rfl⟩

/-- Where the path of a location leads nowhere, nothing is. -/
theorem at?_of_existsAt_text {l : Location} (hl : Path.AreNames l)
    (hexists : disk.existsAt l.text = .ok false) : disk.at? l = none := by
  cases hx : disk.at? l with
  | none => rfl
  | some x =>
    rw [h.existsAt_text hl hx] at hexists
    cases hcheck : checkPath l.text with
    | error f =>
      rw [hcheck] at hexists
      cases hexists
    | ok u =>
      rw [hcheck] at hexists
      cases hreach : disk.reach? l with
      | none =>
        rw [hreach] at hexists
        cases hexists
      | some y =>
        rw [hreach] at hexists
        cases hexists

/-! ### Resolving -/

/-- Without links resolving names takes their steps. -/
theorem resolveWith_eq (link : Location → String → Except (List String) Location) (l : Location)
    (names : List String) : resolveWith disk link l names = .ok (l.along names) := by
  induction names generalizing l with
  | nil => rfl
  | cons n names ih =>
    rw [resolveWith, Location.along_cons]
    unfold Location.step
    by_cases hn : n = ".."
    · rw [if_pos hn, if_pos hn, ih]
    · rw [if_neg hn, if_neg hn]
      cases hx : disk.reach? (l.child n) with
      | none => exact ih _
      | some x =>
        cases x with
        | file _ _ => exact ih _
        | directory _ _ _ => exact ih _
        | link t m => exact absurd (at?_of_reach? hx) (h _ t m)

/-- **A path stands for the location to which its components lead**, be there an entry or not. -/
theorem resolve_eq (path : String) :
    disk.resolve path =
      if Path.holdsZero path then .error (.zero path)
      else .ok (Location.along [] (Path.components path)) := by
  unfold resolve
  rw [resolveFrom, h.resolveWith_eq]

/-- A path resolves to a location of plain names. -/
theorem areNames_of_resolve {path : String} {l : Location} (hl : disk.resolve path = .ok l) :
    Path.AreNames l := by
  rw [h.resolve_eq] at hl
  cases hzero : Path.holdsZero path with
  | true =>
    rw [hzero] at hl
    cases hl
  | false =>
    rw [hzero] at hl
    cases hl
    exact Location.areNames_along Path.areNames_nil (Path.areSteps_components hzero)

/-! ### Making directories -/

variable {names : List String}

/-- Making a directory puts an empty one at a free name in a directory that is reached. -/
theorem of_makeDirectory {disk' : Entry} (hnames : Path.AreComponents names)
    (hmake : disk.makeDirectory names = .ok disk') :
    ∃ front n, names = front ++ [n] ∧ Path.IsName n ∧ Path.AreSteps front ∧ disk.HasWay front ∧
      disk.at? (Location.along [] front ++ [n]) = none ∧
      disk' = disk.put (Location.along [] front ++ [n]) (ofEntries []) := by
  rcases List.eq_nil_or_concat names with rfl | ⟨front, n, hconcat⟩
  · cases hmake
  rw [List.concat_eq_append] at hconcat
  subst hconcat
  unfold makeDirectory at hmake
  rw [List.getLast?_concat, List.dropLast_concat] at hmake
  cases hcheck : checkPath (Location.text (front ++ [n])) with
  | error f =>
    rw [hcheck] at hmake
    cases hmake
  | ok u =>
    have hsteps : Path.AreSteps (front ++ [n]) :=
      Path.areSteps_of_holdsZero_text hnames (holdsZero_of_checkPath hcheck)
    rw [hcheck] at hmake
    cases hfollow : disk.follow true linkLimit [] front with
    | error f =>
      rw [hfollow] at hmake
      cases hmake
    | ok p =>
      obtain ⟨l, x⟩ := p
      rw [hfollow] at hmake
      cases x with
      | file _ _ => cases hmake
      | link _ _ => cases hmake
      | directory es b g =>
        obtain ⟨rfl, hdir, -⟩ := h.of_follow hfollow
        dsimp only at hmake
        split at hmake
        · cases hmake
        split at hmake
        · cases hmake
        next hdots =>
        cases hlookup : es.lookup n with
        | some c =>
          rw [hlookup] at hmake
          cases hmake
        | none =>
          rw [hlookup] at hmake
          dsimp only at hmake
          split at hmake
          · cases hmake
          cases hmake
          have hsplit := List.forall_mem_append.mp hsteps
          exact ⟨front, n, rfl, (hsplit.2 n List.mem_cons_self).resolve_left hdots, hsplit.1,
            h.hasWay_of_follow hfollow, (at?_child hdir n).trans hlookup, rfl⟩

/-- Making a directory is growth of the disk. -/
theorem grows_makeDirectory {disk' : Entry} (hnames : Path.AreComponents names)
    (hmake : disk.makeDirectory names = .ok disk') (files : Location → Prop) :
    Grows [] files disk disk' := by
  obtain ⟨front, n, rfl, hn, hsteps, hway, hnone, rfl⟩ := h.of_makeDirectory hnames hmake
  obtain ⟨es, b, g, hdir⟩ := hway front (List.prefix_refl front)
  refine .step (.refl disk) ⟨List.nil_prefix, ?_, ⟨_, n, es, b, g, rfl, hdir⟩, .inl ⟨rfl, hnone⟩⟩
  rw [Path.areNames_append]
  exact ⟨Location.areNames_along Path.areNames_nil hsteps, by simpa using hn⟩

/-- A directory that was made is made, with no failure to report. -/
theorem isMade_of_makeDirectory {disk' : Entry} (hnames : Path.AreComponents names)
    (hmake : disk.makeDirectory names = .ok disk') : disk.IsMade names (disk', none) := by
  have hgrows := h.grows_makeDirectory hnames hmake fun _ => False
  refine ⟨hgrows, fun _ => ?_⟩
  obtain ⟨front, n, rfl, hn, -, hway, -, hput⟩ := h.of_makeDirectory hnames hmake
  have hat : disk'.at? ((Location.along [] front).step n) = some (ofEntries []) := by
    obtain ⟨es, b, g, hdir⟩ := hway front (List.prefix_refl front)
    rw [Location.step_of_isName _ hn, hput]
    exact at?_put_self hdir n (ofEntries [])
  exact (hgrows.hasWay hway).concat hat

/-- Ensuring a directory makes it or reports why not, and changes nothing else. -/
theorem isMade_ensureDirectory (hnames : Path.AreComponents names) :
    disk.IsMade names (disk.ensureDirectory names) := by
  unfold ensureDirectory
  cases hmake : disk.makeDirectory names with
  | ok disk' => exact h.isMade_of_makeDirectory hnames hmake
  | error f =>
    dsimp only
    split
    · next hfollow => exact ⟨.refl disk, fun _ => h.hasWay_of_follow hfollow⟩
    · exact ⟨.refl disk, nofun⟩

/-- Making a directory with its parents makes each or reports the first that fails. -/
theorem isMade_makeAll (hnames : Path.AreComponents names) :
    disk.IsMade names (disk.makeAll names.reverse) := by
  induction names using List.reverseRecOn with
  | nil => exact h.isMade_ensureDirectory hnames
  | append_singleton names n ih =>
    have hfront : Path.AreComponents names := fun m hm => hnames m (List.mem_append_left _ hm)
    have hmade := ih hfront
    have hensure := h.isMade_ensureDirectory hnames
    rw [List.reverse_append, List.reverse_singleton, List.singleton_append, makeAll,
      List.reverse_cons, List.reverse_reverse]
    cases hmake : disk.makeDirectory (names ++ [n]) with
    | ok disk' => exact h.isMade_of_makeDirectory hnames hmake
    | error f =>
      cases f with
      | missing =>
        dsimp only
        cases hall : disk.makeAll names.reverse with
        | mk disk' refused =>
          rw [hall] at hmade
          cases refused with
          | none =>
            have hnext := (hmade.grows.isUnlinked h).isMade_ensureDirectory hnames
            exact ⟨hmade.grows.trans hnext.grows, hnext.hasWay⟩
          | some p => exact ⟨hmade.grows, fun hnone => absurd hnone (Option.some_ne_none p)⟩
      | _ => exact hensure

/-- **Making directories makes directories and nothing else**, wherever the path leads. -/
theorem isMade_makeDirectories (path : String) :
    disk.IsMade (Path.components path) (disk.makeDirectories path) :=
  h.isMade_makeAll (Path.areComponents_components path)

/-! ### Writing files -/

/-- **A file is written where its path leads and nowhere else**, if its directory is there. -/
theorem grows_writeText {path : String} {n : String}
    (hpath : Path.components path = names ++ [n]) (hn : Path.IsName n) (hway : disk.HasWay names)
    {files : Location → Prop} (hfiles : ∀ l, disk.resolve path = .ok l → files l) (time : Int)
    (text : List Char) : Grows [] files disk (disk.writeText time path text).1 := by
  obtain ⟨es, b, g, hdir⟩ := hway names (List.prefix_refl names)
  have halong : Location.along [] (Path.components path) = Location.along [] names ++ [n] := by
    rw [hpath, Location.along_append, Location.along_cons, Location.step_of_isName _ hn,
      Location.along_nil]
  unfold writeText
  cases hcheck : checkPath path with
  | error f =>
    rw [locate_of_error disk hcheck]
    cases f with
    | missing => exact absurd rfl (ne_missing_of_checkPath hcheck)
    | _ => exact .refl disk
  | ok u =>
    have hresolve : disk.resolve path = .ok (Location.along [] names ++ [n]) := by
      rw [h.resolve_eq, if_neg (Bool.eq_false_iff.mp (holdsZero_of_checkPath hcheck)), halong]
    have hadd : ∀ octets m, (∀ x, disk.at? (Location.along [] names ++ [n]) = some x →
        ∃ o t, x = file o t) → IsAddition [] files disk (Location.along [] names ++ [n])
          (file octets m) := fun octets m hold =>
      ⟨List.nil_prefix, h.areNames_of_resolve hresolve, ⟨_, n, es, b, g, rfl, hdir⟩,
        .inr ⟨⟨octets, m, rfl⟩, hfiles _ hresolve, by simp, hold⟩⟩
    rw [locate_of_ok disk hcheck, hpath]
    rcases h.follow_concat hway hn true linkLimit with hdenied | hfollow
    · rw [hdenied]
      exact .refl disk
    rw [hfollow]
    cases hx : disk.at? (Location.along [] names ++ [n]) with
    | some x =>
      rw [hx] at hadd
      cases x with
      | file o m =>
        exact .step (.refl disk) (hadd _ _ fun x hx => ⟨o, m, (Option.some.inj hx).symm⟩)
      | link t m => exact .refl disk
      | directory _ _ _ => exact .refl disk
    | none =>
      rw [hx] at hadd
      by_cases hlong : nameLimit < n.utf8ByteSize
      · rw [if_pos hlong]
        exact .refl disk
      · rw [if_neg hlong, hresolve]
        dsimp only
        rw [List.dropLast_concat, hdir]
        exact .step (.refl disk) (hadd _ _ nofun)

end IsUnlinked

end Entry

end ProjectSurvey
