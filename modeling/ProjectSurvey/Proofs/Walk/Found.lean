import ProjectSurvey.Proofs.Disk.Tree
import ProjectSurvey.Proofs.Sorting

/-!
# Where a walk comes to

The listings of a walk speak of paths; here the same directories stand beside the names that lead to
them (`Scope.found`, `listings_eq_map_found`). **A walk comes to a directory exactly if nothing on
the way to it keeps the walk out** (`mem_found`): it is deep enough at most, each directory in front
of it is listed and each name on the way is let in (`Scope.Reaches`).
-/

namespace ProjectSurvey.Walk.Scope

variable (s : Scope)

/-! ### One directory -/

/-- Whether a directory that names lead to is listed. -/
def Lists (names : List String) (e : Entry) : Prop :=
  e.mayList [] = true ∧ s.isTaken (Path.ofSegments names) = true

/-- What is in a directory that names lead to, by name. -/
def contents (names : List String) (e : Entry) : List (String × Entry) :=
  (s.contents? (Path.ofSegments names) e).getD []

/-- The directories that are entered from a directory. -/
def inside (names : List String) (e : Entry) : List (String × Entry) :=
  s.directoriesIn (Path.ofSegments names) (s.contents names e)

/-- The entries that count as files in a directory. -/
def counted (names : List String) (e : Entry) : List (String × Entry) :=
  (s.contents names e).filter fun p =>
    !p.2.isDirectory && s.counts p.1 (pathIn (Path.ofSegments names) p.1)

/-- The record of a file that names lead to. -/
def recordAt (names : List String) (e : Entry) : FileRecord :=
  record s.tables s.settings.maxFileSize s.disk s.root (Path.ofSegments names) e

/-- The listing of a directory that names lead to. -/
def listingOf (p : List String × Entry) : Listing :=
  ⟨Path.ofSegments p.1, (s.counted p.1 p.2).map fun f => s.recordAt (p.1 ++ [f.1]) f.2,
    (s.contents? (Path.ofSegments p.1) p.2).isSome⟩

/-- A directory has contents when it is listed. -/
theorem isSome_contents?_iff (names : List String) (e : Entry) :
    (s.contents? (Path.ofSegments names) e).isSome = true ↔ s.Lists names e := by
  unfold Lists Entry.mayList Entry.reach?
  cases e with
  | file _ _ => simp [contents?]
  | link _ _ => simp [contents?]
  | directory es listing _ =>
    cases listing with
    | granted =>
      rw [contents?]
      split <;> simp_all
    | denied => simp [contents?]
    | failing => simp [contents?]

/-- What is listed is a directory. -/
theorem Lists.isDirectory {s : Scope} {names : List String} {e : Entry} (h : s.Lists names e) :
    e.isDirectory = true := by
  obtain ⟨hlist, -⟩ := h
  unfold Entry.mayList Entry.reach? at hlist
  cases e with
  | file _ _ => cases hlist
  | link _ _ => cases hlist
  | directory _ _ _ => rfl

/-- A directory that is not listed has nothing in it to find. -/
theorem contents_of_not_lists {names : List String} {e : Entry} (h : ¬ s.Lists names e) :
    s.contents names e = [] := by
  rw [← isSome_contents?_iff, Bool.not_eq_true, Option.isSome_eq_false_iff,
    Option.isNone_iff_eq_none] at h
  rw [contents, h, Option.getD_none]

/-- A directory that is listed has its entries in it, sorted. -/
theorem contents_of_lists {names : List String} {e : Entry} (h : s.Lists names e) :
    s.contents names e = e.entries.mergeSort (Sorting.before Prod.fst) := by
  obtain ⟨hlist, htaken⟩ := h
  unfold Entry.mayList Entry.reach? at hlist
  cases e with
  | file _ _ => cases hlist
  | link _ _ => cases hlist
  | directory es listing _ =>
    cases listing with
    | granted =>
      rw [contents, contents?, if_pos htaken, Option.getD_some]
      rfl
    | denied => cases hlist
    | failing => cases hlist

/-- A directory that is listed is listed as a whole. -/
theorem mem_contents {e : Entry} (htree : e.IsTree) {names : List String} {p : String × Entry} :
    p ∈ s.contents names e ↔ s.Lists names e ∧ e.child? p.1 = some p.2 := by
  by_cases h : s.Lists names e
  · rw [contents_of_lists s h, List.mem_mergeSort, and_iff_right h]
    cases e with
    | file _ _ => simp [Entry.child?, Entry.entries]
    | link _ _ => simp [Entry.child?, Entry.entries]
    | directory es _ _ =>
      exact (Entry.lookup_eq_some_iff (Entry.isTree_directory.mp htree).1).symm
  · rw [contents_of_not_lists s h]
    simp [h]

/-- What is in a directory comes in the order of its names. -/
theorem pairwise_contents {e : Entry} (htree : e.IsTree) (names : List String) :
    (s.contents names e).Pairwise fun p q => p.1 < q.1 := by
  by_cases h : s.Lists names e
  · rw [contents_of_lists s h]
    apply Sorting.pairwise_mergeSort_lt
    cases e with
    | file _ _ => exact List.nodup_nil
    | link _ _ => exact List.nodup_nil
    | directory es _ _ => exact (Entry.isTree_directory.mp htree).1
  · rw [contents_of_not_lists s h]
    exact List.Pairwise.nil

/-- Inside a directory are those that are entered. -/
theorem mem_inside {e : Entry} (htree : e.IsTree) {names : List String}
    (hnames : Path.AreNames names) {n : String} {d : Entry} :
    (n, d) ∈ s.inside names e ↔ s.Lists names e ∧ e.child? n = some d ∧
      d.isDirectory = true ∧ s.enters n (Path.ofSegments (names ++ [n])) = true := by
  rw [inside, directoriesIn, List.mem_filter, mem_contents s htree, Bool.and_eq_true,
    Path.pathIn_ofSegments hnames, and_assoc]

/-- Counted in a directory are its files that count. -/
theorem mem_counted {e : Entry} (htree : e.IsTree) {names : List String}
    (hnames : Path.AreNames names) {n : String} {f : Entry} :
    (n, f) ∈ s.counted names e ↔ s.Lists names e ∧ e.child? n = some f ∧
      f.isDirectory = false ∧ s.counts n (Path.ofSegments (names ++ [n])) = true := by
  rw [counted, List.mem_filter, mem_contents s htree, Bool.and_eq_true, Bool.not_eq_true',
    Path.pathIn_ofSegments hnames, and_assoc]

/-- What is inside is sorted by the names. -/
theorem pairwise_inside {e : Entry} (htree : e.IsTree) (names : List String) :
    (s.inside names e).Pairwise fun p q => p.1 < q.1 :=
  (pairwise_contents s htree names).filter _

/-- What is counted is sorted by the names. -/
theorem pairwise_counted {e : Entry} (htree : e.IsTree) (names : List String) :
    (s.counted names e).Pairwise fun p q => p.1 < q.1 :=
  (pairwise_contents s htree names).filter _

/-- The names inside are distinct. -/
theorem nodup_inside {e : Entry} (htree : e.IsTree) (names : List String) :
    ((s.inside names e).map Prod.fst).Nodup := by
  rw [List.Nodup, List.pairwise_map]
  exact (pairwise_inside s htree names).imp String.ne_of_lt

/-- What a walk enters is a directory of the tree under one more name. -/
theorem isTree_of_mem_inside {e : Entry} (htree : e.IsTree) {names : List String}
    (hnames : Path.AreNames names) {p : String × Entry} (hp : p ∈ s.inside names e) :
    Path.AreNames (names ++ [p.1]) ∧ p.2.IsTree ∧ p.2.isDirectory = true := by
  obtain ⟨-, hchild, hdir, -⟩ := (mem_inside s htree hnames).mp hp
  obtain ⟨hname, hsub⟩ := htree.child hchild
  exact ⟨Path.areNames_append.mpr ⟨hnames, by simpa using hname⟩, hsub, hdir⟩

/-! ### All directories -/

/-- The directories that a walk comes to from one on, with the names that lead to them. -/
def found (s : Scope) : (levels : Nat) → (names : List String) → Entry →
    List (List String × Entry)
  | 0, names, e => [(names, e)]
  | levels + 1, names, e =>
    (names, e) :: (s.inside names e).flatMap fun p => found s levels (names ++ [p.1]) p.2

/-- The start of the walk is found. -/
theorem self_mem_found (levels : Nat) (names : List String) (e : Entry) :
    (names, e) ∈ s.found levels names e := by
  cases levels <;> exact List.mem_cons_self

/-- The records of a directory are those of the files counted in it. -/
theorem filesIn_contents {e : Entry} {names : List String} (hnames : Path.AreNames names) :
    s.filesIn (Path.ofSegments names) (s.contents names e) =
      (s.counted names e).map fun f => s.recordAt (names ++ [f.1]) f.2 := by
  unfold filesIn counted recordAt
  refine List.map_congr_left ?_
  intro p _
  dsimp only
  rw [Path.pathIn_ofSegments hnames]

/-- The listings of a walk are those of the directories it comes to. -/
theorem listings_eq_map_found (levels : Nat) {names : List String} {e : Entry}
    (hnames : Path.AreNames names) (htree : e.IsTree) :
    s.listings levels (Path.ofSegments names) e = (s.found levels names e).map s.listingOf := by
  induction levels generalizing names e with
  | zero =>
    have hfiles := filesIn_contents s (e := e) hnames
    rw [listings, found, List.map_singleton, listingOf, ← hfiles, contents]
    cases s.contents? (Path.ofSegments names) e <;> rfl
  | succ levels ih =>
    have hfiles := filesIn_contents s (e := e) hnames
    rw [listings, found, List.map_cons, listingOf, ← hfiles, List.map_flatMap]
    cases hcontents : s.contents? (Path.ofSegments names) e with
    | none =>
      rw [inside, contents, hcontents]
      rfl
    | some entries =>
      have hall : s.contents names e = entries := by rw [contents, hcontents]; rfl
      rw [inside, hall]
      refine congrArg (List.cons _) (List.flatMap_congr ?_)
      intro p hp
      have hmem : p ∈ s.inside names e := by rw [inside, hall]; exact hp
      obtain ⟨hmore, hsub, -⟩ := isTree_of_mem_inside s htree hnames hmem
      show s.listings levels (pathIn (Path.ofSegments names) p.1) p.2 = _
      rw [Path.pathIn_ofSegments hnames]
      exact ih hmore hsub

/-! ### The way to a directory -/

/-- Whether nothing keeps a walk from going from a directory to one below it. -/
structure Leads (levels : Nat) (names : List String) (e : Entry) (way : List String)
    (d : Entry) : Prop where
  /-- The names lead somewhere, -/
  isThere : e.at? way = some d
  /-- to a directory, -/
  isDirectory : d.isDirectory = true
  /-- and are not too many. -/
  depth : way.length ≤ levels
  /-- Every directory in front of a name is listed. -/
  listed : ∀ front n back, way = front ++ n :: back →
    ∃ x, e.at? front = some x ∧ s.Lists (names ++ front) x
  /-- Every name is let in. -/
  entered : ∀ front n back, way = front ++ n :: back →
    s.enters n (Path.ofSegments (names ++ front ++ [n])) = true

variable {s} {levels : Nat} {names way : List String} {e d : Entry} {n : String}

/-- No names lead to the directory itself. -/
theorem leads_nil : s.Leads levels names e [] d ↔ e = d ∧ d.isDirectory = true := by
  constructor
  · intro h
    exact ⟨Option.some_inj.mp h.isThere, h.isDirectory⟩
  · rintro ⟨rfl, hdir⟩
    exact ⟨rfl, hdir, Nat.zero_le _, by simp, by simp⟩

/-- A way of several names is a step into the first directory and a way from there. -/
theorem leads_cons (htree : e.IsTree) (hnames : Path.AreNames names) :
    s.Leads (levels + 1) names e (n :: way) d ↔
      ∃ c, (n, c) ∈ s.inside names e ∧ s.Leads levels (names ++ [n]) c way d := by
  constructor
  · rintro ⟨hthere, hdir, hdepth, hlisted, hentered⟩
    rw [Entry.at?_cons, Option.bind_eq_some_iff] at hthere
    obtain ⟨c, hc, hthere⟩ := hthere
    obtain ⟨x, hx, hlists⟩ := hlisted [] n way rfl
    cases hx
    rw [List.append_nil] at hlists
    have henters := hentered [] n way rfl
    rw [List.append_nil] at henters
    have hcdir : c.isDirectory = true := by
      cases way with
      | nil =>
        cases hthere
        exact hdir
      | cons m way =>
        rw [Entry.at?_cons, Option.bind_eq_some_iff] at hthere
        obtain ⟨x, hx, -⟩ := hthere
        cases c with
        | file _ _ => cases hx
        | link _ _ => cases hx
        | directory _ _ _ => rfl
    refine ⟨c, (mem_inside s htree hnames).mpr ⟨hlists, hc, hcdir, henters⟩, hthere, hdir,
      Nat.le_of_succ_le_succ hdepth, ?_, ?_⟩
    · intro front m back hway
      obtain ⟨x, hx, hlists⟩ := hlisted (n :: front) m back (by rw [hway]; rfl)
      rw [Entry.at?_cons, hc] at hx
      exact ⟨x, hx, by simpa using hlists⟩
    · intro front m back hway
      simpa using hentered (n :: front) m back (by rw [hway]; rfl)
  · rintro ⟨c, hmem, hthere, hdir, hdepth, hlisted, hentered⟩
    obtain ⟨hlists, hc, -, henters⟩ := (mem_inside s htree hnames).mp hmem
    have hat : ∀ rest, e.at? (n :: rest) = c.at? rest := by
      intro rest
      rw [Entry.at?_cons, hc]
      rfl
    refine ⟨(hat way).trans hthere, hdir, Nat.succ_le_succ hdepth, ?_, ?_⟩
    · intro front m back hway
      cases front with
      | nil => exact ⟨e, rfl, by simpa using hlists⟩
      | cons k front =>
        rw [List.cons_append, List.cons.injEq] at hway
        obtain ⟨rfl, hway⟩ := hway
        obtain ⟨x, hx, hlists⟩ := hlisted front m back hway
        exact ⟨x, (hat front).trans hx, by simpa using hlists⟩
    · intro front m back hway
      cases front with
      | nil =>
        rw [List.nil_append, List.cons.injEq] at hway
        obtain ⟨rfl, -⟩ := hway
        simpa using henters
      | cons k front =>
        rw [List.cons_append, List.cons.injEq] at hway
        obtain ⟨rfl, hway⟩ := hway
        simpa using hentered front m back hway

/-- **A walk comes to exactly the directories that nothing keeps it from.** -/
theorem mem_found {all : List String} (htree : e.IsTree) (hdir : e.isDirectory = true)
    (hnames : Path.AreNames names) :
    (all, d) ∈ s.found levels names e ↔
      ∃ way, all = names ++ way ∧ s.Leads levels names e way d := by
  induction levels generalizing names e with
  | zero =>
    rw [found, List.mem_singleton, Prod.mk.injEq]
    constructor
    · rintro ⟨rfl, rfl⟩
      exact ⟨[], (List.append_nil _).symm, leads_nil.mpr ⟨rfl, hdir⟩⟩
    · rintro ⟨way, rfl, h⟩
      have hway : way = [] := List.eq_nil_of_length_eq_zero (Nat.le_zero.mp h.depth)
      subst hway
      exact ⟨List.append_nil _, (leads_nil.mp h).1.symm⟩
  | succ levels ih =>
    rw [found, List.mem_cons, Prod.mk.injEq, List.mem_flatMap]
    constructor
    · rintro (⟨rfl, rfl⟩ | ⟨⟨n, c⟩, hmem, hfound⟩)
      · exact ⟨[], (List.append_nil _).symm, leads_nil.mpr ⟨rfl, hdir⟩⟩
      · obtain ⟨hmore, hsub, hsubdir⟩ := isTree_of_mem_inside s htree hnames hmem
        obtain ⟨way, rfl, hleads⟩ := (ih hsub hsubdir hmore).mp hfound
        exact ⟨n :: way, by simp, (leads_cons htree hnames).mpr ⟨c, hmem, hleads⟩⟩
    · rintro ⟨way, rfl, h⟩
      cases way with
      | nil => exact .inl ⟨List.append_nil _, (leads_nil.mp h).1.symm⟩
      | cons n way =>
        obtain ⟨c, hmem, hleads⟩ := (leads_cons htree hnames).mp h
        obtain ⟨hmore, hsub, hsubdir⟩ := isTree_of_mem_inside s htree hnames hmem
        refine .inr ⟨(n, c), hmem, (ih hsub hsubdir hmore).mpr ⟨way, ?_, hleads⟩⟩
        simp

/-- What a walk comes to is a directory of the tree below where it started. -/
theorem isTree_of_mem_found {all : List String} (htree : e.IsTree) (hdir : e.isDirectory = true)
    (hnames : Path.AreNames names) (h : (all, d) ∈ s.found levels names e) :
    Path.AreNames all ∧ d.IsTree ∧ d.isDirectory = true ∧ names <+: all := by
  obtain ⟨way, rfl, hleads⟩ := (mem_found htree hdir hnames).mp h
  obtain ⟨hway, hd⟩ := htree.areNames_of_at? hleads.isThere
  exact ⟨Path.areNames_append.mpr ⟨hnames, hway⟩, hd, hleads.isDirectory,
    List.prefix_append names way⟩

/-- After the directory where it started, a walk comes to directories with longer names only. -/
theorem found_eq_cons (s : Scope) (levels : Nat) (htree : e.IsTree) (hnames : Path.AreNames names) :
    ∃ rest, s.found levels names e = (names, e) :: rest ∧
      ∀ p ∈ rest, ∃ n way, p.1 = names ++ n :: way := by
  cases levels with
  | zero => exact ⟨[], rfl, by simp⟩
  | succ levels =>
    refine ⟨_, rfl, ?_⟩
    intro p hp
    obtain ⟨c, hc, hp⟩ := List.mem_flatMap.mp hp
    obtain ⟨hmore, hsub, hsubdir⟩ := isTree_of_mem_inside s htree hnames hc
    obtain ⟨-, -, -, way, hway⟩ := isTree_of_mem_found hsub hsubdir hmore hp
    exact ⟨c.1, way, by rw [← hway]; simp⟩

/-- A walk comes to every directory once. -/
theorem nodup_found (s : Scope) (levels : Nat) (htree : e.IsTree) (hnames : Path.AreNames names) :
    ((s.found levels names e).map Prod.fst).Nodup := by
  rw [List.Nodup, List.pairwise_map]
  induction levels generalizing names e with
  | zero => exact List.pairwise_singleton _ _
  | succ levels ih =>
    have hbelow : ∀ p ∈ s.inside names e, ∀ q ∈ s.found levels (names ++ [p.1]) p.2,
        ∃ way, q.1 = names ++ p.1 :: way := by
      intro p hp q hq
      obtain ⟨hmore, hsub, hsubdir⟩ := isTree_of_mem_inside s htree hnames hp
      obtain ⟨-, -, -, way, hway⟩ := isTree_of_mem_found hsub hsubdir hmore hq
      exact ⟨way, by rw [← hway]; simp⟩
    rw [found, List.pairwise_cons, List.pairwise_flatMap]
    refine ⟨?_, ?_, ?_⟩
    · intro q hq
      obtain ⟨p, hp, hq⟩ := List.mem_flatMap.mp hq
      obtain ⟨way, hq⟩ := hbelow p hp q hq
      rw [hq]
      simp
    · intro p hp
      obtain ⟨hmore, hsub, -⟩ := isTree_of_mem_inside s htree hnames hp
      exact ih hsub hmore
    · refine List.Pairwise.imp_of_mem ?_ (pairwise_inside s htree names)
      intro p p' hp hp' hlt q hq r hr heq
      obtain ⟨way, hq⟩ := hbelow p hp q hq
      obtain ⟨way', hr⟩ := hbelow p' hp' r hr
      rw [hq, hr, List.append_cancel_left_eq, List.cons.injEq] at heq
      exact String.ne_of_lt hlt heq.1

end ProjectSurvey.Walk.Scope
