import Mathlib.Data.List.Perm.Basic
import Mathlib.Logic.Relation
import Mathlib.Order.MinMax
import ProjectSurvey.Proofs.Pattern.Matching
import ProjectSurvey.Proofs.Walk.Nest
import ProjectSurvey.Structure

/-!
# Naming conventions

A tree is reported to follow the conventions with the most followers, all of them if several have as
many (`conventionsOf_eq`), and none if no file follows any (`conventionsOf_eq_nil_iff`). Followers
are told by their names without the extension: **where a file is, what the directories are called
and in which order they come is of no account** (`Rearranges.fileNames_perm`,
`conventionsOf_eq_of_perm`), and if every file comes twice all counts double and the ties stay
(`conventionsOf_doubled`). One name may follow several conventions: what a name has to look like
(`IsShaped`) does not keep the conventions apart.
-/

namespace ProjectSurvey

namespace Directory

/-! ### Trees by induction -/

mutual

/-- What holds of a directory if it holds of those in it holds of every directory. -/
theorem inductionOn {P : Directory → Prop} (h : ∀ name path purpose ds fs count size readable,
    (∀ d ∈ ds, P d) → P (node name path purpose ds fs count size readable)) : ∀ d, P d
  | node name path purpose ds fs count size readable =>
    h name path purpose ds fs count size readable (inductionOnAll h ds)

/-- The same for some directories. -/
theorem inductionOnAll {P : Directory → Prop} (h : ∀ name path purpose ds fs count size readable,
    (∀ d ∈ ds, P d) → P (node name path purpose ds fs count size readable)) :
    ∀ ds : List Directory, ∀ d ∈ ds, P d
  | [] => fun _ hd => absurd hd List.not_mem_nil
  | d :: ds => List.forall_mem_cons.mpr ⟨inductionOn h d, inductionOnAll h ds⟩

end

/-- The files of a directory are its own, then those of its subdirectories in order. -/
theorem allFiles_node (name path purpose : String) (ds : List Directory) (fs : List FileRecord)
    (count size : Nat) (readable : Bool) :
    (node name path purpose ds fs count size readable).allFiles = fs ++ ds.flatMap allFiles :=
  allFiles_eq_append _

/-- The files of a tree are those of its directories. -/
theorem allFiles_eq_flatMap_subtrees (d : Directory) : d.allFiles = d.subtrees.flatMap files := by
  induction d using inductionOn with
  | h name path purpose ds fs count size readable ih =>
    rw [allFiles_node, subtrees_eq_cons, List.flatMap_cons, List.flatMap_assoc]
    exact congrArg (fs ++ ·) (List.flatMap_congr ih)

/-! ### Other arrangements of the same files -/

mutual

/-- The same tree with its directories called otherwise, each by its path, and the files
accordingly. -/
def relabel (name place purpose : String → String) (file : FileRecord → FileRecord) :
    Directory → Directory
  | node _ p _ ds fs c s r =>
    node (name p) (place p) (purpose p) (relabelAll name place purpose file ds) (fs.map file) c s r

/-- `relabel` of every directory. -/
def relabelAll (name place purpose : String → String) (file : FileRecord → FileRecord) :
    List Directory → List Directory
  | [] => []
  | d :: ds => relabel name place purpose file d :: relabelAll name place purpose file ds

end

mutual

/-- The tree in which every file comes twice. -/
def doubled : Directory → Directory
  | node n p u ds fs c s r => node n p u (doubledAll ds) (fs ++ fs) (2 * c) (2 * s) r

/-- `doubled` of every directory. -/
def doubledAll : List Directory → List Directory
  | [] => []
  | d :: ds => doubled d :: doubledAll ds

end

/-- One directory is another one from which a file was taken, somewhere in it. The numbers that
directories carry are left open. -/
inductive Without (r : FileRecord) : Directory → Directory → Prop
  /-- The file is directly in the directory. -/
  | here {name path purpose : String} {ds : List Directory} (front back : List FileRecord)
      {count count' size size' : Nat} {readable : Bool} :
      Without r (node name path purpose ds (front ++ r :: back) count size readable)
        (node name path purpose ds (front ++ back) count' size' readable)
  /-- It is in one of those below. -/
  | inside {name path purpose : String} (front back : List Directory) {d d' : Directory}
      {fs : List FileRecord} {count count' size size' : Nat} {readable : Bool} : Without r d d' →
      Without r (node name path purpose (front ++ d :: back) fs count size readable)
        (node name path purpose (front ++ d' :: back) fs count' size' readable)

end Directory

namespace Layout

/-- The name of a file, wherever it is. -/
def fileName (r : FileRecord) : String := Path.lastSegment r.path

/-- A step that leaves the files of a tree their names. -/
inductive Rearranges : Directory → Directory → Prop
  /-- A file goes from one directory to another, or to another place in its own. -/
  | move {d d' rest : Directory} {r r' : FileRecord} : d.Without r rest → d'.Without r' rest →
      fileName r' = fileName r → Rearranges d d'
  /-- The directories in a directory come in another order. -/
  | reorder {name path purpose : String} {ds ds' : List Directory} {fs : List FileRecord}
      {count size : Nat} {readable : Bool} : ds.Perm ds' →
      Rearranges (.node name path purpose ds fs count size readable)
        (.node name path purpose ds' fs count size readable)
  /-- Directories get other names and paths, and the files in them other paths. -/
  | rename {d : Directory} {name place purpose : String → String} {file : FileRecord → FileRecord} :
      (∀ r, fileName (file r) = fileName r) → Rearranges d (d.relabel name place purpose file)
  /-- A step in one of the directories below. -/
  | inside {name path purpose : String} (front back : List Directory) {d d' : Directory}
      {fs : List FileRecord} {count size : Nat} {readable : Bool} : Rearranges d d' →
      Rearranges (.node name path purpose (front ++ d :: back) fs count size readable)
        (.node name path purpose (front ++ d' :: back) fs count size readable)

end Layout

namespace Directory

variable {d d' : Directory}

/-- Relabelling the directories of a list relabels each of them. -/
theorem relabelAll_eq_map (name place purpose : String → String) (file : FileRecord → FileRecord)
    (ds : List Directory) :
    relabelAll name place purpose file ds = ds.map (relabel name place purpose file) := by
  induction ds with
  | nil => rfl
  | cons d ds ih => rw [relabelAll, ih, List.map_cons]

/-- Doubling the directories of a list doubles each of them. -/
theorem doubledAll_eq_map (ds : List Directory) : doubledAll ds = ds.map doubled := by
  induction ds with
  | nil => rfl
  | cons d ds ih => rw [doubledAll, ih, List.map_cons]

/-- Renaming the directories of a tree touches its files one by one and leaves their order alone. -/
theorem allFiles_relabel (name place purpose : String → String) (file : FileRecord → FileRecord)
    (d : Directory) : (d.relabel name place purpose file).allFiles = d.allFiles.map file := by
  induction d using inductionOn with
  | h n p u ds fs c s r ih =>
    rw [relabel, relabelAll_eq_map, allFiles_node, allFiles_node, List.map_append, List.flatMap_map,
      List.map_flatMap]
    exact congrArg (fs.map file ++ ·) (List.flatMap_congr ih)

/-- A doubled tree holds every file of the tree twice. -/
theorem allFiles_doubled_perm (d : Directory) :
    d.doubled.allFiles.Perm (d.allFiles ++ d.allFiles) := by
  induction d using inductionOn with
  | h n p u ds fs c s r ih =>
    rw [doubled, doubledAll_eq_map, allFiles_node, allFiles_node, List.flatMap_map]
    have hbelow : (ds.flatMap fun d => d.doubled.allFiles).Perm
        (ds.flatMap allFiles ++ ds.flatMap allFiles) :=
      (List.Perm.flatMap_left ds ih).trans (List.flatMap_append_perm ds allFiles allFiles).symm
    calc fs ++ fs ++ ds.flatMap (fun d => d.doubled.allFiles)
        = fs ++ (fs ++ ds.flatMap fun d => d.doubled.allFiles) := List.append_assoc ..
      List.Perm _ (fs ++ (fs ++ (ds.flatMap allFiles ++ ds.flatMap allFiles))) :=
        (hbelow.append_left fs).append_left fs
      List.Perm _ (fs ++ (ds.flatMap allFiles ++ (fs ++ ds.flatMap allFiles))) :=
        List.perm_append_comm_assoc .. |>.append_left fs
      _ = fs ++ ds.flatMap allFiles ++ (fs ++ ds.flatMap allFiles) := (List.append_assoc ..).symm

/-- Taking a file from a tree takes it from its files. -/
theorem Without.perm {r : FileRecord} (h : d.Without r d') :
    d.allFiles.Perm (r :: d'.allFiles) := by
  induction h with
  | here front back =>
    rw [allFiles_node, allFiles_node, List.append_assoc, List.append_assoc, List.cons_append]
    exact List.perm_middle
  | @inside _ _ _ front back d d' fs _ _ _ _ _ _ ih =>
    rw [allFiles_node, allFiles_node, List.flatMap_append, List.flatMap_cons, List.flatMap_append,
      List.flatMap_cons, ← List.append_assoc fs, ← List.append_assoc fs]
    exact ((ih.append_right _).append_left _).trans List.perm_middle

end Directory

namespace Layout

variable {d d' : Directory}

/-- The names of the files of a tree. -/
def fileNames (d : Directory) : List String := d.allFiles.map fileName

/-- A step leaves the files their names. -/
theorem Rearranges.fileNames_perm (h : Rearranges d d') : (fileNames d').Perm (fileNames d) := by
  unfold fileNames
  induction h with
  | @move d d' rest r r' h h' hname =>
    have hbefore := h.perm.map fileName
    have hafter := h'.perm.map fileName
    rw [List.map_cons] at hbefore hafter
    rw [hname] at hafter
    exact hafter.trans hbefore.symm
  | reorder hperm =>
    rw [Directory.allFiles_node, Directory.allFiles_node]
    exact ((hperm.symm.flatMap_right _).append_left _).map _
  | @rename d name place purpose file hfile =>
    rw [Directory.allFiles_relabel, List.map_map]
    exact .of_eq (List.map_congr_left fun r _ => hfile r)
  | inside front back _ ih =>
    rw [Directory.allFiles_node, Directory.allFiles_node]
    simp only [List.flatMap_append, List.flatMap_cons, List.map_append]
    exact ((ih.append_right _).append_left _).append_left _

/-- Any number of rearrangements leaves the names of a tree's files as they were, but for their
order. -/
theorem fileNames_perm_of_reflTransGen (h : Relation.ReflTransGen Rearranges d d') :
    (fileNames d').Perm (fileNames d) := by
  induction h with
  | refl => exact .refl _
  | tail _ hstep ih => exact hstep.fileNames_perm.trans ih

/-! ### What a name looks like -/

section

variable {first rest : CharSet} {name : List Char}

/-- Whether a name starts with a character of one set and goes on with characters of another. A line
feed at its very end is passed over. -/
def IsShaped (first rest : CharSet) (name : List Char) : Prop :=
  ∃ x cs, first x = true ∧ (∀ c ∈ cs, rest c = true) ∧ (name = x :: cs ∨ name = x :: cs ++ ['\n'])

open Pattern in
/-- The pattern of a convention starts a name exactly when the name has the shape it describes. -/
theorem isSome_atStart?_shaped :
    ((shaped first rest).atStart? name).isSome = true ↔ IsShaped first rest name := by
  have hrun : ((shaped first rest).atStart? name).isSome =
      ((char first).run ((many rest).run (textEnd.run some)) ⟨Cursor.start name, []⟩).isSome :=
    Option.isSome_map
  rw [hrun]
  constructor
  · intro h
    obtain ⟨st, h⟩ := Option.isSome_iff_exists.mp h
    obtain ⟨x, back, hname, hx, h⟩ := of_run_char h
    obtain ⟨cs, back', hback, hcs, h⟩ := of_run_many h
    obtain ⟨hend, -⟩ := of_run_textEnd h
    rw [Cursor.rest_behind] at hback
    refine ⟨x, cs, hx, hcs, ?_⟩
    rw [show name = x :: back from hname, hback]
    rcases hend with hend | hend
    · rw [Cursor.rest_behind] at hend
      simp [hend]
    · rw [Cursor.rest_behind] at hend
      simp [hend]
  · rintro ⟨x, cs, hx, hcs, hname⟩
    obtain ⟨back, hback, hend⟩ :
        ∃ back, name = x :: (cs ++ back) ∧ (back = [] ∨ back = ['\n']) := by
      rcases hname with rfl | rfl
      · exact ⟨[], by simp, .inl rfl⟩
      · exact ⟨['\n'], by simp, .inr rfl⟩
    have hstop : (⟨((Cursor.start name).behind [x] (cs ++ back)).behind cs back, []⟩ :
      MatchState).place.EndsText := hend
    rw [run_char (c := Cursor.start name) hback hx]
    apply isSome_run_many rfl hcs
    rw [run_textEnd hstop]
    rfl

instance : Decidable (IsShaped first rest name) :=
  decidable_of_iff _ isSome_atStart?_shaped

end

/-- A naming convention. -/
structure Convention where
  /-- What it is called. -/
  label : String
  /-- The characters with which a name may start. -/
  first : CharSet
  /-- The characters with which it may go on. -/
  rest : CharSet

/-- All naming conventions in the order in which they are reported. -/
def Convention.all : List Convention := [
  ⟨"camelCase", CharSet.span 'a' 'z', CharSet.alnum⟩,
  ⟨"kebab-case", CharSet.span 'a' 'z', CharSet.or lowerOrDigit (CharSet.only '-')⟩,
  ⟨"snake_case", CharSet.span 'a' 'z', CharSet.or lowerOrDigit (CharSet.only '_')⟩,
  ⟨"PascalCase", CharSet.span 'A' 'Z', CharSet.alnum⟩]

/-- The table that is searched is the list of the conventions, each with its label and its
pattern. -/
theorem conventionTable_eq :
    conventionTable = Convention.all.map fun c => (c.label, shaped c.first c.rest) := rfl

namespace Convention

/-- Whether the name of a file follows a convention; the extension does not matter. -/
def Fits (c : Convention) (name : String) : Prop :=
  IsShaped c.first c.rest (Path.splitExtension name).1.toList

instance (c : Convention) : DecidablePred c.Fits := fun _ =>
  inferInstanceAs (Decidable (IsShaped ..))

/-- How many files of a tree follow a convention, directory by directory. -/
def count (c : Convention) (tree : Directory) : Nat :=
  (tree.subtrees.map fun d => d.files.countP fun r => c.Fits (fileName r)).sum

/-- A convention's count is the number of files below the tree whose names fit it. -/
theorem count_eq_countP (c : Convention) (tree : Directory) :
    c.count tree = tree.allFiles.countP fun r => c.Fits (fileName r) := by
  rw [Directory.allFiles_eq_flatMap_subtrees, List.countP_flatMap]
  rfl

/-- The count reads nothing of the files but their names. -/
theorem count_eq_countP_fileNames (c : Convention) (tree : Directory) :
    c.count tree = (fileNames tree).countP fun n => c.Fits n := by
  rw [count_eq_countP, fileNames, List.countP_map, Function.comp_def]

/-- The pattern is matched against the base name, so it fits exactly when the convention does. -/
theorem isSome_atStart?_iff_fits {c : Convention} {r : FileRecord} :
    ((shaped c.first c.rest).atStart? (baseName r).toList).isSome = true ↔ c.Fits (fileName r) :=
  isSome_atStart?_shaped

/-- The files that follow a convention's pattern are those the count counts. -/
theorem followers_eq_count (c : Convention) (tree : Directory) :
    followers (shaped c.first c.rest) tree.allFiles = c.count tree := by
  rw [count_eq_countP, followers]
  refine List.countP_congr fun r _ => ?_
  rw [decide_eq_true_eq]
  exact isSome_atStart?_iff_fits

/-- A convention is counted at all exactly when some directory of the tree holds a file that fits
it. -/
theorem count_pos_iff {c : Convention} {tree : Directory} :
    0 < c.count tree ↔ ∃ d ∈ tree.subtrees, ∃ r ∈ d.files, c.Fits (fileName r) := by
  rw [count_eq_countP, Directory.allFiles_eq_flatMap_subtrees, List.countP_pos_iff]
  simp only [List.mem_flatMap, decide_eq_true_eq]
  tauto

end Convention

/-! ### Ties -/

/-- A bound holds of the greatest of a list and a base exactly when it holds of one of them. -/
theorem le_foldl_max_iff {n b : Nat} {ns : List Nat} :
    n ≤ ns.foldl max b ↔ n ≤ b ∨ ∃ m ∈ ns, n ≤ m := by
  induction ns generalizing b with
  | nil => simp
  | cons m ns ih => rw [List.foldl_cons, ih, le_max_iff, or_assoc, List.exists_mem_cons_iff]

/-- Whether a convention has the most followers, and has one at all. -/
def IsMost (tree : Directory) (c : Convention) : Prop :=
  0 < c.count tree ∧ ∀ c' ∈ Convention.all, c'.count tree ≤ c.count tree

instance (tree : Directory) : DecidablePred (IsMost tree) := fun _ =>
  inferInstanceAs (Decidable (_ ∧ _))

/-- The number of followers of the convention that has the most. -/
def mostFollowers (tree : Directory) : Nat :=
  (Convention.all.map fun c => c.count tree).foldl max 0

/-- No convention is followed more often than the most followed one. -/
theorem count_le_mostFollowers {c : Convention} (tree : Directory) (hc : c ∈ Convention.all) :
    c.count tree ≤ mostFollowers tree :=
  le_foldl_max_iff.mpr (.inr ⟨_, List.mem_map_of_mem hc, le_rfl⟩)

/-- If any convention has a follower, one has as many as the most. -/
theorem exists_mostFollowers_le {tree : Directory} (h : mostFollowers tree ≠ 0) :
    ∃ c ∈ Convention.all, mostFollowers tree ≤ c.count tree := by
  obtain hle | ⟨m, hm, hle⟩ := le_foldl_max_iff.mp (le_refl (mostFollowers tree))
  · exact absurd (Nat.le_zero.mp hle) h
  · obtain ⟨c, hc, rfl⟩ := List.mem_map.mp hm
    exact ⟨c, hc, hle⟩

/-- A convention of the table is the most followed one when its count is the greatest and not
zero. -/
theorem isMost_iff {c : Convention} {tree : Directory} (hc : c ∈ Convention.all) :
    IsMost tree c ↔ mostFollowers tree ≠ 0 ∧ c.count tree = mostFollowers tree := by
  have hle := count_le_mostFollowers tree hc
  constructor
  · rintro ⟨hpos, hmost⟩
    have hne : mostFollowers tree ≠ 0 := (hpos.trans_le hle).ne'
    obtain ⟨c', hc', hge⟩ := exists_mostFollowers_le hne
    exact ⟨hne, hle.antisymm (hge.trans (hmost c' hc'))⟩
  · rintro ⟨hne, heq⟩
    rw [IsMost, heq]
    exact ⟨Nat.pos_of_ne_zero hne, fun c' hc' => count_le_mostFollowers tree hc'⟩

/-- The labels given are those of the conventions with the greatest count, in the order of the
table. -/
theorem conventionsOf_eq_ite (tree : Directory) : conventionsOf tree =
    if mostFollowers tree = 0 then []
    else (Convention.all.filter fun c =>
      c.count tree == mostFollowers tree).map Convention.label := by
  simp only [conventionsOf, conventionTable_eq, List.map_map, List.filter_map, Function.comp_def,
    Convention.followers_eq_count]
  rfl

/-- **The conventions with the most followers are reported, in order.** -/
theorem conventionsOf_eq (tree : Directory) :
    conventionsOf tree = (Convention.all.filter fun c => IsMost tree c).map Convention.label := by
  rw [conventionsOf_eq_ite]
  split
  · next h =>
    rw [List.filter_eq_nil_iff.mpr, List.map_nil]
    intro c hc
    rw [decide_eq_true_eq, isMost_iff hc]
    exact fun hmost => hmost.1 h
  · next h =>
    refine congrArg _ (List.filter_congr fun c hc => ?_)
    rw [Bool.eq_iff_iff, beq_iff_eq, decide_eq_true_eq, isMost_iff hc, and_iff_right h]

/-- Trees show the same conventions if all counts of one are the same multiple of those of the
other. -/
theorem conventionsOf_eq_of_count {k : Nat} (hk : 0 < k)
    (h : ∀ c : Convention, c.count d' = k * c.count d) : conventionsOf d' = conventionsOf d := by
  have hmost : ∀ c, IsMost d' c ↔ IsMost d c := by
    intro c
    simp only [IsMost, h, Nat.mul_le_mul_left_iff hk, Nat.mul_pos_iff_of_pos_left hk]
  rw [conventionsOf_eq, conventionsOf_eq]
  simp only [hmost]

/-- **Only the names of the files count.** -/
theorem conventionsOf_eq_of_perm (h : (fileNames d').Perm (fileNames d)) :
    conventionsOf d' = conventionsOf d := by
  apply conventionsOf_eq_of_count Nat.one_pos
  intro c
  rw [c.count_eq_countP_fileNames, c.count_eq_countP_fileNames, h.countP_eq, Nat.one_mul]

/-- Holding every file twice doubles each count and so leaves the leaders where they are. -/
theorem conventionsOf_doubled (d : Directory) : conventionsOf d.doubled = conventionsOf d := by
  apply conventionsOf_eq_of_count Nat.two_pos
  intro c
  rw [c.count_eq_countP, c.count_eq_countP, d.allFiles_doubled_perm.countP_eq, List.countP_append,
    Nat.two_mul]

/-- No convention is reported exactly if no file follows any. -/
theorem conventionsOf_eq_nil_iff (tree : Directory) : conventionsOf tree = [] ↔
    ∀ d ∈ tree.subtrees, ∀ r ∈ d.files, ∀ c ∈ Convention.all, ¬ c.Fits (fileName r) := by
  have hnil : conventionsOf tree = [] ↔ ∀ c ∈ Convention.all, ¬ IsMost tree c := by
    rw [conventionsOf_eq, List.map_eq_nil_iff, List.filter_eq_nil_iff]
    simp only [decide_eq_true_eq]
  rw [hnil]
  constructor
  · intro hnone d hd r hr c hc hfits
    have hpos : 0 < c.count tree := Convention.count_pos_iff.mpr ⟨d, hd, r, hr, hfits⟩
    have hne : mostFollowers tree ≠ 0 := (hpos.trans_le (count_le_mostFollowers tree hc)).ne'
    obtain ⟨c', hc', hge⟩ := exists_mostFollowers_le hne
    have heq := (count_le_mostFollowers tree hc').antisymm hge
    exact hnone c' hc' ((isMost_iff hc').mpr ⟨hne, heq⟩)
  · intro hnone c hc hmost
    obtain ⟨d, hd, r, hr, hfits⟩ := Convention.count_pos_iff.mp hmost.1
    exact hnone d hd r hr c hc hfits

/-- **The conventions that are reported are those with the most followers** among the files of all
directories, in the order of the table; there are none exactly if no file follows any. They stay the
same however the files are moved and the directories are renamed and reordered, also if every file
is there twice. -/
theorem conventionsOf_areTied (tree : Directory) :
    conventionsOf tree = (Convention.all.filter fun c => IsMost tree c).map Convention.label ∧
      (conventionsOf tree = [] ↔
        ∀ d ∈ tree.subtrees, ∀ r ∈ d.files, ∀ c ∈ Convention.all, ¬ c.Fits (fileName r)) ∧
      (∀ tree', Relation.ReflTransGen Rearranges tree tree' →
        conventionsOf tree' = conventionsOf tree) ∧
      ∀ tree', Relation.ReflTransGen Rearranges tree.doubled tree' →
        conventionsOf tree' = conventionsOf tree := by
  refine ⟨conventionsOf_eq tree, conventionsOf_eq_nil_iff tree, ?_, ?_⟩
  · intro tree' h
    exact conventionsOf_eq_of_perm (fileNames_perm_of_reflTransGen h)
  · intro tree' h
    rw [conventionsOf_eq_of_perm (fileNames_perm_of_reflTransGen h), conventionsOf_doubled]

/-- Two components and two modules make a tie of two conventions, and it stays one when a module
goes over to the components. -/
theorem conventionsOf_areTied_moved :
    let source (path : String) : FileRecord :=
      ⟨path, 1, ".js", ⟨"javascript", none, []⟩, .ofInt 0, 0⟩
    let parts (files : List FileRecord) : Directory :=
      .node "ui" "ui" "" [] files files.length 0 true
    let tools (files : List FileRecord) : Directory :=
      .node "lib" "lib" "" [] files files.length 0 true
    let components := [source "ui/UserCard.js", source "ui/NavBar.js"]
    let before : Directory := .node "app" "" "" [parts components,
      tools [source "lib/date-utils.js", source "lib/string-utils.js"]] [] 4 0 true
    let after : Directory := .node "app" "" "" [tools [source "lib/string-utils.js"],
      parts (components ++ [source "ui/date-utils.js"])] [] 4 0 true
    Relation.ReflTransGen Rearranges before after ∧
      conventionsOf before = ["kebab-case", "PascalCase"] ∧
      conventionsOf after = ["kebab-case", "PascalCase"] ∧
      conventionsOf before.doubled = ["kebab-case", "PascalCase"] := by
  intro source parts tools components before after
  obtain ⟨-, -, hrearranged, hdoubled⟩ := conventionsOf_areTied before
  have hbefore : conventionsOf before = ["kebab-case", "PascalCase"] := by
    decide
  have hmove : Rearranges before (.node "app" "" "" [
      parts (components ++ [source "ui/date-utils.js"]),
      tools [source "lib/string-utils.js"]] [] 4 0 true) := by
    let rest : Directory := .node "app" "" "" [parts components,
      tools [source "lib/string-utils.js"]] [] 3 0 true
    have hout : before.Without (source "lib/date-utils.js") rest :=
      .inside [parts components] [] (.here [] _)
    have hin : Directory.Without (source "ui/date-utils.js") (.node "app" "" "" [
        parts (components ++ [source "ui/date-utils.js"]),
        tools [source "lib/string-utils.js"]] [] 4 0 true) rest :=
      .inside [] _ (.here components [])
    exact .move hout hin (by decide)
  have hreaches : Relation.ReflTransGen Rearranges before after :=
    .tail (.single hmove) (.reorder (.swap ..))
  refine ⟨hreaches, hbefore, ?_, ?_⟩
  · rw [hrearranged after hreaches, hbefore]
  · rw [hdoubled _ .refl, hbefore]

end Layout

end ProjectSurvey
