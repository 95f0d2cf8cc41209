import ProjectSurvey.Proofs.Disk.Tree
import ProjectSurvey.Walk

/-!
# What a walk sees

`Walk.seen` takes away what a walk cannot know: a directory that may not be searched shows the names
in it and which of them are directories, and no more. **A file is seen just where a way reaches it**
(`at?_seen_eq_some_iff`), and a directory that is seen can be listed just where a way reaches it and
the right to list it is given (`mayList_of_at?_seen`). Of the directories none goes unseen behind
directories that can be listed (`exists_at?_seen`).
-/

namespace ProjectSurvey.Walk

open Entry

/-! ### One entry -/

/-- What is seen of entries is seen of each. -/
theorem seenIn_eq_map (es : List (String × Entry)) :
    seenIn es = es.map fun p => (p.1, seen p.2) := by
  induction es with
  | nil => rfl
  | cons p es ih =>
    obtain ⟨n, e⟩ := p
    rw [seenIn, ih, List.map_cons]

/-- A name is seen to stand for what is seen of its entry. -/
theorem lookup_seenIn (es : List (String × Entry)) (n : String) :
    (seenIn es).lookup n = (es.lookup n).map seen := by
  induction es with
  | nil => rfl
  | cons p es ih =>
    obtain ⟨m, e⟩ := p
    rw [seenIn, List.lookup_cons, List.lookup_cons, ih]
    cases n == m <;> rfl

/-- What is no directory is seen as it is. -/
theorem seen_eq_self {e : Entry} (h : e.isDirectory = false) : seen e = e := by
  cases e with
  | file _ _ => rw [seen]; nofun; nofun
  | link _ _ => rw [seen]; nofun; nofun
  | directory _ _ _ => cases h

/-- A directory is seen to be one, with the right to list it and the right to search it. -/
theorem exists_seen_directory (es : List (String × Entry)) (b : ListRight) (g : Bool) :
    ∃ es', seen (directory es b g) = directory es' b g := by
  cases g with
  | false => exact ⟨_, by rw [seen]⟩
  | true => exact ⟨_, by rw [seen]⟩

/-- An entry is seen to be a directory just if it is one. -/
theorem isDirectory_seen (e : Entry) : (seen e).isDirectory = e.isDirectory := by
  cases e with
  | file _ _ => rw [seen_eq_self rfl]
  | link _ _ => rw [seen_eq_self rfl]
  | directory es b g =>
    obtain ⟨es', h⟩ := exists_seen_directory es b g
    rw [h]
    rfl

/-- An entry is seen to be what it is, where that is no directory. -/
theorem seen_eq_iff {e x : Entry} (hx : x.isDirectory = false) : seen e = x ↔ e = x := by
  constructor
  · rintro rfl
    rw [isDirectory_seen] at hx
    exact (seen_eq_self hx).symm
  · rintro rfl
    exact seen_eq_self hx

/-- In a directory that may be searched, a name stands for what is seen of its entry. -/
theorem child?_seen_of_searchable (es : List (String × Entry)) (b : ListRight) (n : String) :
    (seen (directory es b true)).child? n = (es.lookup n).map seen := by
  rw [seen]
  exact lookup_seenIn es n

/-- In a directory that may not be searched, every name stands for a directory that shows
nothing. -/
theorem eq_closed_of_child?_seen {es : List (String × Entry)} {b : ListRight} {n : String}
    {x : Entry} (h : (seen (directory es b false)).child? n = some x) : x = closed := by
  rw [seen] at h
  obtain ⟨p, -, hp⟩ := List.mem_map.mp (mem_of_lookup h)
  exact (Prod.ext_iff.mp hp).2.symm

/-- In a directory of a tree that may not be searched, the names of directories are seen. -/
theorem child?_seen_of_unsearchable {es : List (String × Entry)} (hnodup : (es.map Prod.fst).Nodup)
    (b : ListRight) (n : String) :
    (seen (directory es b false)).child? n =
      ((es.lookup n).filter isDirectory).map fun _ => closed := by
  rw [seen]
  show (((es.filter fun p => p.2.isDirectory).map fun p => (p.1, closed))).lookup n = _
  induction es with
  | nil => rfl
  | cons p es ih =>
    obtain ⟨m, e⟩ := p
    rw [List.map_cons, List.nodup_cons] at hnodup
    have ih := ih hnodup.2
    rw [List.lookup_cons]
    by_cases hn : n = m
    · subst hn
      have hnone : es.lookup n = none := by
        rw [← Option.not_isSome_iff_eq_none, Option.isSome_iff_exists]
        rintro ⟨x, hx⟩
        have hkey : (n, x).1 ∈ es.map Prod.fst := List.mem_map_of_mem (mem_of_lookup hx)
        exact hnodup.1 hkey
      rw [hnone] at ih
      cases hdir : e.isDirectory with
      | false =>
        rw [List.filter_cons_of_neg (by simp [hdir]), ih, beq_self_eq_true,
          Option.filter_some_neg (by simp [hdir])]
        rfl
      | true =>
        rw [List.filter_cons_of_pos (by simp [hdir]), List.map_cons, List.lookup_cons,
          beq_self_eq_true, Option.filter_some_pos hdir]
        rfl
    · have hne : (n == m) = false := by simpa using hn
      rw [hne, ← ih]
      cases hdir : e.isDirectory with
      | false => rw [List.filter_cons_of_neg (by simp [hdir])]
      | true =>
        rw [List.filter_cons_of_pos (by simp [hdir]), List.map_cons, List.lookup_cons, hne]

mutual

/-- What is seen of a tree is a tree. -/
theorem isTree_seen (e : Entry) (h : e.IsTree) : (seen e).IsTree :=
  match e with
  | .file _ _ => by rwa [seen_eq_self rfl]
  | .link _ _ => by rwa [seen_eq_self rfl]
  | .directory es b true => by
      rw [IsTree] at h
      have hkeys : (seenIn es).map Prod.fst = es.map Prod.fst := by
        rw [seenIn_eq_map, List.map_map]
        rfl
      rw [seen, IsTree, hkeys]
      exact ⟨h.1, areTrees_seenIn es h.2⟩
  | .directory es b false => by
      obtain ⟨hnodup, hall⟩ := isTree_directory.mp h
      rw [seen]
      refine isTree_directory.mpr ⟨?_, fun p hp => ?_⟩
      · rw [List.map_map]
        exact hnodup.sublist (List.filter_sublist.map Prod.fst)
      · obtain ⟨q, hq, rfl⟩ := List.mem_map.mp hp
        exact ⟨(hall q (List.mem_filter.mp hq).1).1, isTree_directory.mpr ⟨by simp, by simp⟩⟩

/-- What is seen of some trees is some trees. -/
theorem areTrees_seenIn (es : List (String × Entry)) (h : AreTrees es) : AreTrees (seenIn es) :=
  match es with
  | [] => trivial
  | (_, e) :: es => by
      rw [AreTrees] at h
      rw [seenIn, AreTrees]
      exact ⟨⟨h.1.1, isTree_seen e h.1.2⟩, areTrees_seenIn es h.2⟩

end

/-! ### What is seen at a location -/

/-- **A file is seen just where a way reaches it.** -/
theorem at?_seen_eq_some_iff {e x : Entry} {l : Location} (hx : x.isDirectory = false) :
    (seen e).at? l = some x ↔ e.reach? l = some x := by
  induction l generalizing e with
  | nil => simp only [at?, reach?, Option.some.injEq, seen_eq_iff hx]
  | cons n l ih =>
    rw [at?_cons, reach?_cons]
    cases e with
    | file _ _ =>
      rw [seen_eq_self rfl]
      simp [isSearchable, child?, entries]
    | link _ _ =>
      rw [seen_eq_self rfl]
      simp [isSearchable, child?, entries]
    | directory es b g =>
      cases g with
      | false =>
        simp only [isSearchable_directory, Bool.false_eq_true, if_false, reduceCtorEq, iff_false]
        intro h
        obtain ⟨c, hc, hat⟩ := Option.bind_eq_some_iff.mp h
        rw [eq_closed_of_child?_seen hc] at hat
        cases l with
        | nil =>
          cases hat
          cases hx
        | cons m l => cases hat
      | true =>
        rw [child?_seen_of_searchable, isSearchable_directory, if_pos rfl,
          show (directory es b true).child? n = es.lookup n from rfl]
        cases es.lookup n with
        | none => simp
        | some c => exact ih

/-- **A directory that is seen can be listed just where a way reaches it and the right is
given.** -/
theorem mayList_of_at?_seen {e d : Entry} {l : Location} (h : (seen e).at? l = some d) :
    e.mayList l = d.mayList [] := by
  induction l generalizing e with
  | nil =>
    cases h
    cases e with
    | file _ _ => rw [seen_eq_self rfl]
    | link _ _ => rw [seen_eq_self rfl]
    | directory es b g =>
      obtain ⟨es', hseen⟩ := exists_seen_directory es b g
      rw [hseen]
      cases b <;> rfl
  | cons n l ih =>
    rw [at?_cons, Option.bind_eq_some_iff] at h
    obtain ⟨c, hc, h⟩ := h
    rw [mayList_cons]
    cases e with
    | file _ _ => rw [seen_eq_self rfl] at hc; cases hc
    | link _ _ => rw [seen_eq_self rfl] at hc; cases hc
    | directory es b g =>
      cases g with
      | false =>
        rw [eq_closed_of_child?_seen hc] at h
        cases l with
        | nil =>
          cases h
          rfl
        | cons m l => cases h
      | true =>
        rw [child?_seen_of_searchable, Option.map_eq_some_iff] at hc
        obtain ⟨x, hx, rfl⟩ := hc
        rw [show (directory es b true).child? n = some x from hx]
        simpa using ih h

/-- A directory that is seen is there. -/
theorem exists_at?_of_at?_seen {e d : Entry} (htree : e.IsTree) {l : Location}
    (h : (seen e).at? l = some d) (hdir : d.isDirectory = true) :
    ∃ x, e.at? l = some x ∧ x.isDirectory = true := by
  induction l generalizing e with
  | nil =>
    cases h
    exact ⟨e, rfl, by rwa [isDirectory_seen] at hdir⟩
  | cons n l ih =>
    rw [at?_cons, Option.bind_eq_some_iff] at h
    obtain ⟨c, hc, h⟩ := h
    rw [at?_cons]
    cases e with
    | file _ _ => rw [seen_eq_self rfl] at hc; cases hc
    | link _ _ => rw [seen_eq_self rfl] at hc; cases hc
    | directory es b g =>
      cases g with
      | false =>
        rw [child?_seen_of_unsearchable (isTree_directory.mp htree).1, Option.map_eq_some_iff] at hc
        obtain ⟨x, hx, rfl⟩ := hc
        obtain ⟨hx, hxdir⟩ := Option.filter_eq_some_iff.mp hx
        cases l with
        | nil =>
          exact ⟨x, by rw [show (directory es b false).child? n = some x from hx]; rfl, hxdir⟩
        | cons m l => cases h
      | true =>
        rw [child?_seen_of_searchable, Option.map_eq_some_iff] at hc
        obtain ⟨x, hx, rfl⟩ := hc
        have hchild : (directory es b true).child? n = some x := hx
        rw [hchild]
        exact ih (htree.child hchild).2 h

/-- **Behind directories that can be listed, every directory is seen.** -/
theorem exists_at?_seen {e x : Entry} (htree : e.IsTree) {l : Location} (hx : e.at? l = some x)
    (hdir : x.isDirectory = true)
    (hlist : ∀ front n back, l = front ++ n :: back → e.mayList front = true) :
    ∃ d, (seen e).at? l = some d ∧ d.isDirectory = true := by
  induction l generalizing e with
  | nil =>
    cases hx
    exact ⟨seen x, rfl, by rwa [isDirectory_seen]⟩
  | cons n l ih =>
    rw [at?_cons, Option.bind_eq_some_iff] at hx
    obtain ⟨c, hc, hx⟩ := hx
    rw [at?_cons]
    cases e with
    | file _ _ => cases hc
    | link _ _ => cases hc
    | directory es b g =>
      have hlookup : es.lookup n = some c := hc
      cases g with
      | false =>
        cases l with
        | nil =>
          cases hx
          rw [child?_seen_of_unsearchable (isTree_directory.mp htree).1, hlookup]
          exact ⟨closed, by simp [hdir, at?], rfl⟩
        | cons m l =>
          have hnone := hlist [n] m l rfl
          rw [mayList_cons] at hnone
          cases hnone
      | true =>
        rw [child?_seen_of_searchable, hlookup]
        refine ih (htree.child hc).2 hx fun front m back hl => ?_
        have hfront := hlist (n :: front) m back (by rw [hl]; rfl)
        rw [mayList_cons, hc] at hfront
        simpa using hfront

end ProjectSurvey.Walk
