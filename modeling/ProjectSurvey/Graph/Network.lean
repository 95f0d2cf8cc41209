import ProjectSurvey.Graph.Basic
import ProjectSurvey.Text.Chars
import Std.Data.HashMap
import Std.Data.HashSet

/-!
# Who depends on whom

The network of files of a dependency graph, and what a change of one file reaches. Packages,
unresolved references and references with a missing end are left out. **Reachability is computed
level by level**, at most as many levels as there are files, and every file is entered once; a cycle
is a group of at least two files each of which reaches all the others, read off reachability itself
and not found by a search of its own. Neighbours are looked up in an index of the references, which
`Network.successors_eq` and `Network.predecessors_eq` say again without the index. A query about
what is no file of the network is refused (`UnknownFile`).
-/

namespace ProjectSurvey

/-- For every file the files at the other end of its references. -/
abbrev Neighbours := Std.HashMap String (List String)

/-- The second ends of some pairs by their first ends, in the order of the pairs. -/
def Neighbours.ofPairs (pairs : List (String × String)) : Neighbours :=
  pairs.foldr (fun p index => index.insert p.1 (p.2 :: index.getD p.1 [])) ∅

/-- The neighbours of a file are the other ends of its pairs, in their order. -/
theorem Neighbours.getD_ofPairs (pairs : List (String × String)) (file : String) :
    (ofPairs pairs).getD file [] = (pairs.filter fun p => p.1 == file).map Prod.snd := by
  induction pairs with
  | nil => simp [ofPairs]
  | cons p rest ih =>
    have step : ofPairs (p :: rest) =
        (ofPairs rest).insert p.1 (p.2 :: (ofPairs rest).getD p.1 []) := rfl
    by_cases h : p.1 = file
    · subst h
      simp [step, ih]
    · simp [step, Std.HashMap.getD_insert, h, ih]

/-- Files and the references between them. -/
structure Network where
  /-- The files, each once. -/
  files : List String
  /-- The references from a file to a file, each pair once. -/
  links : List (String × String)
  /-- References lead from files to files. -/
  mem_files_of_mem : ∀ l ∈ links, l.1 ∈ files ∧ l.2 ∈ files
  /-- No pair comes twice. -/
  nodup_links : links.Nodup
  /-- The files to which each file refers. -/
  forward : Neighbours := Neighbours.ofPairs links
  /-- The files that refer to each file. -/
  backward : Neighbours := Neighbours.ofPairs (links.map Prod.swap)
  /-- The index tells the references. -/
  forward_eq : forward = Neighbours.ofPairs links := by rfl
  /-- The index tells the references, read backwards. -/
  backward_eq : backward = Neighbours.ofPairs (links.map Prod.swap) := by rfl

/-- The network of some files and the references between them; what leads elsewhere is left out. -/
def Network.ofLinks (files : List String) (links : List (String × String)) : Network :=
  let known := Std.HashSet.ofList files
  { files
    links := Text.distinct (links.filter fun l => known.contains l.1 && known.contains l.2)
    mem_files_of_mem := by
      intro l hl
      simpa [known] using (List.mem_filter.mp (Text.mem_distinct.mp hl)).2
    nodup_links := Text.nodup_distinct _ }

/-- The network of the files of a graph. -/
def Graph.network (g : Graph) : Network :=
  Network.ofLinks ((g.nodes.filter fun (_, n) => !n.isExternal).map Prod.fst)
    ((g.edges.filter fun e => !e.unresolved).map fun e => (e.source, e.target))

namespace Network

/-- The files that a file refers to. -/
def successors (n : Network) (file : String) : List String := n.forward.getD file []

/-- The files that refer to a file. -/
def predecessors (n : Network) (file : String) : List String := n.backward.getD file []

/-- The successors of a file are the ends of the links that start there. -/
theorem successors_eq (n : Network) (file : String) :
    n.successors file = (n.links.filter fun l => l.1 == file).map Prod.snd := by
  rw [successors, n.forward_eq, Neighbours.getD_ofPairs]

/-- The predecessors of a file are the starts of the links that end there. -/
theorem predecessors_eq (n : Network) (file : String) :
    n.predecessors file = (n.links.filter fun l => l.2 == file).map Prod.fst := by
  rw [predecessors, n.backward_eq, Neighbours.getD_ofPairs, List.filter_map, List.map_map]
  rfl

/-- Everything reached by going on from `frontier` at most `levels` times, together with what was
`seen` before; a file once seen is not entered again. -/
def spread (next : String → List String) : (levels : Nat) → (frontier : List String) →
    (seen : Std.HashSet String) → Std.HashSet String
  | 0, _, seen => seen
  | levels + 1, frontier, seen =>
    match (frontier.flatMap next).foldl Text.Met.add ⟨seen, []⟩ with
    | ⟨seen, []⟩ => seen
    | ⟨seen, fresh⟩ => spread next levels fresh seen

/-- A file and what is reached from it. -/
def reachFrom (n : Network) (next : String → List String) (file : String) :
    Std.HashSet String :=
  spread next n.files.length [file] (Std.HashSet.ofList [file])

/-- The files other than `file` that are reached from it by one or more steps, sorted. -/
def reachedBy (n : Network) (next : String → List String) (file : String) : List String :=
  Text.sorted ((n.reachFrom next file).toList.filter (· ≠ file))

/-- The files that depend on `file` and on which it depends, itself included, sorted. -/
def groupOf (n : Network) (file : String) : List String :=
  let up := n.reachFrom n.predecessors file
  Text.sorted ((n.reachFrom n.successors file).toList.filter up.contains)

/-- The groups of at least two files that depend on one another, sorted. -/
def cycles (n : Network) : List (List String) :=
  let groups := Text.distinct ((n.files.map n.groupOf).filter fun g => 1 < g.length)
  groups.mergeSort fun a b => !decide (b < a)

/-! ## Queries about one file -/

/-- The refusal of a query about what is no file of a network. -/
structure UnknownFile where
  /-- What the query was about. -/
  path : String
  deriving DecidableEq

/-- The text of a refusal. -/
def UnknownFile.message (u : UnknownFile) : String := "Unknown file in dependency graph: " ++ u.path

/-- Refuses what is no file of the network. -/
def require (n : Network) (path : String) : Except UnknownFile Unit :=
  if n.files.contains path then .ok () else .error ⟨path⟩

/-- The files that depend on a file, directly or not. -/
def dependents (n : Network) (path : String) : Except UnknownFile (List String) := do
  n.require path
  return n.reachedBy n.predecessors path

/-- The files on which a file depends, directly or not. -/
def dependencies (n : Network) (path : String) : Except UnknownFile (List String) := do
  n.require path
  return n.reachedBy n.successors path

/-- What a change of one file reaches. -/
structure Impact where
  /-- The file. -/
  path : String
  /-- The files that refer to it. -/
  directDependents : List String
  /-- The files that depend on it, directly or not. -/
  transitiveDependents : List String
  /-- The files on which it depends, directly or not. -/
  dependencies : List String
  /-- Whether it belongs to a cycle. -/
  inCycle : Bool

/-- How risky the change is: by the number of files that depend on it. -/
def Impact.risk (i : Impact) : String :=
  let count := i.transitiveDependents.length
  if 10 ≤ count then "high" else if 3 ≤ count then "medium" else "low"

/-- The impact of a change of one file. -/
def impact (n : Network) (path : String) : Except UnknownFile Impact := do
  n.require path
  let inCycle := n.cycles.any fun group => group.contains path
  let transitiveDependents ← n.dependents path
  let dependencies ← n.dependencies path
  return {
    path, directDependents := Text.sorted (n.predecessors path), transitiveDependents,
    dependencies, inCycle }

/-! ## The files that matter most -/

/-- The files that are referred to most, with the number of files that refer to them: the most
referred to first, equal ones by name. -/
def hubs (n : Network) : List (String × Nat) :=
  let counted := n.files.map fun f => (f, (n.predecessors f).length)
  (counted.filter fun (_, c) => c ≠ 0).mergeSort fun a b =>
    decide (b.2 < a.2) || (a.2 == b.2 && decide (a.1 ≤ b.1))

end Network

end ProjectSurvey
