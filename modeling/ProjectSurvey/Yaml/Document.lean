import ProjectSurvey.Yaml.Node
import ProjectSurvey.Yaml.Value

/-!
# Documents of YAML

The values of the nodes of a text. Containers are made empty and filled later, in the order in which
they were met: **what stands further out is looked at first**, so of two values with a fault the one
that is nested less counts, and a container may hold itself. A mapping is flattened when it is
filled: the members of the mappings merged into it are put in front of its own, and stay there for
every later use of the node. `Document.ofText` is the whole way from a text to its document.
-/

namespace ProjectSurvey.Yaml

/-- What a container holds. -/
inductive Container where
  /-- The items of a list. -/
  | list (items : List Value)
  /-- The items of a list of pairs. -/
  | pairs (items : List (Value × Value))
  /-- The members of a mapping; of those with one key the last counts. -/
  | table (members : List (Value × Value))
  /-- The members of a set. -/
  | set (members : List Value)

/-- Whether a container holds anything. -/
def Container.isEmpty : Container → Bool
  | list items => items.isEmpty
  | pairs items => items.isEmpty
  | table members => members.isEmpty
  | set members => members.isEmpty

/-- A value with the containers that it names. -/
structure Document where
  /-- The value. -/
  root : Value
  /-- What the container of each node holds. -/
  containers : Array (Option Container)

namespace Document

/-- What a value holds, if it is a container. -/
def content? (d : Document) : Value → Option Container
  | .container n => (d.containers[n]?).join
  | _ => none

/-- Whether a value counts as true: it is neither nothing, nor zero, nor empty. -/
def truthy (d : Document) : Value → Bool
  | .null => false
  | .bool b => b
  | .int n => n ≠ 0
  | .real x => !x.isZero
  | .text s => !s.isEmpty
  | .octets bytes => !bytes.isEmpty
  | .moment => true
  | .container n => ((d.content? (.container n)).map fun c => !c.isEmpty).getD false

/-- Whether a value is a mapping. -/
def isTable (d : Document) (v : Value) : Bool :=
  match d.content? v with
  | some (.table _) => true
  | _ => false

/-- The items of a list. -/
def items? (d : Document) (v : Value) : Option (List Value) :=
  match d.content? v with
  | some (.list items) => some items
  | _ => none

/-- The member of a mapping under a text. -/
def get? (d : Document) (v : Value) (key : String) : Option Value :=
  match d.content? v with
  | some (.table members) => (members.reverse.find? fun (k, _) => k.isText key).map Prod.snd
  | _ => none

end Document

/-! ## Filling containers -/

/-- How many members of all mappings ask for a merge. -/
def mergeCount (nodes : Array Node) : Nat :=
  let isMerge (m : Nat × Nat) : Bool := (nodes[m.1]?).any fun k => k.tag == .merge
  nodes.foldl (fun n node => n + node.members.countP isMerge) 0

/-- Values in the making. -/
structure Making where
  /-- How many members ask for a merge before the first mapping is flattened. -/
  merges : Nat
  /-- The nodes, flattened as far as they were needed. -/
  nodes : Array Node
  /-- The values made so far. -/
  values : Array (Option Value)
  /-- The containers filled so far. -/
  containers : Array (Option Container)
  /-- The containers that wait to be filled, the last one first. -/
  waiting : List Nat

/-- A maker of values. -/
abbrev Maker := StateT Making (Except Fault)

namespace Maker

/-- Gives up. -/
def fail {α : Type} (f : Fault) : Maker α := fun _ => .error f

/-- The node of a number. -/
def nodeAt (n : Nat) : Maker Node := fun s => .ok ((s.nodes[n]?).getD Node.nothing, s)

/-- Puts a node in the place of another. -/
def setNode (n : Nat) (node : Node) : Maker Unit :=
  modify fun s => { s with nodes := s.nodes.setIfInBounds n node }

/-- Whether the node of a number has a tag. -/
def hasTag (tag : Tag) (n : Nat) : Maker Bool := do return (← nodeAt n).tag == tag

/-! ### Merged mappings -/

/-- How deeply merged mappings may nest. -/
def mergeLimit : Nat := 985

/-- The members in front of the first one whose key asks for a merge, and the others. -/
def splitAtMerge (acc : List (Nat × Nat)) :
    List (Nat × Nat) → Maker (List (Nat × Nat) × List (Nat × Nat))
  | [] => return (acc.reverse, [])
  | m :: ms => do
    if ← hasTag .merge m.1 then return (acc.reverse, m :: ms)
    else splitAtMerge (m :: acc) ms

/-- Makes the key of a default value a mere text. -/
def plainKey (m : Nat × Nat) : Maker Unit := do
  if ← hasTag .value m.1 then
    setNode m.1 { ← nodeAt m.1 with tag := .str }

/-- Flattens the mapping `n`, of which `seen` members have been looked at and `found` have been
merged in. The member that asks for a merge is dropped before the merged mappings are flattened in
their turn, so each round has one such member less to come. -/
def flatten (depth : Nat) : (fuel n seen : Nat) → (found : List (Nat × Nat)) → Maker Unit
  | 0, _, _, _ => fail .tooDeep
  | fuel + 1, n, seen, found => do
    if mergeLimit ≤ depth then fail .tooDeep
    let node ← nodeAt n
    let (front, ms) := node.members.splitAt seen
    let (own, others) ← splitAtMerge [] ms
    own.forM plainKey
    match others with
    | [] => setNode n { node with content := .mapping (found ++ front ++ own) }
    | (_, v) :: rest =>
      setNode n { node with content := .mapping (front ++ own ++ rest) }
      let membersOf (i : Nat) : Maker (List (Nat × Nat)) := do
        flatten (depth + 1) fuel i 0 []
        return (← nodeAt i).members
      let more ← match (← nodeAt v).content with
        | .mapping _ => membersOf v
        | .sequence items => do
          let parts ← items.mapM fun i => do
            match (← nodeAt i).content with
            | .mapping _ => membersOf i
            | _ => fail .malformed
          pure parts.reverse.flatten
        | .scalar _ => fail .malformed
      flatten depth fuel n (seen + own.length) (found ++ more)

/-! ### Values -/

/-- How many default values may stand for one another in turn. -/
def defaultLimit : Nat := 980

/-- The text that a node stands for where a scalar is asked for: its own, or that of the default
value of a mapping. -/
def textOf : (fuel n : Nat) → Maker String
  | 0, _ => fail .tooDeep
  | fuel + 1, n => do
    match (← nodeAt n).content with
    | .scalar text => return text
    | .sequence _ => fail .malformed
    | .mapping ms =>
      match ← ms.findM? fun m => hasTag .value m.1 with
      | some (_, v) => textOf fuel v
      | none => fail .malformed

/-- The value of a node; a container is put with those that wait to be filled. -/
def valueOf (n : Nat) : Maker Value := do
  match ((← get).values[n]?).join with
  | some v => return v
  | none =>
    let node ← nodeAt n
    let v ←
      if node.tag.isContainer then do
        modify fun s => { s with waiting := n :: s.waiting }
        pure (.container n)
      else if node.tag.isScalar then do
        let text ← textOf defaultLimit n
        match node.tag, node.content with
        | .timestamp, .mapping _ => fail .momentOfMapping
        | tag, _ => fun s => (scalarValue tag text).map fun v => (v, s)
      else fail .malformed
    modify fun s => { s with values := s.values.setIfInBounds n (some v) }
    return v

/-- The values of a member of a mapping. -/
def memberOf (m : Nat × Nat) : Maker (Value × Value) := do
  let k ← valueOf m.1
  if k.canBeKey then return (k, ← valueOf m.2) else fail .malformed

/-- The values of the members of a mapping and of those merged into it. -/
def membersOf (n : Nat) : Maker (List (Value × Value)) := do
  flatten 0 ((← get).merges + 1) n 0 []
  (← nodeAt n).members.mapM memberOf

/-- The pair of values of a mapping with one member. -/
def pairOf (n : Nat) : Maker (Value × Value) := do
  match (← nodeAt n).content with
  | .mapping [(k, v)] => return (← valueOf k, ← valueOf v)
  | _ => fail .malformed

/-- What the container of a node holds. -/
def contentOf (n : Nat) : Maker Container := do
  let node ← nodeAt n
  match node.tag, node.content with
  | .seq, .sequence items => return .list (← items.mapM valueOf)
  | .map, .mapping _ => return .table (← membersOf n)
  | .set, .mapping _ => return .set ((← membersOf n).map Prod.fst)
  | .omap, .sequence items => return .pairs (← items.mapM pairOf)
  | .pairs, .sequence items => return .pairs (← items.mapM pairOf)
  | _, _ => fail .malformed

/-- Fills the container of a node. -/
def fill (n : Nat) : Maker Unit := do
  let c ← contentOf n
  modify fun s => { s with containers := s.containers.setIfInBounds n (some c) }

/-- Fills the waiting containers, and then those that came to wait meanwhile. A node waits once
only, so there are fewer rounds than nodes. -/
def fillAll : (fuel : Nat) → Maker Unit
  | 0 => return ()
  | fuel + 1 => do
    match (← get).waiting with
    | [] => return ()
    | waiting =>
      modify fun s => { s with waiting := [] }
      waiting.reverse.forM fill
      fillAll fuel

end Maker

namespace Document

/-- The document of some nodes; without an outermost one it is nothing. -/
def ofGraph (g : Graph) : Except Fault Document :=
  match g.root with
  | none => .ok ⟨.null, #[]⟩
  | some n => do
    let size := g.nodes.size
    let start : Making :=
      ⟨mergeCount g.nodes, g.nodes, Array.replicate size none, Array.replicate size none, []⟩
    let (v, s) ← (do
      let v ← Maker.valueOf n
      Maker.fillAll (size + 1)
      return v : Maker Value).run start
    .ok ⟨v, s.containers⟩

/-- The document of a text. -/
def ofText (cs : List Char) : Except Fault Document := do ofGraph (← Graph.ofText cs)

end Document

end ProjectSurvey.Yaml
