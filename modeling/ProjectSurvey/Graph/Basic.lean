import ProjectSurvey.Data.Assoc

/-!
# Dependency graphs

A graph whose nodes are files and external packages and whose edges are references. **Every edge
either points at a key of the nodes or is marked unresolved**; that is a property of the graphs
that `Graph.Build` makes, not of the type, because a graph may also be read from a file. Nodes keep
the order in which they were added; cycles, self loops and parallel edges are allowed.
-/

namespace ProjectSurvey

/-- A file or package in the graph. -/
structure GraphNode where
  /-- What it is: a kind of file, `asset` or `external`. -/
  kind : String
  /-- The language of a file. -/
  language : Option String
  /-- The names a file exports. -/
  exports : List String
  /-- The references a file holds. -/
  imports : List String
  /-- The version asked for of a package. -/
  version : Option String

/-- Whether the node is a package. -/
def GraphNode.isExternal (n : GraphNode) : Bool := n.kind == "external"

/-- A reference from one node to another. -/
structure GraphEdge where
  /-- The file that holds the reference. -/
  source : String
  /-- The file or package it means; for an unresolved edge the path that was not found. -/
  target : String
  /-- The kind of reference. -/
  kind : String
  /-- The reference as it is written. -/
  reference : String
  /-- Whether nothing was found. -/
  unresolved : Bool
  deriving DecidableEq

/-- A dependency graph. -/
structure Graph where
  /-- The nodes by path or package name. -/
  nodes : Assoc String GraphNode
  /-- The references. -/
  edges : List GraphEdge

namespace Graph

/-- The references to which nothing was found. -/
def unresolved (g : Graph) : List GraphEdge := g.edges.filter GraphEdge.unresolved

/-- The packages. -/
def external (g : Graph) : List String :=
  (g.nodes.filter fun (_, n) => n.isExternal).map Prod.fst

end Graph

end ProjectSurvey
