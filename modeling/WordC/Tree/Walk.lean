import WordC.Tree.Sort

namespace WordC

-- One step of a walk: a node entered, or turned away from.
inductive Visit where
  | entered (node : Node)
  | stopped (node : Node)
deriving Repr

def Node.sortLabel (node : Node) : String := (node.sort?.map NodeSort.label).getD ""

def Visit.text : Visit → String
  | .entered node => node.sortLabel
  | .stopped node => s!"stop {node.sortLabel}"

-- A node comes before the nodes below it, unless its sort is one at which the walk stops.
def visit (stops : List NodeSort) (node : Node) (below : List Visit) : List Visit :=
  if node.sort?.any stops.contains then [.stopped node] else .entered node :: below

mutual

-- The nodes of a tree in the order of a walk that turns away from the sorts in `stops`. Absent nodes are
-- passed over.
def Node.walk (stops : List NodeSort) : Node → List Visit
  | .absent => []
  | node@(.bare _ _) | node@(.parameter _ _ _) | node@(.declare _ _ _) | node@(.number _ _)
  | node@(.var _ _) => visit stops node []
  | node@(.program _ functions) => visit stops node (Node.walkList stops functions)
  | node@(.function _ _ _ parameters statements result) =>
    visit stops node
      (Node.walkList stops parameters ++ Node.walkList stops statements ++ result.walk stops)
  | node@(.expression _ value) | node@(.ret _ value) => visit stops node (value.walk stops)
  | node@(.call _ _ arguments) => visit stops node (Node.walkList stops arguments)
  | node@(.chain _ _ operands) => visit stops node (Node.walkList stops operands)

def Node.walkList (stops : List NodeSort) : List Node → List Visit
  | [] => []
  | node :: rest => node.walk stops ++ Node.walkList stops rest

end

end WordC
