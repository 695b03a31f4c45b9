import WordC.Tree.Same

namespace WordC

mutual

-- The tree without its locations.
def Node.unplaced : Node → Node
  | .absent => .absent
  | .bare _ sort => .bare none sort
  | .program _ functions => .program none (Node.allUnplaced functions)
  | .function _ name returnType parameters statements result =>
    .function none name returnType (Node.allUnplaced parameters) (Node.allUnplaced statements)
      result.unplaced
  | .parameter _ name typeName => .parameter none name typeName
  | .declare _ typeName name => .declare none typeName name
  | .expression _ value => .expression none value.unplaced
  | .ret _ value => .ret none value.unplaced
  | .number _ value => .number none value
  | .var _ name => .var none name
  | .call _ callee arguments => .call none callee (Node.allUnplaced arguments)
  | .chain _ tier operands => .chain none tier (Node.allUnplaced operands)

def Node.allUnplaced : List Node → List Node
  | [] => []
  | node :: rest => node.unplaced :: Node.allUnplaced rest

end

mutual

-- Trees are the same exactly when nothing but locations tells them apart.
theorem Node.same_iff (a b : Node) : a.same b ↔ a.unplaced = b.unplaced := by
  match a with
  | .absent | .bare .. | .parameter .. | .declare .. | .number .. | .var .. =>
    cases b <;> simp [Node.same, Node.unplaced]
  | .program _ functions =>
    cases b <;> simp [Node.same, Node.unplaced, Node.sameList_iff functions]
  | .function _ _ _ parameters statements result =>
    cases b <;> simp [Node.same, Node.unplaced, Node.sameList_iff parameters, Node.sameList_iff statements,
      Node.same_iff result, and_assoc]
  | .expression _ value | .ret _ value =>
    cases b <;> simp [Node.same, Node.unplaced, Node.same_iff value]
  | .call _ _ operands | .chain _ _ operands =>
    cases b <;> simp [Node.same, Node.unplaced, Node.sameList_iff operands]

theorem Node.sameList_iff (as bs : List Node) :
    Node.sameList as bs ↔ Node.allUnplaced as = Node.allUnplaced bs := by
  match as with
  | [] => cases bs <;> simp [Node.sameList, Node.allUnplaced]
  | a :: rest =>
    cases bs <;> simp [Node.sameList, Node.allUnplaced, Node.same_iff a, Node.sameList_iff rest]

end

theorem Node.allUnplaced_eq_map (nodes : List Node) : Node.allUnplaced nodes = nodes.map Node.unplaced := by
  induction nodes with
  | nil => rfl
  | cons node rest ih => simp [Node.allUnplaced, ih]

@[simp] theorem Node.isAbsent_unplaced (node : Node) : node.unplaced.isAbsent = node.isAbsent := by
  cases node <;> rfl

theorem Program.same_iff {p q : Program} : p.same q ↔ p.node.unplaced = q.node.unplaced :=
  Node.same_iff p.node q.node

end WordC
