import Mathlib.Data.List.Lex
import WordC.Tree.Walk

namespace WordC

-- The way from a node to one below it, by the number of the child to take at each step.
abbrev Way := List Nat

-- The order in which a walk goes: a node before what is below it, and its children by their numbers.
def Way.Before : Way → Way → Prop := List.Lex (· < ·)

namespace Node

-- The nodes in the fields of a node, in the order of the fields.
def children : Node → List Node
  | .program _ functions => functions
  | .function _ _ _ parameters statements result => parameters ++ statements ++ [result]
  | .expression _ value | .ret _ value => [value]
  | .call _ _ arguments => arguments
  | .chain _ _ operands => operands
  | .absent | .bare _ _ | .parameter _ _ _ | .declare _ _ _ | .number _ _ | .var _ _ => []

-- The node at the end of a way, if one is there.
def at? (node : Node) : Way → Option Node
  | [] => if node.isAbsent then none else some node
  | i :: way => node.children[i]?.bind (·.at? way)

mutual

-- The ways to all nodes, as a walk goes them.
def ways : Node → List Way
  | .absent => []
  | .bare _ _ | .parameter _ _ _ | .declare _ _ _ | .number _ _ | .var _ _ => [[]]
  | .program _ functions => [] :: waysFrom 0 functions
  | .function _ _ _ parameters statements result =>
    [] :: (waysFrom 0 parameters ++ waysFrom parameters.length statements ++
      result.ways.map ((parameters.length + statements.length) :: ·))
  | .expression _ value | .ret _ value => [] :: value.ways.map (0 :: ·)
  | .call _ _ arguments => [] :: waysFrom 0 arguments
  | .chain _ _ operands => [] :: waysFrom 0 operands

def waysFrom (i : Nat) : List Node → List Way
  | [] => []
  | node :: rest => node.ways.map (i :: ·) ++ waysFrom (i + 1) rest

end

theorem sizeOf_child (inside : child ∈ children node) : sizeOf child < sizeOf node := by
  cases node with
  | program location nodes | call location name nodes | chain location tier nodes =>
    have smaller : sizeOf child < sizeOf nodes := List.sizeOf_lt_of_mem inside
    simp only [program.sizeOf_spec, call.sizeOf_spec, chain.sizeOf_spec]
    omega
  | function location name returnType parameters statements result =>
    simp only [function.sizeOf_spec]
    simp only [children, List.mem_append, List.mem_singleton] at inside
    rcases inside with (first | later) | rfl
    · have smaller := List.sizeOf_lt_of_mem first
      omega
    · have smaller := List.sizeOf_lt_of_mem later
      omega
    · omega
  | expression location value | ret location value =>
    rw [List.mem_singleton.mp inside]
    simp only [expression.sizeOf_spec, ret.sizeOf_spec]
    omega
  | absent | bare | parameter | declare | number | var => cases inside

-- What holds of a node whenever it holds of all its children holds of every node.
theorem induct_children {motive : Node → Prop} (step : ∀ node, (∀ child ∈ node.children, motive child) → motive node)
    (node : Node) : motive node :=
  step node fun child _inside => induct_children step child
termination_by sizeOf node
decreasing_by exact sizeOf_child _inside

theorem waysFrom_append (i : Nat) (first later : List Node) :
    waysFrom i (first ++ later) = waysFrom i first ++ waysFrom (i + first.length) later := by
  induction first generalizing i with
  | nil => rfl
  | cons node rest ih =>
    simp only [List.cons_append, waysFrom, ih, List.length_cons, List.append_assoc, Nat.add_assoc, Nat.add_comm 1]

theorem walkList_append (stops : List NodeSort) (first later : List Node) :
    walkList stops (first ++ later) = walkList stops first ++ walkList stops later := by
  induction first with
  | nil => rfl
  | cons node rest ih => simp only [List.cons_append, walkList, ih, List.append_assoc]

theorem ways_eq {node : Node} (present : node.isAbsent = false) : node.ways = [] :: waysFrom 0 node.children := by
  cases node with
  | absent => cases present
  | function => simp [ways, children, waysFrom_append, waysFrom]
  | bare | program | parameter | declare | expression | ret | number | var | call | chain =>
    simp [ways, children, waysFrom]

theorem visit_nil (node : Node) (below : List Visit) : visit [] node below = .entered node :: below := by
  cases node <;> rfl

theorem walk_eq {node : Node} (present : node.isAbsent = false) :
    node.walk [] = .entered node :: walkList [] node.children := by
  cases node with
  | absent => cases present
  | function => simp [walk, visit_nil, children, walkList_append, walkList]
  | bare | program | parameter | declare | expression | ret | number | var | call | chain =>
    simp [walk, visit_nil, children, walkList]

theorem eq_absent {node : Node} (absent : node.isAbsent = true) : node = .absent := by
  cases node with
  | absent => rfl
  | bare | program | function | parameter | declare | expression | ret | number | var | call | chain => cases absent

theorem at?_absent (way : Way) : Node.absent.at? way = none := by
  cases way <;> rfl

theorem mem_waysFrom {nodes : List Node} :
    way ∈ waysFrom i nodes ↔ ∃ k child rest, nodes[k]? = some child ∧ way = (i + k) :: rest ∧ rest ∈ child.ways := by
  induction nodes generalizing i with
  | nil => simp [waysFrom]
  | cons node rest ih =>
    simp only [waysFrom, List.mem_append, List.mem_map, ih]
    constructor
    · intro member
      rcases member with ⟨inner, inside, rfl⟩ | ⟨k, child, inner, found, rfl, inside⟩
      · exact ⟨0, node, inner, rfl, rfl, inside⟩
      · exact ⟨k + 1, child, inner, found, by rw [Nat.add_assoc, Nat.add_comm 1], inside⟩
    · intro found
      obtain ⟨k, child, inner, found, rfl, inside⟩ := found
      cases k with
      | zero =>
        cases found
        exact .inl ⟨inner, inside, rfl⟩
      | succ k => exact .inr ⟨k, child, inner, found, by rw [Nat.add_assoc, Nat.add_comm 1], inside⟩

-- A walk leaves no node out.
theorem mem_ways_iff (node : Node) : way ∈ node.ways ↔ (node.at? way).isSome := by
  induction node using induct_children generalizing way with
  | step node ih =>
    cases absent : node.isAbsent with
    | true => simp [eq_absent absent, ways, at?_absent]
    | false =>
      rw [ways_eq absent, List.mem_cons, mem_waysFrom]
      cases way with
      | nil => simp [at?, absent]
      | cons i way =>
        simp only [reduceCtorEq, false_or, Nat.zero_add, List.cons.injEq, at?]
        constructor
        · intro found
          obtain ⟨k, child, rest, found, ⟨rfl, rfl⟩, inside⟩ := found
          rw [found]
          exact (ih child (List.mem_of_getElem? found)).mp inside
        · intro there
          cases found : node.children[i]? with
          | none => simp [found] at there
          | some child =>
            rw [found] at there
            exact ⟨i, child, way, found, ⟨rfl, rfl⟩, (ih child (List.mem_of_getElem? found)).mpr there⟩

theorem waysFrom_inOrder {nodes : List Node} (each : ∀ child ∈ nodes, child.ways.Pairwise Way.Before) :
    (waysFrom i nodes).Pairwise Way.Before := by
  induction nodes generalizing i with
  | nil => exact .nil
  | cons node rest ih =>
    obtain ⟨first, later⟩ := List.forall_mem_cons.mp each
    rw [waysFrom, List.pairwise_append, List.pairwise_map]
    refine ⟨first.imp .cons, ih later, fun way member way' member' => ?_⟩
    obtain ⟨inner, -, rfl⟩ := List.mem_map.mp member
    obtain ⟨k, child, inner', -, rfl, -⟩ := mem_waysFrom.mp member'
    exact .rel (by omega)

-- It comes to no node twice.
theorem ways_inOrder (node : Node) : node.ways.Pairwise Way.Before := by
  induction node using induct_children with
  | step node ih =>
    cases absent : node.isAbsent with
    | true => simp [eq_absent absent, ways]
    | false =>
      rw [ways_eq absent, List.pairwise_cons]
      refine ⟨fun way member => ?_, waysFrom_inOrder ih⟩
      obtain ⟨k, child, rest, -, rfl, -⟩ := mem_waysFrom.mp member
      exact .nil

-- What a walk that stops nowhere does at the end of a way.
def sight (node : Node) (way : Way) : Option Visit := (node.at? way).map .entered

theorem walkList_ways {nodes : List Node} {look : Way → Option Visit}
    (each : ∀ child ∈ nodes, (child.walk []).map some = child.ways.map child.sight)
    (agrees : ∀ k child, nodes[k]? = some child → ∀ way, look ((i + k) :: way) = child.sight way) :
    (walkList [] nodes).map some = (waysFrom i nodes).map look := by
  induction nodes generalizing i with
  | nil => rfl
  | cons node rest ih =>
    obtain ⟨first, later⟩ := List.forall_mem_cons.mp each
    have here : node.ways.map (look ∘ (i :: ·)) = node.ways.map node.sight :=
      List.map_congr_left fun way _ => agrees 0 node rfl way
    have there : (walkList [] rest).map some = (waysFrom (i + 1) rest).map look := by
      apply ih later
      intro k child found way
      rw [← agrees (k + 1) child found way, Nat.add_assoc, Nat.add_comm 1]
    simp only [walkList, waysFrom, List.map_append, List.map_map, here, there, first]

theorem walk_ways (node : Node) : (node.walk []).map some = node.ways.map node.sight := by
  induction node using induct_children with
  | step node ih =>
    cases absent : node.isAbsent with
    | true => rw [eq_absent absent]; rfl
    | false =>
      have root : node.sight [] = some (.entered node) := by simp [sight, at?, absent]
      have below : (walkList [] node.children).map some = (waysFrom 0 node.children).map node.sight := by
        apply walkList_ways ih
        intro k child found way
        simp [sight, at?, found]
      rw [walk_eq absent, ways_eq absent, List.map_cons, List.map_cons, root, below]

end Node

end WordC
