import WordC.Proofs.Parse.Places
import WordC.Proofs.Token.Places

namespace WordC

mutual

-- A node and all nodes inside it.
def Node.inside : Node → List Node
  | .program location functions => .program location functions :: Node.allInside functions
  | .function location name returnType parameters statements result =>
    .function location name returnType parameters statements result ::
      (Node.allInside parameters ++ Node.allInside statements ++ result.inside)
  | .expression location value => .expression location value :: value.inside
  | .ret location value => .ret location value :: value.inside
  | .call location called arguments => .call location called arguments :: Node.allInside arguments
  | .chain location tier operands => .chain location tier operands :: Node.allInside operands
  | .absent => [.absent]
  | .bare location sort => [.bare location sort]
  | .parameter location name typeName => [.parameter location name typeName]
  | .declare location typeName name => [.declare location typeName name]
  | .number location value => [.number location value]
  | .var location name => [.var location name]

def Node.allInside : List Node → List Node
  | [] => []
  | n :: rest => n.inside ++ Node.allInside rest

end

-- A node that lowering has no use for: nothing, a literal without a value, a chain without operands, or a function
-- without a name.
inductive Hollow : Node → Prop where
  | absent : Hollow .absent
  | valueless : Hollow (.number location none)
  | operandless : Hollow (.chain location tier [])
  | nameless : name = none ∨ name = some "" →
      Hollow (.function location name returnType parameters statements result)

theorem mem_allInside {ns : List Node} : n ∈ Node.allInside ns ↔ ∃ outer ∈ ns, n ∈ outer.inside := by
  induction ns with
  | nil => simp [Node.allInside]
  | cons first rest ih => simp [Node.allInside, ih]

namespace Lower

theorem mem_inside_nodes {es : List Expr}
    (each : ∀ e ∈ es, n ∈ e.node.inside → ∃ part ∈ parts e, n = part.node)
    (within : n ∈ Node.allInside (Expr.nodes es)) : ∃ part ∈ allParts es, n = part.node := by
  simp only [mem_allInside, Expr.nodes_eq_map, List.mem_map] at within
  obtain ⟨_, ⟨e, member, rfl⟩, deeper⟩ := within
  obtain ⟨part, there, rfl⟩ := each e member deeper
  exact ⟨part, mem_allParts.mpr ⟨e, member, there⟩, rfl⟩

-- The nodes of an expression are those of its parts.
theorem mem_inside_expr {e : Expr} (within : n ∈ e.node.inside) : ∃ part ∈ parts e, n = part.node := by
  induction e with
  | number location value => exact ⟨_, mem_parts_self _, List.mem_singleton.mp within⟩
  | var location name => exact ⟨_, mem_parts_self _, List.mem_singleton.mp within⟩
  | call location function arguments ih =>
    rcases List.mem_cons.mp within with rfl | deeper
    · exact ⟨_, mem_parts_self _, rfl⟩
    · obtain ⟨part, there, rfl⟩ := mem_inside_nodes ih deeper
      exact ⟨part, List.mem_cons_of_mem _ there, rfl⟩
  | chain location tier operands ih =>
    rcases List.mem_cons.mp within with rfl | deeper
    · exact ⟨_, mem_parts_self _, rfl⟩
    · obtain ⟨part, there, rfl⟩ := mem_inside_nodes ih deeper
      exact ⟨part, List.mem_cons_of_mem _ there, rfl⟩

theorem evaluated_of_mem {ss : List Stmt} (member : .expression location e ∈ ss) :
    ∃ scope', (scope', e) ∈ evaluationsFrom scope last ss := by
  induction ss generalizing scope with
  | nil => cases member
  | cons s rest ih =>
    rcases List.mem_cons.mp member with rfl | later
    · exact ⟨scope, List.mem_cons_self⟩
    · cases s with
      | declare _ _ name => exact ih later
      | expression _ value =>
        obtain ⟨scope', listed⟩ := ih later
        exact ⟨scope', List.mem_cons_of_mem _ listed⟩

theorem last_evaluated (scope : List Name) (last : Expr) (ss : List Stmt) :
    ∃ scope', (scope', last) ∈ evaluationsFrom scope last ss := by
  induction ss generalizing scope with
  | nil => exact ⟨scope, List.mem_singleton.mpr rfl⟩
  | cons s rest ih =>
    cases s with
    | declare _ _ name => exact ih (name :: scope)
    | expression _ value =>
      obtain ⟨scope', listed⟩ := ih scope
      exact ⟨scope', List.mem_cons_of_mem _ listed⟩

-- The nodes of a function are the function, its parameters and statements, and the nodes of what it evaluates.
inductive Belongs (f : Function) : Node → Prop where
  | function : Belongs f f.node
  | parameter : parameter ∈ f.parameters → Belongs f parameter.node
  | statement : statement ∈ f.statements → Belongs f statement.node
  | result : Belongs f f.result.node
  | part : evaluated ∈ evaluations f → part ∈ parts evaluated.2 → Belongs f part.node

theorem mem_inside_function {f : Function} (within : n ∈ f.node.inside) : Belongs f n := by
  rcases List.mem_cons.mp within with rfl | deeper
  · exact .function
  simp only [List.mem_append, mem_allInside, List.mem_map] at deeper
  rcases deeper with (⟨_, ⟨parameter, member, rfl⟩, here⟩ | ⟨_, ⟨statement, member, rfl⟩, here⟩) | returned
  · rw [List.mem_singleton.mp here]
    exact .parameter member
  · cases statement with
    | declare location typeName name =>
      rw [List.mem_singleton.mp here]
      exact .statement member
    | expression location value =>
      rcases List.mem_cons.mp here with rfl | deeper
      · exact .statement member
      · obtain ⟨part, there, rfl⟩ := mem_inside_expr deeper
        obtain ⟨scope, listed⟩ := evaluated_of_mem member
        exact .part listed there
  · rcases List.mem_cons.mp returned with rfl | deeper
    · exact .result
    · obtain ⟨part, there, rfl⟩ := mem_inside_expr deeper
      obtain ⟨scope, listed⟩ := last_evaluated (f.parameters.map Parameter.name) f.result.value f.statements
      exact .part listed there

theorem headed_not_hollow (headed : Grammar.HeadedBy token e) (valued : token.lexeme ≠ .number none) :
    ¬Hollow e.node := by
  obtain ⟨-, lead⟩ := headed
  intro hollow
  cases e with
  | number location value =>
    cases hollow
    exact valued (Option.some.inj lead).symm
  | var | call => cases hollow
  | chain location tier operands =>
    cases operands with
    | nil => simp [Expr.lead?] at lead
    | cons => cases hollow

-- The trees that are read from a text have nothing hollow in them.
theorem whole_of_scanned (scanned : tokenize file text = .ok tokens) (spelled : Grammar.IsProgram tokens p) :
    ∀ n ∈ p.node.inside, ¬Hollow n := by
  have marks := (Scan.tokenize_placed scanned).marks
  have rooted := Grammar.program_rooted spelled
  intro n within hollow
  rcases List.mem_cons.mp within with rfl | deeper
  · cases hollow
  simp only [mem_allInside, List.mem_map] at deeper
  obtain ⟨_, ⟨f, member, rfl⟩, deeper⟩ := deeper
  cases mem_inside_function deeper with
  | function =>
    obtain ⟨token, there, lexeme⟩ := (rooted f member).named
    obtain ⟨before, ahead, -, -, leads⟩ := marks token there
    rw [lexeme] at leads
    obtain ⟨written, after, named, filled, -⟩ := leads.named
    cases hollow with
    | nameless missing => simp [named, filled] at missing
  | @parameter parameter listed => cases hollow
  | @statement statement listed =>
    cases statement <;> cases hollow
  | result => cases hollow
  | part listed there =>
    obtain ⟨token, member', headed⟩ := (rooted f member).evaluated _ listed _ there
    refine headed_not_hollow headed ?_ hollow
    intro valueless
    obtain ⟨before, ahead, -, -, leads⟩ := marks token member'
    rw [valueless] at leads
    exact leads.valued rfl

end Lower

end WordC
