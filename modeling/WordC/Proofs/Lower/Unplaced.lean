import WordC.Module.Lower
import WordC.Proofs.Except
import WordC.Proofs.Tree.Unplaced

namespace WordC.Lower

-- The rejection without its places.
def Rejection.unplaced : Rejection → Rejection
  | .redefinition name _ _ => .redefinition name none none
  | .undeclared name _ => .undeclared name none
  | .unknownFunction name _ => .unknownFunction name none
  | .wrongArgumentCount name expected actual _ => .wrongArgumentCount name expected actual none
  | .notAssignable _ => .notAssignable none
  | .defective defect => .defective defect

-- Tables in which every name takes the same number of arguments.
def Signatures.Agree (table other : Signatures) : Prop :=
  ∀ name, (other.find? name).map Signature.arity = (table.find? name).map Signature.arity

theorem Signatures.Agree.refl (table : Signatures) : table.Agree table := fun _ => rfl

theorem Signatures.Agree.find?_none {table other : Signatures} (agree : table.Agree other)
    (missing : table.find? name = none) : other.find? name = none := by
  have same := agree name
  rwa [missing, Option.map_none, Option.map_eq_none_iff] at same

theorem Signatures.Agree.find?_some {table other : Signatures} (agree : table.Agree other)
    (found : table.find? name = some declared) :
    ∃ declared', other.find? name = some declared' ∧ declared'.arity = declared.arity := by
  have same := agree name
  rwa [found, Option.map_some, Option.map_eq_some_iff] at same

@[simp] theorem name?_unplaced (n : Node) : n.unplaced.name? = n.name? := by
  cases n <;> rfl

@[simp] theorem location_unplaced (n : Node) : n.unplaced.location = none := by
  cases n <;> rfl

@[simp] theorem length_allUnplaced (ns : List Node) : (Node.allUnplaced ns).length = ns.length := by
  rw [Node.allUnplaced_eq_map, List.length_map]

theorem slotOf_unplaced (slots : Slots) (name : Name) (location : Option Location) :
    slotOf slots name none = (slotOf slots name location).mapError Rejection.unplaced := by
  unfold slotOf
  split <;> rfl

theorem parameters_unplaced (listed : List Node) (arguments : List String) (body : Progress) :
    parameters body ((Node.allUnplaced listed).zip arguments) =
      (parameters body (listed.zip arguments)).mapError Rejection.unplaced := by
  induction listed generalizing arguments body with
  | nil => rfl
  | cons first rest ih =>
    cases arguments with
    | nil => rfl
    | cons argument others =>
      simp only [Node.allUnplaced, List.zip_cons_cons, parameters, name?_unplaced]
      cases first.name? with
      | none => rfl
      | some name =>
        simp only [ih]
        cases parameters _ (rest.zip others) <;> rfl

theorem enter_unplaced (arity : Nat) (listed : List Node) :
    enter arity (Node.allUnplaced listed) = (enter arity listed).mapError Rejection.unplaced :=
  parameters_unplaced listed _ _

section

variable {table other : Signatures}

mutual

-- What lowering makes of a tree depends on the places in it only where it rejects the tree, and on the functions
-- around it only through the number of their parameters.
theorem node_unplaced (agree : table.Agree other) (n : Node) (body : Option Progress) :
    node other n.unplaced body = (node table n body).mapError Rejection.unplaced := by
  match n with
  | .absent | .bare .. | .parameter .. => rfl
  | .program _ functions =>
    have inside := present_unplaced agree functions body
    simpa only [Node.unplaced, node] using inside
  | .function _ name _ listed statements result =>
    have middle := fun body => nodes_unplaced agree statements body
    have last := fun body => node_unplaced agree result body
    simp only [Node.unplaced, node]
    cases found : table.find? name with
    | none => rw [agree.find?_none found]; rfl
    | some declared =>
      obtain ⟨declared', found', arity⟩ := agree.find?_some found
      simp only [found', arity, enter_unplaced]
      cases enter declared.arity listed with
      | error rejection => rfl
      | ok entered =>
        simp only [Except.mapError, middle]
        cases nodes table statements (some entered.2) with
        | error rejection => rfl
        | ok lowered =>
          simp only [last]
          cases node table result lowered.body with
          | error rejection => rfl
          | ok final =>
            obtain ⟨code, value, left⟩ := final
            cases left <;> rfl
  | .declare .. => cases body <;> rfl
  | .expression _ value =>
    have inside := node_unplaced agree value body
    simp only [Node.unplaced, node, inside]
    cases node table value body <;> rfl
  | .ret _ value =>
    have inside := node_unplaced agree value body
    simp only [Node.unplaced, node, inside]
    cases node table value body with
    | error rejection => rfl
    | ok lowered =>
      simp only [Except.mapError]
      cases lowered.body with
      | none => rfl
      | some body => simp only; split <;> rfl
  | .number _ value => cases value <;> rfl
  | .var location name =>
    cases body with
    | none => rfl
    | some body =>
      simp only [Node.unplaced, node, slotOf_unplaced body.slots name location]
      cases slotOf body.slots name location <;> rfl
  | .call _ name arguments =>
    have inside := operands_unplaced agree arguments body
    simp only [Node.unplaced, node]
    cases found : table.find? name with
    | none => rw [agree.find?_none found]; rfl
    | some declared =>
      obtain ⟨declared', found', arity⟩ := agree.find?_some found
      simp only [found', arity, length_allUnplaced, inside]
      split
      · rfl
      · rcases operands table arguments body with rejection | ⟨code, _ | values, _ | body⟩ <;> rfl
  | .chain _ tier sides =>
    cases tier with
    | sum => exact fold_unplaced agree .add (.constant 0) sides body
    | product => exact fold_unplaced agree .mul (.constant 1) sides body
    | assign => exact assign_unplaced agree [] sides body

theorem nodes_unplaced (agree : table.Agree other) (ns : List Node) (body : Option Progress) :
    nodes other (Node.allUnplaced ns) body = (nodes table ns body).mapError Rejection.unplaced := by
  match ns with
  | [] => rfl
  | first :: rest =>
    have here := node_unplaced agree first body
    have later := fun body => nodes_unplaced agree rest body
    simp only [Node.allUnplaced, nodes, here]
    cases node table first body with
    | error rejection => rfl
    | ok lowered =>
      simp only [Except.mapError, later]
      cases nodes table rest lowered.body <;> rfl

theorem present_unplaced (agree : table.Agree other) (ns : List Node) (body : Option Progress) :
    present other (Node.allUnplaced ns) body = (present table ns body).mapError Rejection.unplaced := by
  match ns with
  | [] => rfl
  | first :: rest =>
    have here := node_unplaced agree first body
    have later := fun body => present_unplaced agree rest body
    simp only [Node.allUnplaced, present, Node.isAbsent_unplaced, here, later]
    split
    · rfl
    · cases node table first body with
      | error rejection => rfl
      | ok lowered =>
        simp only [Except.mapError]
        cases present table rest lowered.body <;> rfl

theorem operands_unplaced (agree : table.Agree other) (ns : List Node) (body : Option Progress) :
    operands other (Node.allUnplaced ns) body = (operands table ns body).mapError Rejection.unplaced := by
  match ns with
  | [] => rfl
  | first :: rest =>
    have here := node_unplaced agree first body
    have later := fun body => operands_unplaced agree rest body
    simp only [Node.allUnplaced, operands, here]
    cases node table first body with
    | error rejection => rfl
    | ok lowered =>
      simp only [Except.mapError, later]
      cases operands table rest lowered.body <;> rfl

theorem fold_unplaced (agree : table.Agree other) (op : Arith) (reached : Operand) (ns : List Node)
    (body : Option Progress) :
    fold other op reached (Node.allUnplaced ns) body =
      (fold table op reached ns body).mapError Rejection.unplaced := by
  match ns with
  | [] => rfl
  | first :: rest =>
    have here := node_unplaced agree first body
    have later := fun reached body => fold_unplaced agree op reached rest body
    cases body with
    | none => rfl
    | some body =>
      simp only [Node.allUnplaced, fold, here]
      rcases node table first (some body) with rejection | ⟨code, value, left⟩
      · rfl
      · rcases value with _ | value <;> rcases left with _ | left
        · rfl
        · rfl
        · rfl
        · simp only [Except.mapError, later]
          cases fold table op _ rest _ <;> rfl

theorem assign_unplaced (agree : table.Agree other) (targets : List String) (ns : List Node)
    (body : Option Progress) :
    assign other targets (Node.allUnplaced ns) body =
      (assign table targets ns body).mapError Rejection.unplaced := by
  match ns with
  | [] => rfl
  | [last] =>
    have here := node_unplaced agree last body
    simp only [Node.allUnplaced, assign, here]
    rcases node table last body with rejection | ⟨code, _ | value, _ | body⟩ <;>
      simp only [Except.mapError] <;> split <;> rfl
  | target :: next :: rest =>
    have later := fun targets body => assign_unplaced agree targets (next :: rest) body
    simp only [Node.allUnplaced] at later
    cases target with
    | var location name =>
      cases body with
      | none => rfl
      | some body =>
        simp only [Node.allUnplaced, Node.unplaced, assign, slotOf_unplaced body.slots name location]
        cases slotOf body.slots name location with
        | error rejection => rfl
        | ok slot => exact later (slot :: targets) (some body)
    | _ => cases body <;> rfl

end

theorem function_unplaced (agree : table.Agree other) (f : Node) :
    function other f.unplaced = (function table f).mapError Rejection.unplaced := by
  cases f with
  | function location name returnType listed statements result =>
    have inside := node_unplaced agree (.function location name returnType listed statements result) none
    rw [Node.unplaced] at inside
    simp only [Node.unplaced, function, inside, length_allUnplaced]
    cases node table (.function location name returnType listed statements result) none <;> rfl
  | _ => rfl

-- The functions of a program are lowered one by one, from the arities of all of them and nothing else.
theorem function_congr (agree : table.Agree other) (lowered : function table f = .ok code) :
    function other f = .ok code := by
  have one := function_unplaced agree f
  have two := function_unplaced (.refl other) f
  rw [one, lowered] at two
  exact mapError_eq_ok.mp two.symm

end

def Signature.unplaced (declared : Signature) : Signature := { declared with location := none }

theorem find?_map_unplaced (table : Signatures) (name : Name) :
    Signatures.find? (table.map Signature.unplaced) name = (table.find? name).map Signature.unplaced := by
  simp only [Signatures.find?, List.find?_map]
  rfl

theorem agree_unplaced (table : Signatures) : table.Agree (table.map Signature.unplaced) := by
  intro name
  rw [find?_map_unplaced, Option.map_map]
  rfl

theorem declareFrom_unplaced (table : Signatures) (functions : List Node) :
    declareFrom (table.map Signature.unplaced) (functions.map Node.unplaced) =
      ((declareFrom table functions).map (List.map Signature.unplaced)).mapError Rejection.unplaced := by
  induction functions generalizing table with
  | nil => rfl
  | cons first rest ih =>
    simp only [List.map_cons, declareFrom, name?_unplaced, location_unplaced, find?_map_unplaced]
    cases first.name? with
    | none => rfl
    | some name =>
      simp only
      cases table.find? name with
      | some earlier => rfl
      | none =>
        cases first with
        | function location _ _ listed _ _ =>
          have later := ih (table ++ [⟨name, listed.length, location⟩])
          rw [List.map_append] at later
          simp only [Option.map_none, Node.unplaced, length_allUnplaced]
          by_cases empty : name = some ""
          · rw [if_pos empty, if_pos empty]
            rfl
          · rw [if_neg empty, if_neg empty]
            exact later
        | _ => rfl

-- A tree that is lowered is lowered to the same module wherever its parts stand, and one that is rejected is
-- rejected for the same reason.
theorem program_unplaced (moduleName : String) (tree : Node) :
    program moduleName tree.unplaced = (program moduleName tree).mapError Rejection.unplaced := by
  cases tree with
  | program location functions =>
    have declared := declareFrom_unplaced [] functions
    rw [List.map_nil] at declared
    simp only [Node.unplaced, program, Node.allUnplaced_eq_map, declare, declared]
    cases declareFrom [] functions with
    | error rejection => rfl
    | ok table =>
      have each : functions.mapM (function (table.map Signature.unplaced) ∘ Node.unplaced) =
          (functions.mapM (function table)).mapError Rejection.unplaced :=
        mapM_mapError fun f _ => function_unplaced (agree_unplaced table) f
      simp only [Except.map, Except.mapError, ok_bind, List.mapM_map]
      rw [each]
      cases functions.mapM (function table) <;> rfl
  | _ => rfl

end WordC.Lower
