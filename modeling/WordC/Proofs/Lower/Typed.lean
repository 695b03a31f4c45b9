import WordC.Module.Lower
import WordC.Proofs.Except
import WordC.Proofs.Lower.Declare

namespace WordC.Lower.Typed

-- Lowering as it goes for the trees of a `Program`: a function is open all the time, every expression has a
-- value, and only statements change the variables. It is the same as the lowering of nodes.

-- The code of one or several expressions, what they leave, and the names after them.
structure Emitted (α : Type) where
  code : List Instr
  value : α
  names : Names

mutual

def expr (table : Signatures) (slots : Slots) : Expr → Names → Except Rejection (Emitted Operand)
  | .number _ none, _ => .error (.defective .absentValue)
  | .number _ (some value), names => .ok ⟨[], .constant (signedLiteral value), names⟩
  | .var location name, names => do
    let slot ← slotOf slots name location
    let (result, names) := names.fresh name.text
    return ⟨[.load result slot], .register result, names⟩
  | .call location function arguments, names =>
    match table.find? function with
    | none => .error (.unknownFunction function location)
    | some signature =>
      if arguments.length ≠ signature.arity then
        .error (.wrongArgumentCount function signature.arity arguments.length location)
      else do
        let given ← exprs table slots arguments names
        let (result, names) := given.names.fresh "call"
        return ⟨given.code ++ [.call result function given.value], .register result, names⟩
  | .chain _ .sum terms, names => fold table slots .add (.constant 0) terms names
  | .chain _ .product factors, names => fold table slots .mul (.constant 1) factors names
  | .chain _ .assign sides, names => assign table slots [] sides names

def exprs (table : Signatures) (slots : Slots) :
    List Expr → Names → Except Rejection (Emitted (List Operand))
  | [], names => .ok ⟨[], [], names⟩
  | first :: rest, names => do
    let here ← expr table slots first names
    let later ← exprs table slots rest here.names
    return ⟨here.code ++ later.code, here.value :: later.value, later.names⟩

def fold (table : Signatures) (slots : Slots) (op : Arith) (reached : Operand) :
    List Expr → Names → Except Rejection (Emitted Operand)
  | [], names => .ok ⟨[], reached, names⟩
  | first :: rest, names => do
    let here ← expr table slots first names
    let (result, names) := here.names.fresh (joinHint op)
    let later ← fold table slots op (.register result) rest names
    return ⟨here.code ++ .arith op result reached here.value :: later.code, later.value, later.names⟩

def assign (table : Signatures) (slots : Slots) (targets : List String) :
    List Expr → Names → Except Rejection (Emitted Operand)
  | [], _ => .error (.defective .noOperands)
  | [last], names => do
    let here ← expr table slots last names
    let (stores, names) := storeAll here.value targets here.names
    return ⟨here.code ++ stores, here.value, names⟩
  | target :: next :: rest, names =>
    match target with
    | .var location name => do
      let slot ← slotOf slots name location
      assign table slots (slot :: targets) (next :: rest) names
    | other => .error (.notAssignable other.node.location)

end

def stmt (table : Signatures) (names : Names) (slots : Slots) :
    Stmt → Except Rejection (List Instr × Names × Slots)
  | .declare _ _ name =>
    let (slot, names) := names.fresh name.text
    .ok ([.alloca slot], names, slots.bind name slot)
  | .expression _ value => do
    let here ← expr table slots value names
    return (here.code, here.names, slots)

def stmts (table : Signatures) (names : Names) (slots : Slots) :
    List Stmt → Except Rejection (List Instr × Names × Slots)
  | [] => .ok ([], names, slots)
  | first :: rest => do
    let (code, names, slots) ← stmt table names slots first
    let (later, names, slots) ← stmts table names slots rest
    return (code ++ later, names, slots)

def parameters (names : Names) (slots : Slots) :
    List (Parameter × String) → List Instr × Names × Slots
  | [] => ([], names, slots)
  | (parameter, argument) :: rest =>
    let (slot, names) := names.fresh parameter.name.text
    let (later, names, slots) := parameters names.skip (slots.bind parameter.name slot) rest
    (.alloca slot :: .store (.register argument) slot :: later, names, slots)

def body (table : Signatures) (f : Function) : Except Rejection (List Instr) := do
  let (arguments, _, names) := entryNames f.arity
  let (entry, names, slots) := parameters names .empty (f.parameters.zip arguments)
  let (middle, names, slots) ← stmts table names slots f.statements
  let last ← expr table slots f.result.value names
  return entry ++ middle ++ last.code ++ [.ret (some last.value)]

theorem slotOf_ok (found : slotOf slots name location = .ok slot) : slots.lookup name = some slot := by
  unfold slotOf at found
  split at found
  · cases found
    assumption
  · cases found

-- An expression's part of the lowering of nodes. The variables stay as they were.
def Emitted.lowered (slots : Slots) (closed : Bool) (out : Emitted Operand) : Lowered :=
  ⟨out.code, some out.value, some ⟨out.names, slots, closed⟩⟩

-- Lowering an expression as a node is lowering it as an expression.
def SameAsNode (table : Signatures) (slots : Slots) (closed : Bool) (e : Expr) : Prop :=
  ∀ names, node table e.node (some ⟨names, slots, closed⟩) =
    (expr table slots e names).map (Emitted.lowered slots closed)

variable {table : Signatures} {slots : Slots} {closed : Bool}

theorem operands_exprs {es : List Expr} (each : ∀ e ∈ es, SameAsNode table slots closed e) (names : Names) :
    operands table (Expr.nodes es) (some ⟨names, slots, closed⟩) =
      (exprs table slots es names).map fun out =>
        (out.code, some out.value, some ⟨out.names, slots, closed⟩) := by
  induction es generalizing names with
  | nil => rfl
  | cons first rest ih =>
    have here := each first (by simp) names
    rw [Expr.nodes, operands, exprs, here]
    cases expr table slots first names with
    | error rejection => rfl
    | ok out =>
      have later := ih (fun e member => each e (by simp [member])) out.names
      simp only [Except.map, Emitted.lowered, later, bind, Except.bind]
      cases exprs table slots rest out.names <;> rfl

theorem fold_fold {op : Arith} {es : List Expr} (each : ∀ e ∈ es, SameAsNode table slots closed e)
    (reached : Operand) (names : Names) :
    Lower.fold table op reached (Expr.nodes es) (some ⟨names, slots, closed⟩) =
      (fold table slots op reached es names).map (Emitted.lowered slots closed) := by
  induction es generalizing reached names with
  | nil => rfl
  | cons first rest ih =>
    have here := each first (by simp) names
    rw [Expr.nodes, Lower.fold, fold, here]
    cases expr table slots first names with
    | error rejection => rfl
    | ok out =>
      have later := ih (fun e member => each e (by simp [member]))
        (.register (out.names.fresh (joinHint op)).1) (out.names.fresh (joinHint op)).2
      simp only [Except.map, Emitted.lowered, later, bind, Except.bind]
      cases fold table slots op (.register (out.names.fresh (joinHint op)).1) rest
        (out.names.fresh (joinHint op)).2 <;> rfl

theorem assign_assign {es : List Expr} (each : ∀ e ∈ es, SameAsNode table slots closed e)
    (targets : List String) (names : Names) :
    Lower.assign table targets (Expr.nodes es) (some ⟨names, slots, closed⟩) =
      (assign table slots targets es names).map (Emitted.lowered slots closed) := by
  induction es generalizing targets with
  | nil => rfl
  | cons first rest ih =>
    cases rest with
    | nil =>
      have here := each first (by simp) names
      rw [Expr.nodes, Expr.nodes, Lower.assign, assign, here]
      cases expr table slots first names <;> rfl
    | cons next rest =>
      have later := fun targets => ih (fun e member => each e (by simp [member])) targets
      cases first with
      | var location name =>
        simp only [Expr.nodes, Expr.node, Lower.assign, assign]
        cases slotOf slots name location with
        | error rejection => rfl
        | ok slot => exact later (slot :: targets)
      | number location value => rfl
      | call location function arguments => rfl
      | chain location tier operands => rfl

theorem node_expr (e : Expr) : SameAsNode table slots closed e := by
  induction e with
  | number location value => cases value <;> exact fun names => rfl
  | var location name =>
    intro names
    simp only [Expr.node, node, expr]
    cases slotOf slots name location <;> rfl
  | call location function arguments each =>
    intro names
    simp only [Expr.node, node, expr]
    cases table.find? function with
    | none => rfl
    | some signature =>
      have count : (Expr.nodes arguments).length = arguments.length := by simp [Expr.nodes_eq_map]
      simp only [count]
      split
      · rfl
      · rw [operands_exprs each]
        cases exprs table slots arguments names <;> rfl
  | chain location tier operands each =>
    intro names
    cases tier with
    | sum => exact fold_fold each _ names
    | product => exact fold_fold each _ names
    | assign => exact assign_assign each [] names

theorem nodes_stmts (ss : List Stmt) (names : Names) (slots : Slots) :
    nodes table (ss.map Stmt.node) (some ⟨names, slots, closed⟩) =
      (stmts table names slots ss).map fun (code, names, slots) =>
        ⟨code, none, some ⟨names, slots, closed⟩⟩ := by
  induction ss generalizing names slots with
  | nil => rfl
  | cons first rest ih =>
    cases first with
    | declare location typeName name =>
      simp only [List.map_cons, Stmt.node, nodes, node, openSlot, stmts, stmt, ih, bind, Except.bind]
      cases stmts table (names.fresh name.text).2 (slots.bind name (names.fresh name.text).1) rest <;> rfl
    | expression location value =>
      have here : SameAsNode table slots closed value := node_expr value
      simp only [List.map_cons, Stmt.node, nodes, node, stmts, stmt, here names]
      cases expr table slots value names with
      | error rejection => rfl
      | ok out =>
        simp only [Except.map, Emitted.lowered, ih, bind, Except.bind, pure, Except.pure]
        cases stmts table out.names slots rest <;> rfl

theorem parameters_parameters (given : List (Parameter × String)) (names : Names) (slots : Slots) :
    Lower.parameters ⟨names, slots, closed⟩ (given.map (Prod.map Parameter.node id)) =
      .ok ((parameters names slots given).1,
        ⟨(parameters names slots given).2.1, (parameters names slots given).2.2, closed⟩) := by
  induction given generalizing names slots with
  | nil => rfl
  | cons first rest ih =>
    obtain ⟨parameter, argument⟩ := first
    have later := ih (names.fresh parameter.name.text).2.skip
      (slots.bind parameter.name (names.fresh parameter.name.text).1)
    simp only [List.map_cons, Prod.map_apply, Lower.parameters, Parameter.node, Node.name?, openSlot,
      parameters]
    rw [later]
    rfl

-- The code of a function around its instructions.
def coded (f : Function) (instructions : List Instr) : Code :=
  ⟨f.name, (entryNames f.arity).1, (entryNames f.arity).2.1, instructions⟩

theorem function_body {f : Function} {signature : Signature} (found : table.find? f.name = some signature)
    (arity : signature.arity = f.arity) :
    Lower.function table f.node = (body table f).map (coded f) := by
  have entered : enter f.arity (f.parameters.map Parameter.node) =
      Lower.parameters ⟨(entryNames f.arity).2.2, .empty, false⟩
        ((f.parameters.zip (entryNames f.arity).1).map (Prod.map Parameter.node id)) := by
    simp only [enter, List.zip_map_left]
  rw [parameters_parameters] at entered
  have length : (f.parameters.map Parameter.node).length = f.arity := by simp [Function.arity]
  simp only [Lower.function, Function.node, node, found, arity, entered, nodes_stmts, length]
  cases walked : stmts table _ _ f.statements with
  | error rejection => simp [body, walked, Except.map, bind, Except.bind]
  | ok reached =>
    obtain ⟨middle, names, slots⟩ := reached
    have last : SameAsNode table slots false f.result.value := node_expr _
    simp only [Except.map, Return.node, node, last names]
    cases result : expr table slots f.result.value names with
    | error rejection => simp [body, walked, result, bind, Except.bind]
    | ok out =>
      simp [body, walked, result, bind, Except.bind, Emitted.lowered, coded, pure, Except.pure]

def signature (f : Function) : Signature := ⟨f.name, f.arity, f.location⟩

theorem find?_signatures (fs : List Function) (name : Name) :
    Signatures.find? (fs.map signature) name = (fs.find? fun f => f.name = name).map signature := by
  simp only [Signatures.find?, List.find?_map]
  rfl

theorem declared_iff {fs : List Function} {table : Signatures} :
    Declared (fs.map Function.node) table ↔
      table = fs.map signature ∧ (fs.map Function.name).Nodup ∧ ∀ f ∈ fs, f.name ≠ some "" := by
  have told : signature? ∘ Function.node = some ∘ signature := by
    funext f
    simp [signature?, Function.node, signature, Function.arity]
  constructor
  · rintro ⟨-, listed, distinct, named⟩
    rw [List.filterMap_map, told, List.filterMap_eq_map] at listed
    subst listed
    rw [List.map_map] at distinct
    exact ⟨rfl, distinct, fun f member => named (signature f) (List.mem_map_of_mem member)⟩
  · rintro ⟨rfl, distinct, named⟩
    refine ⟨?_, ?_, ?_, ?_⟩
    · simp [signature?, Function.node]
    · rw [List.filterMap_map, told, List.filterMap_eq_map]
    · rwa [List.map_map]
    · simpa [signature] using named

-- What has been declared without a rejection has names of its own.
theorem declare_ok {fs : List Function} {table : Signatures}
    (accepted : declare (fs.map Function.node) = .ok table) :
    table = fs.map signature ∧ (fs.map Function.name).Nodup := by
  obtain ⟨listed, distinct, -⟩ := declared_iff.mp (declare_eq_ok_iff.mp accepted)
  exact ⟨listed, distinct⟩

theorem find?_of_mem {fs : List Function} {f : Function} (distinct : (fs.map Function.name).Nodup)
    (member : f ∈ fs) : (fs.find? fun g => g.name = f.name) = some f := by
  induction fs with
  | nil => cases member
  | cons first rest ih =>
    simp only [List.map_cons, List.nodup_cons] at distinct
    rcases List.mem_cons.mp member with rfl | later
    · simp
    · have apart : first.name ≠ f.name := by
        intro same
        exact distinct.1 (same ▸ List.mem_map_of_mem later)
      simpa [apart] using ih distinct.2 later

theorem find?_signature {fs : List Function} {f : Function} (distinct : (fs.map Function.name).Nodup)
    (member : f ∈ fs) : Signatures.find? (fs.map signature) f.name = some (signature f) := by
  rw [find?_signatures, find?_of_mem distinct member]
  rfl

-- A program is lowered exactly when its names are its own and the body of each function is lowered.
theorem program_eq_ok_iff {moduleName : String} {p : Program} {m : Module} :
    Lower.program moduleName p.node = .ok m ↔
      (p.functions.map Function.name).Nodup ∧ (∀ f ∈ p.functions, f.name ≠ some "") ∧ m.name = moduleName ∧
        List.Forall₂ (fun f code => ∃ instructions,
          body (p.functions.map signature) f = .ok instructions ∧ code = coded f instructions)
          p.functions m.functions := by
  simp only [Lower.program, Program.node, bind_eq_ok, mapM_eq_ok, pure, Except.pure, Except.ok.injEq,
    declare_eq_ok_iff, declared_iff, List.forall₂_map_left_iff]
  have lowers (distinct : (p.functions.map Function.name).Nodup) (f : Function) (member : f ∈ p.functions)
      (code : Code) : Lower.function (p.functions.map signature) f.node = .ok code ↔
        ∃ instructions, body (p.functions.map signature) f = .ok instructions ∧ code = coded f instructions := by
    rw [function_body (find?_signature distinct member) rfl, map_eq_ok]
    simp only [eq_comm]
  constructor
  · rintro ⟨table, ⟨rfl, distinct, named⟩, codes, lowered, rfl⟩
    refine ⟨distinct, named, rfl, ?_⟩
    have listed := (List.forall₂_and_left _ _).mpr ⟨fun f (member : f ∈ p.functions) => member, lowered⟩
    exact listed.imp fun f code made => (lowers distinct f made.1 code).mp made.2
  · rintro ⟨distinct, named, rfl, lowered⟩
    refine ⟨_, ⟨rfl, distinct, named⟩, m.functions, ?_, rfl⟩
    have listed := (List.forall₂_and_left _ _).mpr ⟨fun f (member : f ∈ p.functions) => member, lowered⟩
    exact listed.imp fun f code made => (lowers distinct f made.1 code).mpr made.2

-- The functions of a module are those of its program, each lowered on its own.
theorem program_ok {moduleName : String} {p : Program} {m : Module}
    (accepted : Lower.program moduleName p.node = .ok m) :
    (p.functions.map Function.name).Nodup ∧
      List.Forall₂ (fun f code => ∃ instructions,
        body (p.functions.map signature) f = .ok instructions ∧ code = coded f instructions)
        p.functions m.functions := by
  obtain ⟨distinct, -, -, lowered⟩ := program_eq_ok_iff.mp accepted
  exact ⟨distinct, lowered⟩

theorem program_names {moduleName : String} {p : Program} {m : Module}
    (accepted : Lower.program moduleName p.node = .ok m) : m.functionNames = p.functions.map Function.name := by
  have names : List.Forall₂ Eq (m.functions.map Code.name) (p.functions.map Function.name) := by
    rw [List.forall₂_map_left_iff, List.forall₂_map_right_iff]
    refine (program_ok accepted).2.flip.imp ?_
    intro code f made
    obtain ⟨instructions, _, rfl⟩ := made
    rfl
  rwa [List.forall₂_eq_eq_eq] at names

end WordC.Lower.Typed
