import WordC.Proofs.Lower.Breach
import WordC.Proofs.Lower.Calls
import WordC.Proofs.Lower.WellFormed

namespace WordC

-- What an instruction does, its operands and its result aside.
inductive Opcode where
  | alloca
  | store
  | load
  | add
  | mul
  | call
  | ret
deriving DecidableEq, Repr

def Arith.opcode : Arith → Opcode
  | .add => .add
  | .mul => .mul

def Instr.opcode : Instr → Opcode
  | .alloca _ => .alloca
  | .store _ _ => .store
  | .load _ _ => .load
  | .arith op _ _ _ => op.opcode
  | .call _ _ _ => .call
  | .ret _ => .ret

namespace Lower

-- A target of an assignment is only written. Every other expression is evaluated.
inductive Role where
  | target
  | value
deriving DecidableEq, Repr

mutual

-- An expression in its role, and all expressions inside it in theirs.
def placed (role : Role) : Expr → List (Role × Expr)
  | .number location value => [(role, .number location value)]
  | .var location name => [(role, .var location name)]
  | .call location function arguments => (role, .call location function arguments) :: placedValues arguments
  | .chain location .assign sides => (role, .chain location .assign sides) :: placedSides sides
  | .chain location .sum terms => (role, .chain location .sum terms) :: placedValues terms
  | .chain location .product factors => (role, .chain location .product factors) :: placedValues factors

def placedValues : List Expr → List (Role × Expr)
  | [] => []
  | e :: rest => placed .value e ++ placedValues rest

-- The last side of an assignment gives the value.
def placedSides : List Expr → List (Role × Expr)
  | [] => []
  | [last] => placed .value last
  | side :: next :: rest => placed .target side ++ placedSides (next :: rest)

end

def isCall : Expr → Bool
  | .call _ _ _ => true
  | .number _ _ | .var _ _ | .chain _ _ _ => false

def operandsOf (tier : Tier) : Expr → List Expr
  | .chain _ level operands => if level = tier then operands else []
  | .number _ _ | .var _ _ | .call _ _ _ => []

def isDeclaration : Stmt → Bool
  | .declare _ _ _ => true
  | .expression _ _ => false

def evaluated? : Stmt → Option Expr
  | .declare _ _ _ => none
  | .expression _ value => some value

-- The expressions of a function that are inside no other.
def outermost (f : Function) : List Expr := f.statements.filterMap evaluated? ++ [f.result.value]

def partsIn (f : Function) : List Expr := allParts (outermost f)

def placedIn (f : Function) : List (Role × Expr) := placedValues (outermost f)

-- The code of a function, instruction for instruction, against what its definition is made of.
structure Tally (f : Function) (code : List Instr) : Prop where
  allocas : (code.map Instr.opcode).count .alloca = f.parameters.length + f.statements.countP isDeclaration
  stores : (code.map Instr.opcode).count .store =
    f.parameters.length + (placedIn f).countP fun part => part.1 = .target
  loads : (code.map Instr.opcode).count .load =
    (placedIn f).countP fun part => part.1 = .value ∧ isVar part.2
  adds : (code.map Instr.opcode).count .add = ((partsIn f).flatMap (operandsOf .sum)).length
  muls : (code.map Instr.opcode).count .mul = ((partsIn f).flatMap (operandsOf .product)).length
  calls : (code.map Instr.opcode).count .call = (partsIn f).countP isCall
  rets : (code.map Instr.opcode).count .ret = 1
  callOrder : calledIn code = f.callees
  -- Results have names of their own, so an operand is the result of one instruction, and each call is given what the
  -- arguments of its own node give.
  results : (code.filterMap Instr.result?).Nodup
  callOperands : MakesAll code code (callsOf f (openedIn code))

-- Roles are given to the very expressions that there are.
mutual

theorem placed_parts (role : Role) : ∀ e, (placed role e).map Prod.snd = parts e
  | .number _ _ => rfl
  | .var _ _ => rfl
  | .call _ _ arguments => congrArg _ (placedValues_parts arguments)
  | .chain _ .assign sides => congrArg _ (placedSides_parts sides)
  | .chain _ .sum terms => congrArg _ (placedValues_parts terms)
  | .chain _ .product factors => congrArg _ (placedValues_parts factors)

theorem placedValues_parts : ∀ es, (placedValues es).map Prod.snd = allParts es
  | [] => rfl
  | e :: rest => by rw [placedValues, allParts, List.map_append, placed_parts .value e, placedValues_parts rest]

theorem placedSides_parts : ∀ es, (placedSides es).map Prod.snd = allParts es
  | [] => rfl
  | [last] => by rw [placedSides, allParts, allParts, List.append_nil, placed_parts .value last]
  | side :: next :: rest => by
    rw [placedSides, allParts, List.map_append, placed_parts .target side, placedSides_parts (next :: rest)]

end

theorem placedValues_append (es es' : List Expr) :
    placedValues (es ++ es') = placedValues es ++ placedValues es' := by
  induction es with
  | nil => rfl
  | cons e rest ih => rw [List.cons_append, placedValues, placedValues, ih, List.append_assoc]

-- The instructions that an expression takes, the expressions inside it aside: those of its role, and those of its
-- operator.
def ofRole : Role × Expr → List Opcode
  | (.target, _) => [.store]
  | (.value, .var _ _) => [.load]
  | (.value, .number _ _) | (.value, .call _ _ _) | (.value, .chain _ _ _) => []

def ofOperator : Expr → List Opcode
  | .call _ _ _ => [.call]
  | .chain _ .sum terms => List.replicate terms.length .add
  | .chain _ .product factors => List.replicate factors.length .mul
  | .number _ _ | .var _ _ | .chain _ .assign _ => []

def asked (part : Role × Expr) : List Opcode := ofRole part ++ ofOperator part.2

-- How many of these instructions there are in all.
def roleShare (ps : List (Role × Expr)) : Opcode → Nat
  | .store => ps.countP fun part => part.1 = .target
  | .load => ps.countP fun part => part.1 = .value ∧ isVar part.2
  | .alloca | .add | .mul | .call | .ret => 0

def operatorShare (es : List Expr) : Opcode → Nat
  | .add => (es.flatMap (operandsOf .sum)).length
  | .mul => (es.flatMap (operandsOf .product)).length
  | .call => es.countP isCall
  | .alloca | .store | .load | .ret => 0

theorem count_ofRole (ps : List (Role × Expr)) (opcode : Opcode) :
    (ps.flatMap ofRole).count opcode = roleShare ps opcode := by
  induction ps with
  | nil => cases opcode <;> rfl
  | cons part rest ih =>
    have here : (ofRole part).count opcode = roleShare [part] opcode := by
      obtain ⟨role, e⟩ := part
      cases role with
      | target => cases opcode <;> rfl
      | value => cases e <;> cases opcode <;> rfl
    rw [List.flatMap_cons, List.count_append, here, ih]
    cases opcode <;> simp [roleShare, List.countP_cons, Nat.add_comm]

theorem count_ofOperator (es : List Expr) (opcode : Opcode) :
    (es.flatMap ofOperator).count opcode = operatorShare es opcode := by
  induction es with
  | nil => cases opcode <;> rfl
  | cons e rest ih =>
    have here : (ofOperator e).count opcode = operatorShare [e] opcode := by
      unfold ofOperator
      split <;> cases opcode <;> simp [operatorShare, operandsOf, isCall, List.count_replicate]
    rw [List.flatMap_cons, List.count_append, here, ih]
    cases opcode <;> simp [operatorShare, List.countP_cons, Nat.add_comm]

theorem count_asked (ps : List (Role × Expr)) (opcode : Opcode) :
    (ps.flatMap asked).count opcode = roleShare ps opcode + operatorShare (ps.map Prod.snd) opcode := by
  have apart : (ps.flatMap ofRole ++ (ps.map Prod.snd).flatMap ofOperator).Perm (ps.flatMap asked) := by
    rw [List.flatMap_map]
    exact List.flatMap_append_perm ps ofRole fun part => ofOperator part.2
  rw [← apart.count_eq, List.count_append, count_ofRole, count_ofOperator]

namespace Typed

variable {table : Signatures} {slots : Slots}

theorem opcodes_storeAll (value : Operand) (targets : List String) (names : Names) :
    (storeAll value targets names).1.map Instr.opcode = List.replicate targets.length .store := by
  induction targets generalizing names with
  | nil => rfl
  | cons slot rest ih => exact congrArg (Opcode.store :: ·) (ih names.skip)

-- The code of an expression has what the expressions in it ask for, and nothing else.
def LoweredOnce (table : Signatures) (slots : Slots) (e : Expr) : Prop :=
  ∀ names out, expr table slots e names = .ok out →
    (out.code.map Instr.opcode).Perm ((placed .value e).flatMap asked)

theorem exprs_loweredOnce {es : List Expr} (each : ∀ e ∈ es, LoweredOnce table slots e) :
    ∀ names out, exprs table slots es names = .ok out →
      (out.code.map Instr.opcode).Perm ((placedValues es).flatMap asked) := by
  induction es with
  | nil =>
    intro names out lowered
    cases lowered
    exact .nil
  | cons first rest ih =>
    intro names out lowered
    simp only [exprs, bind_eq_ok, pure, Except.pure, Except.ok.injEq] at lowered
    obtain ⟨here, first_ok, later, rest_ok, rfl⟩ := lowered
    have head := each first List.mem_cons_self names here first_ok
    have tail := ih (fun e member => each e (List.mem_cons_of_mem _ member)) here.names later rest_ok
    rw [List.map_append, placedValues, List.flatMap_append]
    exact head.append tail

theorem fold_loweredOnce {op : Arith} {es : List Expr} (each : ∀ e ∈ es, LoweredOnce table slots e) :
    ∀ reached names out, fold table slots op reached es names = .ok out →
      (out.code.map Instr.opcode).Perm
        (List.replicate es.length op.opcode ++ (placedValues es).flatMap asked) := by
  induction es with
  | nil =>
    intro reached names out lowered
    cases lowered
    exact .nil
  | cons first rest ih =>
    intro reached names out lowered
    simp only [fold, bind_eq_ok, pure, Except.pure, Except.ok.injEq] at lowered
    obtain ⟨here, first_ok, later, rest_ok, rfl⟩ := lowered
    have head := each first List.mem_cons_self names here first_ok
    have tail := ih (fun e member => each e (List.mem_cons_of_mem _ member)) _ _ later rest_ok
    rw [List.map_append, List.map_cons, placedValues, List.flatMap_append, List.length_cons, List.replicate_succ]
    calc here.code.map Instr.opcode ++ op.opcode :: later.code.map Instr.opcode
      _ |>.Perm (op.opcode :: (here.code.map Instr.opcode ++ later.code.map Instr.opcode)) := List.perm_middle
      _ |>.Perm (op.opcode :: ((placed .value first).flatMap asked ++
            (List.replicate rest.length op.opcode ++ (placedValues rest).flatMap asked))) :=
          (head.append tail).cons _
      _ |>.Perm (op.opcode :: (List.replicate rest.length op.opcode ++
            ((placed .value first).flatMap asked ++ (placedValues rest).flatMap asked))) :=
          (List.perm_append_comm_assoc _ _ _).cons _

-- The targets that are open already have their stores still to come, after the value.
theorem assign_loweredOnce {es : List Expr} (each : ∀ e ∈ es, LoweredOnce table slots e) :
    ∀ targets names out, assign table slots targets es names = .ok out →
      (out.code.map Instr.opcode).Perm
        (List.replicate targets.length .store ++ (placedSides es).flatMap asked) := by
  induction es with
  | nil =>
    intro targets names out lowered
    cases lowered
  | cons first rest ih =>
    intro targets names out lowered
    cases rest with
    | nil =>
      simp only [assign, bind_eq_ok, pure, Except.pure, Except.ok.injEq] at lowered
      obtain ⟨here, first_ok, rfl⟩ := lowered
      have head := each first List.mem_cons_self names here first_ok
      rw [List.map_append, opcodes_storeAll, placedSides]
      exact (head.append_right _).trans List.perm_append_comm
    | cons next rest =>
      cases first with
      | var location name =>
        simp only [assign, bind_eq_ok] at lowered
        obtain ⟨slot, found, rest_ok⟩ := lowered
        have tail := ih (fun e member => each e (List.mem_cons_of_mem _ member)) (slot :: targets) names out rest_ok
        exact tail.trans List.perm_middle.symm
      | number location value => cases lowered
      | call location function given => cases lowered
      | chain location tier operands => cases lowered

theorem expr_loweredOnce (e : Expr) : LoweredOnce table slots e := by
  induction e with
  | number location value =>
    intro names out lowered
    cases value with
    | none => cases lowered
    | some value =>
      cases lowered
      exact .nil
  | var location name =>
    intro names out lowered
    simp only [expr, bind_eq_ok, pure, Except.pure, Except.ok.injEq] at lowered
    obtain ⟨slot, found, rfl⟩ := lowered
    exact .refl _
  | call location function arguments each =>
    intro names out lowered
    simp only [expr] at lowered
    split at lowered
    · cases lowered
    · split at lowered
      · cases lowered
      · simp only [bind_eq_ok, pure, Except.pure, Except.ok.injEq] at lowered
        obtain ⟨given, all_ok, rfl⟩ := lowered
        rw [List.map_append]
        exact ((exprs_loweredOnce each names given all_ok).append_right _).trans List.perm_append_comm
  | chain location tier operands each =>
    intro names out lowered
    cases tier with
    | sum => exact fold_loweredOnce each (.constant 0) names out lowered
    | product => exact fold_loweredOnce each (.constant 1) names out lowered
    | assign => exact assign_loweredOnce each [] names out lowered

theorem stmts_loweredOnce {ss : List Stmt} {code : List Instr} {names after : Names} {slots' : Slots}
    (lowered : stmts table names slots ss = .ok (code, after, slots')) :
    (code.map Instr.opcode).Perm (List.replicate (ss.countP isDeclaration) .alloca ++
      (placedValues (ss.filterMap evaluated?)).flatMap asked) := by
  induction ss generalizing names slots code with
  | nil =>
    cases lowered
    exact .nil
  | cons first rest ih =>
    simp only [stmts, bind_eq_ok, pure, Except.pure, Except.ok.injEq, Prod.mk.injEq] at lowered
    obtain ⟨⟨here, names', slots''⟩, first_ok, ⟨later, last, final⟩, rest_ok, rfl, rfl, rfl⟩ := lowered
    have tail := ih rest_ok
    cases first with
    | declare location typeName name =>
      cases first_ok
      rw [List.countP_cons_of_pos rfl, List.replicate_succ]
      exact tail.cons .alloca
    | expression location value =>
      simp only [stmt, bind_eq_ok, pure, Except.pure, Except.ok.injEq, Prod.mk.injEq] at first_ok
      obtain ⟨out, value_ok, rfl, rfl, rfl⟩ := first_ok
      have head := expr_loweredOnce value names out value_ok
      rw [List.map_append]
      refine (head.append tail).trans ((List.perm_append_comm_assoc _ _ _).trans ?_)
      rw [← List.flatMap_append]
      exact .refl _

theorem opcodes_parameters (given : List (Parameter × String)) (names : Names) (slots : Slots) :
    ((parameters names slots given).1.map Instr.opcode).Perm
      (List.replicate given.length .alloca ++ List.replicate given.length .store) := by
  induction given generalizing names slots with
  | nil => exact .nil
  | cons first rest ih =>
    have opened := ((ih (names.fresh first.1.name.text).2.skip
      (slots.bind first.1.name (names.fresh first.1.name.text).1)).cons .store).trans List.perm_middle.symm
    exact opened.cons Opcode.alloca

theorem body_loweredOnce {f : Function} {instructions : List Instr} (lowered : body table f = .ok instructions) :
    (instructions.map Instr.opcode).Perm
      (List.replicate (f.parameters.length + f.statements.countP isDeclaration) .alloca ++
        List.replicate f.parameters.length .store ++ [.ret] ++ (placedIn f).flatMap asked) := by
  simp only [body, bind_eq_ok, pure, Except.pure, Except.ok.injEq] at lowered
  obtain ⟨⟨middle, names, slots⟩, statements_ok, last, result_ok, rfl⟩ := lowered
  have entered := opcodes_parameters (f.parameters.zip (entryNames f.arity).1) (entryNames f.arity).2.2 .empty
  have walked := stmts_loweredOnce statements_ok
  have ended := expr_loweredOnce f.result.value names last result_ok
  have counted : (entryNames f.arity).1.length = f.parameters.length := Names.freshList_length _ _ _
  rw [List.length_zip, counted, Nat.min_self] at entered
  -- The pieces stand in another order than they are counted in, so each opcode is counted on its own.
  rw [List.perm_iff_count]
  intro opcode
  have entry := entered.count_eq opcode
  have middle := walked.count_eq opcode
  have result := ended.count_eq opcode
  simp only [List.count_append] at entry middle
  simp only [List.map_append, List.count_append, List.replicate_add, placedIn, outermost, placedValues_append,
    List.flatMap_append, placedValues, List.append_nil, entry, middle, result]
  simp only [List.map_cons, List.map_nil, Instr.opcode]
  omega

theorem body_results {f : Function} {instructions : List Instr} (lowered : body table f = .ok instructions) :
    (instructions.filterMap Instr.result?).Nodup := by
  obtain ⟨front, value, after, rfl, emits, -⟩ := body_emits lowered
  rw [List.filterMap_append, show [Instr.ret (some value)].filterMap Instr.result? = [] from rfl, List.append_nil]
  exact emits.gives.distinct

theorem body_tally {f : Function} {instructions : List Instr} (lowered : body table f = .ok instructions) :
    Tally f instructions := by
  have made := (body_loweredOnce lowered).count_eq
  simp only [List.count_append, count_asked, placedIn, placedValues_parts] at made
  refine ⟨?_, ?_, ?_, ?_, ?_, ?_, ?_, body_callsKept lowered, body_results lowered, body_callsMade lowered⟩
  all_goals simp [made, roleShare, operatorShare, partsIn, placedIn, List.count_replicate]

end Typed

-- Nothing of a function is dropped and nothing is lowered twice, however deep it stands.
theorem nodes_lowered_once {moduleName : String} {lines : List String} {p : Program} {m : Module}
    (accepted : lowerProgram moduleName lines p = .ok m) :
    List.Forall₂ (fun f code => code.name = f.name ∧ Tally f code.body) p.functions m.functions := by
  obtain ⟨-, lowered⟩ := Typed.program_ok (mapError_eq_ok.mp accepted)
  refine lowered.imp ?_
  rintro f code ⟨instructions, made, rfl⟩
  exact ⟨rfl, Typed.body_tally made⟩

-- `int same(int x) { return x; } int mix(int x, int y) { int a; int b;
-- a = b = same(mix(x, same(2) + y + 1)) * a; return mix(b = y, same(a)) + (a + 3); }`
def nestedCalls : Program :=
  ⟨none, [
    ⟨none, some "same", some "int", [⟨none, some "x", some "int"⟩], [], ⟨none, .var none (some "x")⟩⟩,
    ⟨none, some "mix", some "int", [⟨none, some "x", some "int"⟩, ⟨none, some "y", some "int"⟩],
      [.declare none (some "int") (some "a"), .declare none (some "int") (some "b"),
        .expression none (.chain none .assign [.var none (some "a"), .var none (some "b"),
          .chain none .product [
            .call none (some "same") [.call none (some "mix") [.var none (some "x"),
              .chain none .sum [.call none (some "same") [.number none (some 2)], .var none (some "y"),
                .number none (some 1)]]],
            .var none (some "a")]])],
      ⟨none, .chain none .sum [
        .call none (some "mix") [.chain none .assign [.var none (some "b"), .var none (some "y")],
          .call none (some "same") [.var none (some "a")]],
        .chain none .sum [.var none (some "a"), .number none (some 3)]]⟩⟩]⟩

theorem nestedCalls_lowered_once :
    ∃ m same mix, lowerProgram "rcc" [] nestedCalls = .ok m ∧ m.functions = [same, mix] ∧
      (same.body.map Instr.opcode).count .load = 1 ∧
      (mix.body.map Instr.opcode).count .alloca = 4 ∧ (mix.body.map Instr.opcode).count .store = 5 ∧
      (mix.body.map Instr.opcode).count .load = 6 ∧ (mix.body.map Instr.opcode).count .add = 7 ∧
      (mix.body.map Instr.opcode).count .mul = 2 ∧ (mix.body.map Instr.opcode).count .call = 5 ∧
      (mix.body.map Instr.opcode).count .ret = 1 ∧
      calledIn mix.body = [some "same", some "mix", some "same", some "same", some "mix"] ∧
      ∃ result later, mix.body.filter Instr.isCall = .call result (some "same") [.constant 2] :: later := by
  obtain ⟨m, accepted⟩ : ∃ m, lowerProgram "rcc" [] nestedCalls = .ok m := isOk_iff.mp (by decide +kernel)
  have once := nodes_lowered_once accepted
  obtain ⟨moduleName, codes⟩ := m
  obtain ⟨same, others, ⟨-, first⟩, rest, rfl⟩ := List.forall₂_cons_left_iff.mp once
  obtain ⟨mix, none, ⟨-, second⟩, last, rfl⟩ := List.forall₂_cons_left_iff.mp rest
  obtain rfl := List.forall₂_nil_left_iff.mp last
  -- The innermost call of the assignment is the first.
  obtain ⟨instruction, later, made, -, calls⟩ := List.forall₂_cons_right_iff.mp second.callOperands
  obtain ⟨given⟩ := made
  obtain _ | ⟨⟨⟩, ⟨⟩⟩ := given
  exact ⟨_, same, mix, accepted, rfl, first.loads, second.allocas, second.stores, second.loads, second.adds,
    second.muls, second.calls, second.rets, second.callOrder, _, later, calls⟩

end Lower

end WordC
