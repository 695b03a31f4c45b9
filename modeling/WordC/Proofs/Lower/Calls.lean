import Mathlib.Logic.Relation
import WordC.Compile
import WordC.Proofs.Module.Running

namespace WordC

mutual

-- The functions that an expression calls, call by call.
def Expr.callees : Expr → List Name
  | .number _ _ => []
  | .var _ _ => []
  | .call _ function arguments => Expr.allCallees arguments ++ [function]
  | .chain _ _ operands => Expr.allCallees operands

def Expr.allCallees : List Expr → List Name
  | [] => []
  | e :: rest => e.callees ++ Expr.allCallees rest

end

def Stmt.callees : Stmt → List Name
  | .declare _ _ _ => []
  | .expression _ value => value.callees

def Function.callees (f : Function) : List Name := f.statements.flatMap Stmt.callees ++ f.result.value.callees

-- The call graph: a call of one function stands in the body of another.
def Program.Calls (p : Program) (caller callee : Name) : Prop :=
  ∃ f ∈ p.functions, f.name = caller ∧ callee ∈ f.callees

def Instr.callee? : Instr → Option Name
  | .call _ function _ => some function
  | .alloca _ | .store _ _ | .load _ _ | .arith _ _ _ _ | .ret _ => none

-- The calls that are in some code.
def calledIn (code : List Instr) : List Name := code.filterMap Instr.callee?

theorem mem_calledIn {code : List Instr} :
    callee ∈ calledIn code ↔ ∃ result given, .call result callee given ∈ code := by
  unfold calledIn
  rw [List.mem_filterMap]
  constructor
  · rintro ⟨instruction, member, named⟩
    cases instruction with
    | call result function given =>
      cases named
      exact ⟨result, given, member⟩
    | alloca | store | load | arith | ret => cases named
  · rintro ⟨result, given, member⟩
    exact ⟨_, member, rfl⟩

def Instr.isCall : Instr → Bool
  | .call _ _ _ => true
  | .alloca _ | .store _ _ | .load _ _ | .arith _ _ _ _ | .ret _ => false

theorem calledIn_calls (code : List Instr) : calledIn (code.filter Instr.isCall) = calledIn code := by
  unfold calledIn
  rw [List.filterMap_filter]
  congr 1
  funext instruction
  cases instruction <;> rfl

def Expr.callee? : Expr → Option Name
  | .call _ callee _ => some callee
  | .number _ _ | .var _ _ | .chain _ _ _ => none

def Instr.opened? : Instr → Option String
  | .alloca result => some result
  | .store _ _ | .load _ _ | .arith _ _ _ _ | .call _ _ _ | .ret _ => none

-- The slots that are opened in some code, one after the other.
def openedIn (code : List Instr) : List String := code.filterMap Instr.opened?

@[simp] theorem openedIn_append (left right : List Instr) :
    openedIn (left ++ right) = openedIn left ++ openedIn right :=
  List.filterMap_append

namespace Lower

-- What an operand is the value of, read off the instructions that make it and the slots of the variables.
mutual

inductive Reads (code : List Instr) (slots : Slots) : Operand → Expr → Prop where
  | number : Reads code slots (.constant (signedLiteral value)) (.number location (some value))
  | var : slots.lookup name = some slot → .load result slot ∈ code →
      Reads code slots (.register result) (.var location name)
  | call : .call result callee given ∈ code → ReadAll code slots given arguments →
      Reads code slots (.register result) (.call location callee arguments)
  | sum : Folded code slots .add (.constant 0) terms value → Reads code slots value (.chain location .sum terms)
  | product : Folded code slots .mul (.constant 1) factors value →
      Reads code slots value (.chain location .product factors)
  | assign : Reads code slots value last → Reads code slots value (.chain location .assign (targets ++ [last]))

inductive ReadAll (code : List Instr) (slots : Slots) : List Operand → List Expr → Prop where
  | nil : ReadAll code slots [] []
  | cons : Reads code slots value e → ReadAll code slots values rest → ReadAll code slots (value :: values) (e :: rest)

-- The operands of a sum or a product are joined one by one to what is reached before.
inductive Folded (code : List Instr) (slots : Slots) : Arith → Operand → List Expr → Operand → Prop where
  | nil : Folded code slots op reached [] reached
  | cons : Reads code slots value e → .arith op result reached value ∈ code →
      Folded code slots op (.register result) rest last → Folded code slots op reached (e :: rest) last

end

-- A call instruction makes the call of a node: of the same function, with what the arguments of the node give.
inductive Makes (code : List Instr) (slots : Slots) : Instr → Expr → Prop where
  | call : ReadAll code slots given arguments →
      Makes code slots (.call result callee given) (.call location callee arguments)

mutual

-- The calls in an expression, innermost first and from left to right.
def callNodes : Expr → List Expr
  | .number _ _ | .var _ _ => []
  | .call location callee arguments => allCallNodes arguments ++ [.call location callee arguments]
  | .chain _ _ operands => allCallNodes operands

def allCallNodes : List Expr → List Expr
  | [] => []
  | e :: rest => callNodes e ++ allCallNodes rest

end

mutual

theorem callNodes_callees : ∀ e, (callNodes e).filterMap Expr.callee? = e.callees
  | .number _ _ => rfl
  | .var _ _ => rfl
  | .call _ _ arguments => by
    rw [callNodes, List.filterMap_append, allCallNodes_callees arguments]
    rfl
  | .chain _ _ operands => allCallNodes_callees operands

theorem allCallNodes_callees : ∀ es, (allCallNodes es).filterMap Expr.callee? = Expr.allCallees es
  | [] => rfl
  | e :: rest => by
    rw [allCallNodes, List.filterMap_append, callNodes_callees e, allCallNodes_callees rest, Expr.allCallees]

end

-- The calls in statements and in the result after them, each with the slots of the variables that it sees. The
-- declarations take the slots of a list one after the other.
def scopedCalls (result : Expr) (slots : Slots) (opened : List String) : List Stmt → List (Slots × Expr)
  | [] => (callNodes result).map (slots, ·)
  | .declare _ _ name :: rest => scopedCalls result (slots.bind name (opened.headD "")) opened.tail rest
  | .expression _ value :: rest => (callNodes value).map (slots, ·) ++ scopedCalls result slots opened rest

theorem scopedCalls_callees (result : Expr) (slots : Slots) (opened : List String) (ss : List Stmt) :
    (scopedCalls result slots opened ss).filterMap (fun call => call.2.callee?) =
      ss.flatMap Stmt.callees ++ result.callees := by
  induction ss generalizing slots opened with
  | nil =>
    rw [scopedCalls, List.filterMap_map]
    exact callNodes_callees result
  | cons first rest ih =>
    cases first with
    | declare location typeName name => exact ih _ _
    | expression location value =>
      rw [scopedCalls, List.filterMap_append, List.filterMap_map, ih, List.flatMap_cons, List.append_assoc]
      exact congrArg (· ++ _) (callNodes_callees value)

-- A parameter is a variable that is there before all others.
def declaration (parameter : Parameter) : Stmt := .declare parameter.location parameter.typeName parameter.name

def callsOf (f : Function) (opened : List String) : List (Slots × Expr) :=
  scopedCalls f.result.value .empty opened (f.parameters.map declaration ++ f.statements)

theorem callsOf_callees (f : Function) (opened : List String) :
    (callsOf f opened).filterMap (fun call => call.2.callee?) = f.callees := by
  have silent : (f.parameters.map declaration).flatMap Stmt.callees = [] := by
    simp [List.flatMap_map, declaration, Stmt.callees]
  rw [callsOf, scopedCalls_callees, List.flatMap_append, silent]
  rfl

mutual

theorem Reads.later (reads : Reads code slots value e) (within : code ⊆ more) : Reads more slots value e := by
  match reads with
  | .number => exact .number
  | .var bound loaded => exact .var bound (within loaded)
  | .call called all => exact .call (within called) (all.later within)
  | .sum folded => exact .sum (folded.later within)
  | .product folded => exact .product (folded.later within)
  | .assign last => exact .assign (last.later within)

theorem ReadAll.later (all : ReadAll code slots values es) (within : code ⊆ more) : ReadAll more slots values es := by
  match all with
  | .nil => exact .nil
  | .cons first rest => exact .cons (first.later within) (rest.later within)

theorem Folded.later (folded : Folded code slots op reached es last) (within : code ⊆ more) :
    Folded more slots op reached es last := by
  match folded with
  | .nil => exact .nil
  | .cons first joined rest => exact .cons (first.later within) (within joined) (rest.later within)

end

-- The call instructions in a part of some code make calls, in their order.
def MakesAll (code part : List Instr) (calls : List (Slots × Expr)) : Prop :=
  List.Forall₂ (fun instruction call => Makes code call.1 instruction call.2) (part.filter Instr.isCall) calls

theorem Makes.later (makes : Makes code slots instruction e) (within : code ⊆ more) :
    Makes more slots instruction e := by
  cases makes with
  | call all => exact .call (all.later within)

theorem Makes.callee (makes : Makes code slots instruction e) : instruction.callee? = e.callee? := by
  cases makes
  rfl

theorem MakesAll.later (makes : MakesAll code part calls) (within : code ⊆ more) : MakesAll more part calls :=
  List.Forall₂.imp (fun _ _ made => made.later within) makes

theorem MakesAll.append (first : MakesAll code part calls) (second : MakesAll code part' calls') :
    MakesAll code (part ++ part') (calls ++ calls') := by
  unfold MakesAll
  rw [List.filter_append]
  exact List.rel_append first second

theorem MakesAll.join (first : MakesAll code code calls) (second : MakesAll code' code' calls') :
    MakesAll (code ++ code') (code ++ code') (calls ++ calls') :=
  (first.later (List.subset_append_left code code')).append (second.later (List.subset_append_right code code'))

-- Code that calls nothing.
theorem makesAll_nil (silent : ∀ instruction ∈ code, instruction.isCall = false) : MakesAll code code [] := by
  unfold MakesAll
  rw [List.filter_eq_nil_iff.mpr (by simpa using silent)]
  exact .nil

theorem MakesAll.callees (makes : MakesAll code part calls) :
    calledIn part = calls.filterMap fun call => call.2.callee? := by
  rw [← calledIn_calls, calledIn]
  unfold MakesAll at makes
  generalize part.filter Instr.isCall = instructions at makes ⊢
  induction makes with
  | nil => rfl
  | cons made _ ih => rw [List.filterMap_cons, List.filterMap_cons, made.callee, ih]

namespace Typed

variable {table : Signatures} {slots : Slots}

-- The code of expressions opens no slot and makes their calls in order.
structure CallsMade (slots : Slots) (code : List Instr) (es : List Expr) : Prop where
  unopened : openedIn code = []
  makes : MakesAll code code (es.map (slots, ·))

theorem CallsMade.append (first : CallsMade slots code es) (second : CallsMade slots code' es') :
    CallsMade slots (code ++ code') (es ++ es') where
  unopened := by rw [openedIn_append, first.unopened, second.unopened, List.append_nil]
  makes := by
    rw [List.map_append]
    exact first.makes.join second.makes

-- An instruction that is no call and opens no slot can stand anywhere.
theorem callsMade_single {instruction : Instr} (other : instruction.isCall = false)
    (unopened : instruction.opened? = none) : CallsMade slots [instruction] [] where
  unopened := by simp [openedIn, unopened]
  makes := makesAll_nil (by simpa using other)

theorem callsMade_nil : CallsMade slots [] [] := ⟨rfl, .nil⟩

def ExprCallsMade (table : Signatures) (slots : Slots) (e : Expr) : Prop :=
  ∀ names out, expr table slots e names = .ok out →
    Reads out.code slots out.value e ∧ CallsMade slots out.code (callNodes e)

theorem exprs_callsMade {es : List Expr} (each : ∀ e ∈ es, ExprCallsMade table slots e) :
    ∀ names out, exprs table slots es names = .ok out →
      ReadAll out.code slots out.value es ∧ CallsMade slots out.code (allCallNodes es) := by
  induction es with
  | nil =>
    intro names out lowered
    cases lowered
    exact ⟨.nil, callsMade_nil⟩
  | cons first rest ih =>
    intro names out lowered
    simp only [exprs, bind_eq_ok, pure, Except.pure, Except.ok.injEq] at lowered
    obtain ⟨here, first_ok, later, rest_ok, rfl⟩ := lowered
    obtain ⟨reads, made⟩ := each first List.mem_cons_self names here first_ok
    obtain ⟨all, made'⟩ := ih (fun e member => each e (List.mem_cons_of_mem _ member)) here.names later rest_ok
    refine ⟨.cons (reads.later ?_) (all.later ?_), made.append made'⟩
    · exact List.subset_append_left _ _
    · exact List.subset_append_right _ _

theorem fold_callsMade {op : Arith} {es : List Expr} (each : ∀ e ∈ es, ExprCallsMade table slots e) :
    ∀ reached names out, fold table slots op reached es names = .ok out →
      Folded out.code slots op reached es out.value ∧ CallsMade slots out.code (allCallNodes es) := by
  induction es with
  | nil =>
    intro reached names out lowered
    cases lowered
    exact ⟨.nil, callsMade_nil⟩
  | cons first rest ih =>
    intro reached names out lowered
    simp only [fold, bind_eq_ok, pure, Except.pure, Except.ok.injEq] at lowered
    obtain ⟨here, first_ok, later, rest_ok, rfl⟩ := lowered
    obtain ⟨reads, made⟩ := each first List.mem_cons_self names here first_ok
    obtain ⟨folded, made'⟩ := ih (fun e member => each e (List.mem_cons_of_mem _ member)) _ _ later rest_ok
    refine ⟨.cons (reads.later ?_) ?_ (folded.later ?_), made.append ((callsMade_single rfl rfl).append made')⟩
    · exact List.subset_append_left _ _
    · simp
    · exact List.subset_append_of_subset_right _ (List.subset_cons_self _ _)

theorem storeAll_callsMade (value : Operand) (targets : List String) (names : Names) :
    CallsMade slots (storeAll value targets names).1 [] := by
  induction targets generalizing names with
  | nil => exact callsMade_nil
  | cons slot rest ih => exact (callsMade_single rfl rfl).append (ih names.skip)

theorem assign_callsMade {es : List Expr} (each : ∀ e ∈ es, ExprCallsMade table slots e) :
    ∀ targets names out, assign table slots targets es names = .ok out →
      (∃ front last, es = front ++ [last] ∧ Reads out.code slots out.value last) ∧
        CallsMade slots out.code (allCallNodes es) := by
  induction es with
  | nil =>
    intro targets names out lowered
    cases lowered
  | cons first rest ih =>
    intro targets names out lowered
    cases rest with
    | nil =>
      simp only [assign, bind_eq_ok, pure, Except.pure, Except.ok.injEq] at lowered
      obtain ⟨here, first_ok, rfl⟩ := lowered
      obtain ⟨reads, made⟩ := each first List.mem_cons_self names here first_ok
      refine ⟨⟨[], first, rfl, reads.later (List.subset_append_left _ _)⟩, ?_⟩
      exact made.append (storeAll_callsMade _ _ _)
    | cons next rest =>
      cases first with
      | var location name =>
        simp only [assign, bind_eq_ok] at lowered
        obtain ⟨slot, found, rest_ok⟩ := lowered
        obtain ⟨⟨front, last, split, reads⟩, made⟩ :=
          ih (fun e member => each e (List.mem_cons_of_mem _ member)) (slot :: targets) names out rest_ok
        exact ⟨⟨.var location name :: front, last, congrArg _ split, reads⟩, made⟩
      | number location value => cases lowered
      | call location function given => cases lowered
      | chain location tier operands => cases lowered

theorem expr_callsMade (e : Expr) : ExprCallsMade table slots e := by
  induction e with
  | number location value =>
    intro names out lowered
    cases value with
    | none => cases lowered
    | some value =>
      cases lowered
      exact ⟨.number, callsMade_nil⟩
  | var location name =>
    intro names out lowered
    simp only [expr, bind_eq_ok, pure, Except.pure, Except.ok.injEq] at lowered
    obtain ⟨slot, found, rfl⟩ := lowered
    exact ⟨.var (slotOf_ok found) List.mem_cons_self, callsMade_single rfl rfl⟩
  | call location function arguments each =>
    intro names out lowered
    simp only [expr] at lowered
    split at lowered
    · cases lowered
    · split at lowered
      · cases lowered
      · simp only [bind_eq_ok, pure, Except.pure, Except.ok.injEq] at lowered
        obtain ⟨given, all_ok, rfl⟩ := lowered
        obtain ⟨all, made⟩ := exprs_callsMade each names given all_ok
        have within := List.subset_append_left given.code [.call (given.names.fresh "call").1 function given.value]
        refine ⟨.call (by simp) (all.later within), ?_, ?_⟩
        · rw [openedIn_append, made.unopened]
          rfl
        · rw [callNodes, List.map_append]
          exact (made.makes.later within).append (.cons (.call (all.later within)) .nil)
  | chain location tier operands each =>
    intro names out lowered
    cases tier with
    | sum =>
      obtain ⟨folded, made⟩ := fold_callsMade each (.constant 0) names out lowered
      exact ⟨.sum folded, made⟩
    | product =>
      obtain ⟨folded, made⟩ := fold_callsMade each (.constant 1) names out lowered
      exact ⟨.product folded, made⟩
    | assign =>
      obtain ⟨⟨targets, last, rfl, reads⟩, made⟩ := assign_callsMade each [] names out lowered
      exact ⟨.assign reads, made⟩

-- The result goes with the statements, since it sees all their variables.
theorem stmts_callsMade {ss : List Stmt} {code : List Instr} {names after : Names} {slots slots' : Slots}
    {last : Emitted Operand} (walked : stmts table names slots ss = .ok (code, after, slots'))
    (ended : expr table slots' result after = .ok last) :
    MakesAll (code ++ last.code) (code ++ last.code) (scopedCalls result slots (openedIn (code ++ last.code)) ss) := by
  induction ss generalizing names slots code with
  | nil =>
    cases walked
    exact (expr_callsMade result after last ended).2.makes
  | cons first rest ih =>
    simp only [stmts, bind_eq_ok, pure, Except.pure, Except.ok.injEq, Prod.mk.injEq] at walked
    obtain ⟨⟨here, names', slots'⟩, first_ok, ⟨later, final, final'⟩, rest_ok, rfl, rfl, rfl⟩ := walked
    have makes := ih rest_ok
    cases first with
    | declare location typeName name =>
      simp only [stmt, Except.ok.injEq, Prod.mk.injEq] at first_ok
      obtain ⟨rfl, rfl, rfl⟩ := first_ok
      have opening : MakesAll [.alloca (names.fresh name.text).1] [.alloca (names.fresh name.text).1] [] :=
        makesAll_nil (by simp [Instr.isCall])
      exact opening.join makes
    | expression location value =>
      simp only [stmt, bind_eq_ok, pure, Except.pure, Except.ok.injEq, Prod.mk.injEq] at first_ok
      obtain ⟨out, value_ok, rfl, rfl, rfl⟩ := first_ok
      obtain ⟨-, made⟩ := expr_callsMade value names out value_ok
      rw [List.append_assoc, openedIn_append, made.unopened]
      exact made.makes.join makes

theorem parameters_scoped (result : Expr) (opened : List String) (ss : List Stmt) (given : List (Parameter × String))
    (names : Names) (slots : Slots) :
    scopedCalls result slots (openedIn (parameters names slots given).1 ++ opened)
        ((given.map Prod.fst).map declaration ++ ss) =
      scopedCalls result (parameters names slots given).2.2 opened ss := by
  induction given generalizing names slots with
  | nil => rfl
  | cons first rest ih => exact ih _ _

theorem parameters_silent (given : List (Parameter × String)) (names : Names) (slots : Slots) :
    ∀ instruction ∈ (parameters names slots given).1, instruction.isCall = false := by
  induction given generalizing names slots with
  | nil => simp [parameters]
  | cons first rest ih => simpa [parameters, Instr.isCall] using ih _ _

-- Calls are made in the order of the nodes, each of its own function with what its own arguments give.
theorem body_callsMade {f : Function} {instructions : List Instr} (lowered : body table f = .ok instructions) :
    MakesAll instructions instructions (callsOf f (openedIn instructions)) := by
  simp only [body, bind_eq_ok, pure, Except.pure, Except.ok.injEq] at lowered
  obtain ⟨⟨middle, names, slots⟩, walked, last, ended, rfl⟩ := lowered
  have makes := stmts_callsMade walked ended
  have counted : f.parameters.length ≤ (entryNames f.arity).1.length := (Names.freshList_length _ _ _).ge
  rw [← parameters_scoped, List.map_fst_zip counted, ← openedIn_append] at makes
  have silent := parameters_silent (f.parameters.zip (entryNames f.arity).1) (entryNames f.arity).2.2 .empty
  have ret : MakesAll [.ret (some last.value)] [.ret (some last.value)] [] := makesAll_nil (by simp [Instr.isCall])
  have whole := ((makesAll_nil silent).join makes).join ret
  rw [List.append_nil, List.nil_append, ← List.append_assoc] at whole
  rw [openedIn_append _ [.ret (some last.value)], show openedIn [.ret (some last.value)] = [] from rfl,
    List.append_nil]
  exact whole

theorem body_callsKept {f : Function} {instructions : List Instr} (lowered : body table f = .ok instructions) :
    calledIn instructions = f.callees :=
  (body_callsMade lowered).callees.trans (callsOf_callees f _)

end Typed

end Lower

end WordC
