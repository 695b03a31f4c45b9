import WordC.Compile
import WordC.Proofs.Lower.Breach
import WordC.Proofs.Lower.Typed
import WordC.Proofs.Names

namespace WordC.Lower
open Typed (signature)

section

variable {α β : Type}

-- An outcome is the first breach of a list, and there is one exactly when the list is not empty.
def Agrees (outcome : Except Rejection α) (found : List Rejection) : Prop :=
  ∀ rejection, outcome = .error rejection ↔ found.head? = some rejection

theorem agrees_ok (result : α) : Agrees (.ok result) [] := by
  intro rejection
  simp

theorem agrees_error : Agrees (.error rejection : Except Rejection α) (rejection :: later) := by
  intro other
  simp

theorem Agrees.nil_of_ok {result : α} (agrees : Agrees (.ok result) found) : found = [] := by
  cases found with
  | nil => rfl
  | cons rejection later => cases (agrees rejection).mpr rfl

theorem Agrees.exists_ok_iff {outcome : Except Rejection α} (agrees : Agrees outcome found) :
    (∃ result, outcome = .ok result) ↔ found = [] := by
  cases outcome with
  | ok result => simp [agrees.nil_of_ok]
  | error rejection =>
    have first := (agrees rejection).mp rfl
    constructor
    · intro accepted
      obtain ⟨result, accepted⟩ := accepted
      cases accepted
    · intro nothing
      simp [nothing] at first

theorem Agrees.bind {first : Except Rejection α} {next : α → Except Rejection β} (agrees : Agrees first found)
    (goes_on : ∀ result, first = .ok result → Agrees (next result) later) :
    Agrees (first >>= next) (found ++ later) := by
  cases first with
  | error rejection =>
    have head := (agrees rejection).mp rfl
    intro other
    rw [List.head?_append, head]
    simp [Bind.bind, Except.bind]
  | ok result =>
    rw [agrees.nil_of_ok]
    exact goes_on result rfl

theorem Agrees.andGive {first : Except Rejection α} {next : α → Except Rejection β} (agrees : Agrees first found)
    (gives : ∀ result, ∃ given, next result = .ok given) : Agrees (first >>= next) found := by
  have ended (result : α) : Agrees (next result) [] := by
    obtain ⟨given, same⟩ := gives result
    exact same ▸ agrees_ok given
  simpa using agrees.bind fun result _ => ended result

theorem Agrees.map {first : Except Rejection α} (agrees : Agrees first found) (change : α → β) :
    Agrees (first.map change) found := by
  intro rejection
  rw [map_eq_error, agrees rejection]

theorem agrees_mapM {each : α → Except Rejection β} {given : List α}
    (agree : ∀ x ∈ given, Agrees (each x) (found x)) : Agrees (given.mapM each) (given.flatMap found) := by
  induction given with
  | nil => exact agrees_ok []
  | cons first rest ih =>
    rw [List.mapM_cons, List.flatMap_cons]
    refine (agree first List.mem_cons_self).bind fun result _ => ?_
    refine (ih fun x member => agree x (List.mem_cons_of_mem _ member)).andGive fun results => ?_
    exact ⟨result :: results, rfl⟩

end

-- The variables that have a slot are those in scope.
def Covers (slots : Slots) (scope : List Name) : Prop := ∀ name, slots.lookup name ≠ none ↔ name ∈ scope

theorem Covers.bind (covers : Covers slots scope) (name : Name) (slot : String) :
    Covers (slots.bind name slot) (name :: scope) := by
  intro other
  by_cases same : other = name
  · subst same
    simp
  · rw [Bindings.lookup_bind_other _ _ same, covers other]
    simp [same]

theorem slotOf_agrees (covers : Covers slots scope) :
    Agrees (slotOf slots name location) (undeclared scope location name) := by
  have there := covers name
  unfold slotOf undeclared
  split
  · rename_i slot found
    rw [if_pos (there.mp (by simp [found]))]
    exact agrees_ok slot
  · rename_i missing
    rw [if_neg (fun member => there.mpr member missing)]
    exact agrees_error

section

variable {fs : List Function} {scope : List Name} {slots : Slots}

-- Lowering an expression stops at its first breach, whatever names are used up.
def ExprAgrees (fs : List Function) (scope : List Name) (slots : Slots) (e : Expr) : Prop :=
  ∀ names, Agrees (Typed.expr (fs.map signature) slots e names) (breaches fs scope e)

theorem exprs_agrees {es : List Expr} (each : ∀ e ∈ es, ExprAgrees fs scope slots e) (names : Names) :
    Agrees (Typed.exprs (fs.map signature) slots es names) (allBreaches fs scope es) := by
  induction es generalizing names with
  | nil => exact agrees_ok _
  | cons first rest ih =>
    rw [Typed.exprs, allBreaches]
    refine (each first List.mem_cons_self names).bind fun here _ => ?_
    refine (ih (fun e member => each e (List.mem_cons_of_mem _ member)) here.names).andGive fun later => ?_
    exact ⟨_, rfl⟩

theorem fold_agrees {es : List Expr} (each : ∀ e ∈ es, ExprAgrees fs scope slots e) (op : Arith)
    (reached : Operand) (names : Names) :
    Agrees (Typed.fold (fs.map signature) slots op reached es names) (allBreaches fs scope es) := by
  induction es generalizing reached names with
  | nil => exact agrees_ok _
  | cons first rest ih =>
    rw [Typed.fold, allBreaches]
    refine (each first List.mem_cons_self names).bind fun here _ => ?_
    refine (ih (fun e member => each e (List.mem_cons_of_mem _ member)) _ _).andGive fun later => ?_
    exact ⟨_, rfl⟩

theorem assign_agrees {sides : List Expr} (covers : Covers slots scope)
    (each : ∀ e ∈ sides, ExprAgrees fs scope slots e) (filled : sides.isEmpty = false) (targets : List String)
    (names : Names) :
    Agrees (Typed.assign (fs.map signature) slots targets sides names) (sideBreaches fs scope sides) := by
  induction sides generalizing targets with
  | nil => cases filled
  | cons first rest ih =>
    cases rest with
    | nil =>
      rw [Typed.assign, sideBreaches]
      exact (each first List.mem_cons_self names).andGive fun here => ⟨_, rfl⟩
    | cons next rest =>
      cases first with
      | var location name =>
        rw [Typed.assign, sideBreaches]
        refine (slotOf_agrees covers).bind fun slot _ => ?_
        exact ih (fun e member => each e (List.mem_cons_of_mem _ member)) rfl _
      | number | call | chain => exact agrees_error

-- The callee is looked up first and its parameters are counted, then the arguments are lowered.
theorem call_agrees {arguments : List Expr}
    (given : Agrees (Typed.exprs (fs.map signature) slots arguments names) (allBreaches fs scope arguments)) :
    Agrees (Typed.expr (fs.map signature) slots (.call location name arguments) names)
      (breaches fs scope (.call location name arguments)) := by
  rw [Typed.expr, breaches, misdirected, Typed.find?_signatures]
  cases fs.find? fun f => f.name = name with
  | none => exact agrees_error
  | some f =>
    simp only [Option.map_some, signature]
    by_cases fits : arguments.length = f.arity
    · simp only [fits, ne_eq, not_true_eq_false, if_false, if_true, List.nil_append]
      exact given.andGive fun out => ⟨_, rfl⟩
    · simp only [fits, ne_eq, not_false_eq_true, if_true, if_false]
      exact agrees_error

theorem expr_agrees (covers : Covers slots scope) (e : Expr) (filled : ∀ part ∈ parts e, Filled part) :
    ExprAgrees fs scope slots e := by
  induction e with
  | number location value =>
    intro names
    cases value with
    | none => exact absurd rfl (filled _ List.mem_cons_self)
    | some value => exact agrees_ok _
  | var location name =>
    intro names
    rw [Typed.expr, breaches]
    exact (slotOf_agrees covers).andGive fun slot => ⟨_, rfl⟩
  | call location name arguments each =>
    intro names
    rw [parts, List.forall_mem_cons, forall_mem_allParts] at filled
    exact call_agrees (exprs_agrees (fun e member => each e member (filled.2 e member)) names)
  | chain location tier operands each =>
    intro names
    rw [parts, List.forall_mem_cons, forall_mem_allParts] at filled
    have each' := fun e member => each e member (filled.2 e member)
    cases tier with
    | sum => exact fold_agrees each' _ _ names
    | product => exact fold_agrees each' _ _ names
    | assign => exact assign_agrees covers each' filled.1 [] names

-- Statement after statement to the result. A declaration widens the scope of what comes after it.
theorem stmts_agrees {ss : List Stmt} {last : Expr} (covers : Covers slots scope)
    (filled : ∀ evaluated ∈ evaluationsFrom scope last ss, ∀ part ∈ parts evaluated.2, Filled part)
    (names : Names) (finish : List Instr → Typed.Emitted Operand → β) :
    Agrees (do
        let (middle, names, slots) ← Typed.stmts (fs.map signature) names slots ss
        let out ← Typed.expr (fs.map signature) slots last names
        return finish middle out)
      ((evaluationsFrom scope last ss).flatMap fun (scope, e) => breaches fs scope e) := by
  induction ss generalizing scope slots names finish with
  | nil =>
    rw [evaluationsFrom, List.forall_mem_singleton] at filled
    rw [evaluationsFrom, List.flatMap_singleton]
    exact (expr_agrees covers last filled names).andGive fun out => ⟨_, rfl⟩
  | cons first rest ih =>
    cases first with
    | declare location typeName name =>
      rw [evaluationsFrom] at filled ⊢
      have later := ih (covers.bind name (names.fresh name.text).1) filled (names.fresh name.text).2
        fun later out => finish (.alloca (names.fresh name.text).1 :: later) out
      simpa [Typed.stmts, Typed.stmt, bind_assoc] using later
    | expression location value =>
      rw [evaluationsFrom, List.forall_mem_cons] at filled
      rw [evaluationsFrom, List.flatMap_cons]
      have here : ExprAgrees fs scope slots value := expr_agrees covers value filled.1
      have later := fun out : Typed.Emitted Operand => ih covers filled.2 out.names
        fun later result => finish (out.code ++ later) result
      simpa [Typed.stmts, Typed.stmt, bind_assoc] using (here names).bind fun out _ => later out

theorem parameters_cover {listed : List Parameter} {arguments : List String} (names : Names)
    (covers : Covers slots scope) (counted : arguments.length = listed.length) :
    Covers (Typed.parameters names slots (listed.zip arguments)).2.2
      ((listed.map Parameter.name).reverse ++ scope) := by
  induction listed generalizing scope slots names arguments with
  | nil => simpa [Typed.parameters] using covers
  | cons first rest ih =>
    cases arguments with
    | nil => cases counted
    | cons argument others =>
      have later := ih (names.fresh first.name.text).2.skip
        (covers.bind first.name (names.fresh first.name.text).1) (Nat.succ.inj counted)
      simpa [Typed.parameters] using later

theorem body_agrees {f : Function}
    (filled : ∀ evaluated ∈ evaluations f, ∀ part ∈ parts evaluated.2, Filled part) :
    Agrees (Typed.body (fs.map signature) f) (functionBreaches fs f) := by
  have counted : (entryNames f.arity).1.length = f.parameters.length := Names.freshList_length _ _ _
  have empty : Covers Bindings.empty [] := by
    intro name
    simp
  have covers : Covers (Typed.parameters (entryNames f.arity).2.2 .empty
      (f.parameters.zip (entryNames f.arity).1)).2.2 (f.parameters.map Parameter.name) := by
    intro name
    simpa using parameters_cover (entryNames f.arity).2.2 empty counted name
  exact stmts_agrees covers filled _ fun middle last => _ ++ middle ++ last.code ++ [.ret (some last.value)]

-- The first pass stops at the first second definition.
theorem declareFrom_agrees (seen : List Function) (named : ∀ f ∈ fs, f.name ≠ some "") :
    Agrees (declareFrom (seen.map signature) (fs.map Function.node)) (redefinitions seen fs) := by
  induction fs generalizing seen with
  | nil => exact agrees_ok _
  | cons f rest ih =>
    simp only [List.map_cons, declareFrom, Function.node, Node.name?, Typed.find?_signatures, redefinitions]
    cases seen.find? fun g => g.name = f.name with
    | some first => exact agrees_error
    | none =>
      have grown : seen.map signature ++ [⟨f.name, (f.parameters.map Parameter.node).length, f.location⟩] =
          (seen ++ [f]).map signature := by simp [signature, Function.arity]
      simp only [Option.map_none, if_neg (named f List.mem_cons_self), grown]
      exact ih (seen ++ [f]) fun g member => named g (List.mem_cons_of_mem _ member)

end

theorem program_agrees {p : Program} (formed : Formed p) (moduleName : String) :
    Agrees (Lower.program moduleName p.node) (programBreaches p) := by
  have declared : Agrees (declare (p.functions.map Function.node)) (redefinitions [] p.functions) :=
    declareFrom_agrees [] formed.named
  simp only [Lower.program, Program.node, programBreaches]
  refine declared.bind fun table accepted => ?_
  obtain ⟨rfl, distinct⟩ := Typed.declare_ok accepted
  have lowered : Agrees (p.functions.mapM fun f => function (p.functions.map signature) f.node)
      (p.functions.flatMap (functionBreaches p.functions)) := by
    refine agrees_mapM fun f member => ?_
    rw [Typed.function_body (Typed.find?_signature distinct member) rfl]
    exact (body_agrees (formed.filled f member)).map _
  rw [List.mapM_map]
  exact lowered.andGive fun codes => ⟨_, rfl⟩

-- A program is lowered exactly when it keeps all rules. Otherwise the failure is the first breach of them.
theorem lowered_iff_sound {p : Program} (formed : Formed p) (moduleName : String) (lines : List String) :
    ((∃ m, lowerProgram moduleName lines p = .ok m) ↔ Sound p) ∧
      ∀ failure, lowerProgram moduleName lines p = .error failure ↔
        ∃ rejection, (programBreaches p).head? = some rejection ∧ failure = rejection.diagnose lines := by
  have agrees := program_agrees formed moduleName
  unfold lowerProgram lowerTree
  constructor
  · rw [← programBreaches_eq_nil, ← agrees.exists_ok_iff]
    cases Lower.program moduleName p.node <;> simp [Except.mapError]
  · intro failure
    simp only [← agrees _]
    cases Lower.program moduleName p.node <;> simp [Except.mapError, eq_comm]

-- Five breaches in two evaluations: a target that is no variable, an unknown variable and an unknown function in
-- one assignment, and a wrong number of arguments and an unknown variable in the result.
def oftenBroken : Program :=
  ⟨none, [⟨none, some "f", some "int", [⟨none, some "a", some "int"⟩],
    [.expression none (.chain none .assign [.number (some ⟨"m.c", 1, 13⟩) (some 1), .var none (some "x"),
      .call none (some "g") []])],
    ⟨none, .call none (some "f") [.var none (some "a"), .var none (some "b")]⟩⟩]⟩

theorem oftenBroken_first_breach :
    Formed oftenBroken ∧ (programBreaches oftenBroken).length = 5 ∧
      lowerProgram "rcc" [] oftenBroken =
        .error (.diagnostic ⟨.notAssignable, some ⟨"m.c", 1, 13⟩, none, false⟩) := by
  have formed : Formed oftenBroken := by decide
  refine ⟨formed, by decide, ((lowered_iff_sound formed "rcc" []).2 _).mpr ?_⟩
  exact ⟨.notAssignable (some ⟨"m.c", 1, 13⟩), by decide, by decide⟩

end WordC.Lower
