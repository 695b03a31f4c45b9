import WordC.Compile
import WordC.Proofs.Lower.Supply
import WordC.Proofs.Module.WellFormed

namespace WordC.Lower.Typed
open Names

-- An instruction before the return, after the instructions that are there already.
inductive InOrder (table : Signatures) (arguments : List String) (before : List Instr) : Instr → Prop where
  | alloca : InOrder table arguments before (.alloca result)
  | store : Available arguments before value → .alloca slot ∈ before →
      InOrder table arguments before (.store value slot)
  | load : .alloca slot ∈ before → InOrder table arguments before (.load result slot)
  | arith : Available arguments before left → Available arguments before right →
      InOrder table arguments before (.arith op result left right)
  | call : table.find? callee = some declared → given.length = declared.arity →
      (∀ value ∈ given, Available arguments before value) →
      InOrder table arguments before (.call result callee given)

-- Code that can stand after `before`, with the names it takes on the way.
structure Emits (table : Signatures) (arguments : List String) (before : List Instr) (names : Names)
    (code : List Instr) (after : Names) : Prop where
  order : ∀ front instruction rest, code = front ++ instruction :: rest →
    InOrder table arguments (before ++ front) instruction
  gives : Gives names (code.filterMap Instr.result?) after

variable {table : Signatures} {arguments : List String} {before : List Instr} {slots : Slots} {names : Names}

theorem emits_nil (gives : Gives names [] after) : Emits table arguments before names [] after :=
  ⟨by simp, gives⟩

theorem emits_single {instruction : Instr} (order : InOrder table arguments before instruction)
    (gives : Gives names instruction.result?.toList after) :
    Emits table arguments before names [instruction] after := by
  refine ⟨?_, ?_⟩
  · intro front other rest split
    obtain ⟨rfl, rfl, rfl⟩ : front = [] ∧ other = instruction ∧ rest = [] := by
      cases front with
      | nil => simpa [eq_comm] using split
      | cons first others => simp at split
    simpa using order
  · cases result : instruction.result? with
    | none => simpa [result] using gives
    | some name => simpa [result] using gives

theorem Emits.append (first : Emits table arguments before names code middle)
    (second : Emits table arguments (before ++ code) middle code' after) :
    Emits table arguments before names (code ++ code') after := by
  refine ⟨?_, ?_⟩
  · intro front instruction rest split
    rcases List.append_eq_append_iff.mp split with ⟨more, rfl, later⟩ | ⟨more, rfl, later⟩
    · rw [← List.append_assoc]
      exact second.order more instruction rest later
    · cases more with
      | nil =>
        have there := second.order [] instruction rest (by simpa using later.symm)
        simpa using there
      | cons other more =>
        cases later
        exact first.order front instruction more rfl
  · rw [List.filterMap_append]
    exact first.gives.append second.gives

-- Every variable has its slot open.
def Opened (slots : Slots) (before : List Instr) : Prop :=
  ∀ name slot, slots.lookup name = some slot → .alloca slot ∈ before

theorem Opened.later (opened : Opened slots before) (more : List Instr) : Opened slots (before ++ more) :=
  fun name slot bound => List.mem_append_left _ (opened name slot bound)

theorem Opened.bind (opened : Opened slots before) (name : Name) (slot : String) :
    Opened (slots.bind name slot) (before ++ [.alloca slot]) := by
  intro other place bound
  by_cases same : other = name
  · subst same
    obtain rfl : slot = place := by simpa using bound
    simp
  · rw [Bindings.lookup_bind_other _ _ same] at bound
    exact List.mem_append_left _ (opened other place bound)

theorem slotOf_opened (opened : Opened slots before) (found : slotOf slots name location = .ok slot) :
    .alloca slot ∈ before := by
  unfold slotOf at found
  split at found
  · rename_i place bound
    cases found
    exact opened name slot bound
  · cases found

theorem storeAll_emits {value : Operand} {targets : List String}
    (available : Available arguments before value) (opened : ∀ slot ∈ targets, .alloca slot ∈ before) :
    Emits table arguments before names (storeAll value targets names).1 (storeAll value targets names).2 := by
  induction targets generalizing before names with
  | nil => exact emits_nil (gives_nil names)
  | cons slot rest ih =>
    have here : Emits table arguments before names [.store value slot] names.skip :=
      emits_single (.store available (opened slot List.mem_cons_self)) (gives_skip names)
    refine here.append (ih (available.later _) ?_)
    exact fun place member => List.mem_append_left _ (opened place (List.mem_cons_of_mem _ member))

-- An expression goes on in order, and its value is there after its code.
def ExprEmits (table : Signatures) (slots : Slots) (e : Expr) : Prop :=
  ∀ arguments before names out, Opened slots before → expr table slots e names = .ok out →
    Emits table arguments before names out.code out.names ∧
      Available arguments (before ++ out.code) out.value

theorem exprs_emits {es : List Expr} (each : ∀ e ∈ es, ExprEmits table slots e) :
    ∀ before names out, Opened slots before → exprs table slots es names = .ok out →
      Emits table arguments before names out.code out.names ∧ out.value.length = es.length ∧
        ∀ value ∈ out.value, Available arguments (before ++ out.code) value := by
  induction es with
  | nil =>
    intro before names out opened lowered
    cases lowered
    exact ⟨emits_nil (gives_nil names), rfl, by simp⟩
  | cons first rest ih =>
    intro before names out opened lowered
    simp only [exprs, bind_eq_ok, pure, Except.pure, Except.ok.injEq] at lowered
    obtain ⟨here, first_ok, later, rest_ok, rfl⟩ := lowered
    obtain ⟨emits, available⟩ := each first List.mem_cons_self arguments before names here opened first_ok
    obtain ⟨more, count, all⟩ := ih (fun e member => each e (List.mem_cons_of_mem _ member))
      (before ++ here.code) here.names later (opened.later _) rest_ok
    refine ⟨emits.append more, by simp [count], ?_⟩
    intro value member
    rw [← List.append_assoc]
    rcases List.mem_cons.mp member with rfl | old
    · exact available.later later.code
    · exact all value old

theorem fold_emits {op : Arith} {es : List Expr} (each : ∀ e ∈ es, ExprEmits table slots e) :
    ∀ reached before names out, Opened slots before → Available arguments before reached →
      fold table slots op reached es names = .ok out →
      Emits table arguments before names out.code out.names ∧
        Available arguments (before ++ out.code) out.value := by
  induction es with
  | nil =>
    intro reached before names out opened available lowered
    cases lowered
    exact ⟨emits_nil (gives_nil names), by simpa using available⟩
  | cons first rest ih =>
    intro reached before names out opened available lowered
    simp only [fold, bind_eq_ok, pure, Except.pure, Except.ok.injEq] at lowered
    obtain ⟨here, first_ok, later, rest_ok, rfl⟩ := lowered
    obtain ⟨emits, right⟩ := each first List.mem_cons_self arguments before names here opened first_ok
    let joined : Instr := .arith op (here.names.fresh (joinHint op)).1 reached here.value
    have joins : Emits table arguments (before ++ here.code) here.names [joined]
        (here.names.fresh (joinHint op)).2 :=
      emits_single (.arith (available.later _) right) (gives_fresh _ _)
    obtain ⟨more, final⟩ := ih (fun e member => each e (List.mem_cons_of_mem _ member)) _
      (before ++ here.code ++ [joined]) _ later ((opened.later _).later _) (available_word rfl) rest_ok
    refine ⟨?_, ?_⟩
    · exact emits.append (joins.append more)
    · simpa [joined] using final

theorem assign_emits {es : List Expr} (each : ∀ e ∈ es, ExprEmits table slots e) :
    ∀ targets before names out, Opened slots before → (∀ slot ∈ targets, .alloca slot ∈ before) →
      assign table slots targets es names = .ok out →
      Emits table arguments before names out.code out.names ∧
        Available arguments (before ++ out.code) out.value := by
  induction es with
  | nil =>
    intro targets before names out opened places lowered
    cases lowered
  | cons first rest ih =>
    intro targets before names out opened places lowered
    cases rest with
    | nil =>
      simp only [assign, bind_eq_ok, pure, Except.pure, Except.ok.injEq] at lowered
      obtain ⟨here, first_ok, rfl⟩ := lowered
      obtain ⟨emits, available⟩ := each first List.mem_cons_self arguments before names here opened first_ok
      have stores : Emits table arguments (before ++ here.code) here.names _ _ :=
        storeAll_emits available fun slot member => List.mem_append_left _ (places slot member)
      refine ⟨emits.append stores, ?_⟩
      rw [← List.append_assoc]
      exact available.later _
    | cons next rest =>
      cases first with
      | var location name =>
        simp only [assign, bind_eq_ok] at lowered
        obtain ⟨slot, found, rest_ok⟩ := lowered
        refine ih (fun e member => each e (List.mem_cons_of_mem _ member)) (slot :: targets) before names out
          opened ?_ rest_ok
        intro place member
        rcases List.mem_cons.mp member with rfl | old
        · exact slotOf_opened opened found
        · exact places place old
      | number location value => cases lowered
      | call location function given => cases lowered
      | chain location tier operands => cases lowered

theorem expr_emits (e : Expr) : ExprEmits table slots e := by
  induction e with
  | number location value =>
    intro arguments before names out opened lowered
    cases value with
    | none => cases lowered
    | some value =>
      cases lowered
      exact ⟨emits_nil (gives_nil names), trivial⟩
  | var location name =>
    intro arguments before names out opened lowered
    simp only [expr, bind_eq_ok, pure, Except.pure, Except.ok.injEq] at lowered
    obtain ⟨slot, found, rfl⟩ := lowered
    exact ⟨emits_single (.load (slotOf_opened opened found)) (gives_fresh _ _), available_word rfl⟩
  | call location function given each =>
    intro arguments before names out opened lowered
    simp only [expr] at lowered
    split at lowered
    · cases lowered
    · rename_i signature found
      split at lowered
      · cases lowered
      · rename_i count
        simp only [bind_eq_ok, pure, Except.pure, Except.ok.injEq] at lowered
        obtain ⟨values, all_ok, rfl⟩ := lowered
        obtain ⟨emits, length, available⟩ := exprs_emits each before names values opened all_ok
        have fits : values.value.length = signature.arity := length.trans (by simpa using count)
        refine ⟨emits.append (emits_single (.call found fits available) (gives_fresh _ _)), ?_⟩
        rw [← List.append_assoc]
        exact available_word rfl
  | chain location tier operands each =>
    intro arguments before names out opened lowered
    cases tier with
    | sum => exact fold_emits each (.constant 0) before names out opened trivial lowered
    | product => exact fold_emits each (.constant 1) before names out opened trivial lowered
    | assign => exact assign_emits each [] before names out opened (by simp) lowered

theorem stmt_emits {s : Stmt} {code : List Instr} {after : Names} {slots' : Slots} (arguments : List String)
    (opened : Opened slots before) (lowered : stmt table names slots s = .ok (code, after, slots')) :
    Emits table arguments before names code after ∧ Opened slots' (before ++ code) := by
  cases s with
  | declare location typeName name =>
    cases lowered
    exact ⟨emits_single .alloca (gives_fresh _ _), opened.bind name _⟩
  | expression location value =>
    simp only [stmt, bind_eq_ok, pure, Except.pure, Except.ok.injEq, Prod.mk.injEq] at lowered
    obtain ⟨out, value_ok, rfl, rfl, rfl⟩ := lowered
    exact ⟨(expr_emits value arguments before names out opened value_ok).1, opened.later _⟩

theorem stmts_emits {ss : List Stmt} {code : List Instr} {after : Names} {slots' : Slots}
    (arguments : List String) (opened : Opened slots before)
    (lowered : stmts table names slots ss = .ok (code, after, slots')) :
    Emits table arguments before names code after ∧ Opened slots' (before ++ code) := by
  induction ss generalizing before names slots code with
  | nil =>
    cases lowered
    exact ⟨emits_nil (gives_nil _), by simpa using opened⟩
  | cons first rest ih =>
    simp only [stmts, bind_eq_ok, pure, Except.pure, Except.ok.injEq, Prod.mk.injEq] at lowered
    obtain ⟨⟨here, names', slots''⟩, first_ok, ⟨later, last, final⟩, rest_ok, rfl, rfl, rfl⟩ := lowered
    obtain ⟨emits, opened'⟩ := stmt_emits arguments opened first_ok
    obtain ⟨more, opened''⟩ := ih opened' rest_ok
    refine ⟨emits.append more, ?_⟩
    rw [← List.append_assoc]
    exact opened''

-- Each argument is stored in a slot of its own.
theorem parameters_emits {given : List (Parameter × String)} (table : Signatures) (names : Names)
    (opened : Opened slots before) (listed : ∀ pair ∈ given, pair.2 ∈ arguments) :
    Emits table arguments before names (parameters names slots given).1 (parameters names slots given).2.1 ∧
      Opened (parameters names slots given).2.2 (before ++ (parameters names slots given).1) := by
  induction given generalizing before names slots with
  | nil => exact ⟨emits_nil (gives_nil names), by simpa [parameters] using opened⟩
  | cons first rest ih =>
    obtain ⟨parameter, argument⟩ := first
    let slot := (names.fresh parameter.name.text).1
    have alloca : Emits table arguments before names [.alloca slot] (names.fresh parameter.name.text).2 :=
      emits_single .alloca (gives_fresh _ _)
    have store : Emits table arguments (before ++ [.alloca slot]) (names.fresh parameter.name.text).2
        [.store (.register argument) slot] (names.fresh parameter.name.text).2.skip :=
      emits_single (.store (.inl (listed (parameter, argument) List.mem_cons_self)) (by simp)) (gives_skip _)
    obtain ⟨more, opened'⟩ := ih (names.fresh parameter.name.text).2.skip
      ((opened.bind parameter.name slot).later [.store (.register argument) slot])
      fun pair member => listed pair (List.mem_cons_of_mem _ member)
    refine ⟨alloca.append (store.append more), ?_⟩
    simpa [parameters, slot] using opened'

-- Arguments and block take names before the first instruction does.
theorem entryNames_gives (arity : Nat) :
    Gives Names.start ((entryNames arity).1 ++ [(entryNames arity).2.1]) (entryNames arity).2.2 := by
  have listed := gives_freshList Names.start "" arity
  simpa [entryNames] using (listed.append (gives_skip _)).append (gives_fresh _ "entry")

theorem body_emits {f : Function} {instructions : List Instr} (lowered : body table f = .ok instructions) :
    ∃ front value after, instructions = front ++ [.ret (some value)] ∧
      Emits table (entryNames f.arity).1 [] (entryNames f.arity).2.2 front after ∧
      Available (entryNames f.arity).1 front value := by
  have listed : ∀ pair ∈ f.parameters.zip (entryNames f.arity).1, pair.2 ∈ (entryNames f.arity).1 :=
    fun pair member => (List.of_mem_zip member).2
  have empty : Opened Bindings.empty [] := by
    intro name slot bound
    cases bound
  obtain ⟨entry, opened⟩ := parameters_emits table (entryNames f.arity).2.2 empty listed
  simp only [body, bind_eq_ok, pure, Except.pure, Except.ok.injEq] at lowered
  obtain ⟨⟨middle, names, slots⟩, statements_ok, last, result_ok, rfl⟩ := lowered
  obtain ⟨statements, opened'⟩ := stmts_emits (entryNames f.arity).1 opened statements_ok
  obtain ⟨result, available⟩ := expr_emits f.result.value (entryNames f.arity).1 _ names last opened' result_ok
  refine ⟨_, last.value, last.names, rfl, ?_, ?_⟩
  · rw [List.append_assoc]
    exact entry.append (statements.append (by simpa using result))
  · simpa using available

theorem InOrder.operands {instruction : Instr} (order : InOrder table arguments before instruction) :
    ∀ operand ∈ instruction.operands, Available arguments before operand := by
  cases order with
  | alloca => simp [Instr.operands]
  | store value slot => simpa [Instr.operands] using value
  | load slot => simp [Instr.operands]
  | arith left right => simpa [Instr.operands] using ⟨left, right⟩
  | call found count given => exact given

theorem InOrder.slot_open {instruction : Instr} (order : InOrder table arguments before instruction) :
    ∀ slot, instruction.slot? = some slot → .alloca slot ∈ before := by
  intro slot addressed
  cases order with
  | store value place | load place =>
    cases addressed
    exact place
  | alloca | arith | call => cases addressed

theorem InOrder.isReturn {instruction : Instr} (order : InOrder table arguments before instruction) :
    instruction.isReturn = false := by
  cases order <;> rfl

-- An instruction of a body stands before the last one, or is the last one.
theorem split_concat {front before after : List Instr} {instruction last : Instr}
    (split : front ++ [last] = before ++ instruction :: after) :
    (∃ rest, front = before ++ instruction :: rest) ∨ before = front ∧ instruction = last := by
  rcases List.eq_nil_or_concat after with rfl | ⟨rest, other, rfl⟩
  · have same := List.append_inj' split rfl
    exact .inr ⟨same.1.symm, (List.singleton_inj.mp same.2).symm⟩
  · rw [List.concat_eq_append, ← List.cons_append, ← List.append_assoc] at split
    exact .inl ⟨rest, (List.append_inj' split rfl).1⟩

theorem coded_wellFormed {fs : List Function} {m : Module} {f : Function} {instructions : List Instr}
    (defined : ∀ g ∈ fs, ∃ code ∈ m.functions, code.name = g.name ∧ code.arity = g.arity)
    (lowered : body (fs.map signature) f = .ok instructions) : WellFormed m (coded f instructions) := by
  obtain ⟨front, value, after, rfl, emits, available⟩ := body_emits lowered
  have order : ∀ before instruction rest, front = before ++ instruction :: rest →
      InOrder (fs.map signature) (entryNames f.arity).1 before instruction :=
    fun before instruction rest split => by simpa using emits.order before instruction rest split
  refine ⟨⟨front, value, rfl, ?_⟩, ?_, ?_, ?_, ?_⟩
  · intro instruction member
    obtain ⟨before, rest, split⟩ := List.append_of_mem member
    exact (order before instruction rest split).isReturn
  · intro before instruction rest split operand member
    rcases split_concat split with ⟨rest', inside⟩ | ⟨rfl, rfl⟩
    · exact (order before instruction rest' inside).operands operand member
    · obtain rfl : operand = value := by simpa [Instr.operands] using member
      exact available
  · intro before instruction rest split slot addressed
    rcases split_concat split with ⟨rest', inside⟩ | ⟨rfl, rfl⟩
    · exact (order before instruction rest' inside).slot_open slot addressed
    · cases addressed
  · intro result function given member
    obtain ⟨before, rest, split⟩ := List.append_of_mem member
    rcases split_concat split with ⟨rest', inside⟩ | ⟨_, same⟩
    · cases order before _ rest' inside with
      | call found count _ =>
        rw [find?_signatures, Option.map_eq_some_iff] at found
        obtain ⟨g, there, rfl⟩ := found
        obtain ⟨code, listed, name, arity⟩ := defined g (List.mem_of_find?_eq_some there)
        have called : g.name = function := by simpa using List.find?_some there
        exact ⟨code, listed, name.trans called, arity.trans count.symm⟩
    · cases same
  · have names := (entryNames_gives f.arity).append emits.gives
    have listed : (coded f (front ++ [.ret (some value)])).givenNames =
        (entryNames f.arity).1 ++ [(entryNames f.arity).2.1] ++ front.filterMap Instr.result? := by
      simp [Code.givenNames, coded, Instr.result?]
    rw [listed]
    exact names.distinct.map escapeName_injective

end WordC.Lower.Typed

namespace WordC.Lower
open Names (freshList_length)
open Typed

theorem exists_of_mem_left {R : α → β → Prop} (related : List.Forall₂ R as bs) (member : a ∈ as) :
    ∃ b ∈ bs, R a b := by
  induction related with
  | nil => cases member
  | cons here _ ih =>
    rcases List.mem_cons.mp member with rfl | old
    · exact ⟨_, List.mem_cons_self, here⟩
    · obtain ⟨b, listed, there⟩ := ih old
      exact ⟨b, List.mem_cons_of_mem _ listed, there⟩

-- The functions of a lowered program have well-formed code, whatever their variables are called.
theorem lowered_wellFormed {moduleName : String} {lines : List String} {p : Program} {m : Module}
    (accepted : lowerProgram moduleName lines p = .ok m) :
    m.functionNames = p.functionNames ∧ m.functionNames.Nodup ∧ ∀ code ∈ m.functions, WellFormed m code := by
  have made : Lower.program moduleName p.node = .ok m := by
    unfold lowerProgram lowerTree at accepted
    cases outcome : Lower.program moduleName p.node with
    | error rejection => simp [outcome, Except.mapError] at accepted
    | ok other => simpa [outcome, Except.mapError] using accepted
  obtain ⟨distinct, lowered⟩ := program_ok made
  have names := program_names made
  have defined : ∀ g ∈ p.functions, ∃ code ∈ m.functions, code.name = g.name ∧ code.arity = g.arity := by
    intro g listed
    obtain ⟨code, there, instructions, _, rfl⟩ := exists_of_mem_left lowered listed
    exact ⟨_, there, rfl, freshList_length _ _ _⟩
  refine ⟨names, ?_, ?_⟩
  · rw [names]
    exact distinct
  · intro code member
    obtain ⟨f, _, instructions, body_ok, rfl⟩ := exists_of_mem_left lowered.flip member
    exact coded_wellFormed defined body_ok

-- Two parameters of one name, a variable declared twice, one without letters, and variables that are called like
-- the block, like a product, and like the second `a`.
def collidingNames : Program :=
  ⟨none, [⟨none, some "sum", some "int",
    [⟨none, some "a", some "int"⟩, ⟨none, some "a", some "int"⟩, ⟨none, some "", some "int"⟩],
    [.declare none (some "int") (some "a.1"), .declare none (some "int") (some "entry"),
      .declare none (some "int") (some "a"), .declare none (some "int") (some "mul"),
      .expression none (.chain none .assign [.var none (some "a"), .var none (some "entry"),
        .chain none .product [.var none (some "a.1"), .var none (some "")]])],
    ⟨none, .chain none .sum [.var none (some "mul"),
      .call none (some "sum") [.var none (some "a"), .var none (some "entry"), .number none (some 1)]]⟩⟩]⟩

theorem collidingNames_wellFormed :
    ∃ m, lowerProgram "rcc" [] collidingNames = .ok m ∧ m.functionNames = [some "sum"] ∧
      m.functionNames.Nodup ∧ ∀ code ∈ m.functions, WellFormed m code := by
  have accepted : (lowerProgram "rcc" [] collidingNames).isOk = true := by decide +kernel
  cases made : lowerProgram "rcc" [] collidingNames with
  | error failure =>
    rw [made] at accepted
    cases accepted
  | ok m => exact ⟨m, rfl, lowered_wellFormed made⟩

end WordC.Lower
