import Mathlib.Data.List.Perm.Subperm
import WordC.Proofs.Lower.Calls

namespace WordC
open Relation Machine

-- A cycle of calls can be reached from a function.
def Program.Recurs (p : Program) (name : Name) : Prop :=
  ∃ again, ReflTransGen p.Calls name again ∧ TransGen p.Calls again again

theorem Program.Recurs.of_callee {p : Program} (recurs : p.Recurs callee) (called : p.Calls caller callee) :
    p.Recurs caller := by
  obtain ⟨again, reached, cycle⟩ := recurs
  exact ⟨again, .head called reached, cycle⟩

theorem Program.Recurs.exists_callee {p : Program} (recurs : p.Recurs caller) :
    ∃ callee, p.Calls caller callee ∧ p.Recurs callee := by
  obtain ⟨again, reached, cycle⟩ := recurs
  rcases ReflTransGen.cases_head reached with rfl | ⟨callee, called, rest⟩
  · obtain ⟨callee, called, rest⟩ := TransGen.head'_iff.mp cycle
    exact ⟨callee, called, caller, rest, cycle⟩
  · exact ⟨callee, called, again, rest, cycle⟩

namespace Lower
open Typed

section

variable {moduleName : String} {p : Program} {m : Module}

theorem find?_of_lowered {f : Function} (accepted : program moduleName p.node = .ok m) (member : f ∈ p.functions) :
    ∃ instructions, m.find? f.name = some (coded f instructions) ∧
      body (p.functions.map signature) f = .ok instructions := by
  obtain ⟨distinct, lowered⟩ := program_ok accepted
  obtain ⟨code, found, instructions, made, rfl⟩ := Simulation.find?_lowered
    (by rintro f code ⟨_, _, rfl⟩; rfl) lowered (find?_of_mem distinct member)
  exact ⟨instructions, found, made⟩

-- The code of a function in a module: its calls are those of the function, and all of them are to functions of the
-- program that take as many arguments.
structure Implements (p : Program) (m : Module) (f : Function) (code : Code) : Prop where
  found : m.find? f.name = some code
  arity : code.arity = f.arity
  wellFormed : WellFormed m code
  callees : calledIn code.body = f.callees
  defined : ∀ result function given, .call result function given ∈ code.body →
    ∃ g ∈ p.functions, g.name = function ∧ g.arity = given.length

theorem exists_implements {f : Function} (accepted : program moduleName p.node = .ok m) (member : f ∈ p.functions) :
    ∃ code, Implements p m f code := by
  obtain ⟨instructions, found, made⟩ := find?_of_lowered accepted member
  have arity (g : Function) (instructions : List Instr) : (coded g instructions).arity = g.arity :=
    Names.freshList_length _ _ _
  have wellFormed : WellFormed m (coded f instructions) := by
    refine coded_wellFormed ?_ made
    intro g listed
    obtain ⟨others, found', -⟩ := find?_of_lowered accepted listed
    exact ⟨_, List.mem_of_find?_eq_some found', rfl, arity g others⟩
  refine ⟨_, found, arity f instructions, wellFormed, body_callsKept made, ?_⟩
  intro result function given inBody
  obtain ⟨callee, listed, named, fits⟩ := wellFormed.calls result function given inBody
  obtain ⟨g, member', others, -, rfl⟩ := exists_of_mem_left (program_ok accepted).2.flip listed
  exact ⟨g, member', named, (arity g others).symm.trans fits⟩

end

section

variable {p : Program} {m : Module} {f : Function} {code : Code} {words : List Word} {fuel opened : Nat}

theorem Implements.call_succ (implements : Implements p m f code) (length : words.length = f.arity)
    (supply : Supply) : call m supply (fuel + 1) f.name words opened =
      run supply (call m supply fuel) code.body (.entered code.arguments words) opened := by
  unfold call
  rw [implements.found]
  exact if_neg fun differs => differs (length.trans implements.arity.symm)

-- A call ends with a value or as one of the calls in the body ends.
theorem Implements.call_ends (implements : Implements p m f code) (Ends : Called → Prop)
    (values : ∀ result, Ends (.value result))
    (calls : ∀ g ∈ p.functions, g.name ∈ f.callees → ∀ words opened, words.length = g.arity →
      Ends (call m (filledSlots contents) fuel g.name words opened))
    (length : words.length = f.arity) : Ends (call m (filledSlots contents) (fuel + 1) f.name words opened) := by
  rw [implements.call_succ length]
  obtain ⟨front, value, closed, goesOn⟩ := implements.wellFormed.closed
  have distinct : code.arguments.Nodup := by
    have names := List.Nodup.of_map _ implements.wellFormed.distinct
    exact (List.nodup_append.mp names).1
  rw [closed]
  refine run_ends implements.wellFormed Ends values ?_ closed goesOn
    (entered_ready distinct (length.trans implements.arity.symm)) opened
  intro result function given inBody words opened length'
  obtain ⟨g, member, rfl, fits⟩ := implements.defined result function given inBody
  apply calls g member
  · rw [← implements.callees]
    exact mem_calledIn.mpr ⟨result, given, inBody⟩
  · exact length'.trans fits.symm

theorem Implements.length_of_value (implements : Implements p m f code) {supply : Supply}
    (ended : call m supply (fuel + 1) f.name words opened = .value result) : words.length = f.arity := by
  unfold call at ended
  rw [implements.found] at ended
  by_contra differs
  rw [← implements.arity] at differs
  simp [differs] at ended

-- A call that ends with a value has had values from all functions that are called.
theorem Implements.callee_value (implements : Implements p m f code) {supply : Supply}
    (ended : call m supply (fuel + 1) f.name words opened = .value result) (called : callee ∈ f.callees) :
    ∃ words opened answer, call m supply fuel callee words opened = .value answer := by
  rw [implements.call_succ (implements.length_of_value ended)] at ended
  obtain ⟨front, value, closed, goesOn⟩ := implements.wellFormed.closed
  rw [closed] at ended
  rw [← implements.callees, closed] at called
  obtain ⟨register, given, inBody⟩ := mem_calledIn.mp called
  have inFront : .call register callee given ∈ front := by simpa using inBody
  exact called_of_run_value goesOn ended inFront

end

section

variable {moduleName : String} {p : Program} {m : Module} {contents : Nat → Word}

theorem call_not_stuck (accepted : program moduleName p.node = .ok m) {f : Function} (member : f ∈ p.functions)
    (length : words.length = f.arity) :
    call m (filledSlots contents) fuel f.name words opened ≠ .stuck ∧
      call m (filledSlots contents) fuel f.name words opened ≠ .unassigned := by
  induction fuel generalizing f words opened with
  | zero => exact ⟨nofun, nofun⟩
  | succ fuel ih =>
    obtain ⟨code, implements⟩ := exists_implements accepted member
    refine implements.call_ends (fun ended => ended ≠ .stuck ∧ ended ≠ .unassigned) ?_ ?_ length
    · exact fun _ => ⟨nofun, nofun⟩
    · exact fun g listed _ words opened fits => ih listed fits

-- Functions that wait for a call to end. Each of them is waiting once, and has led to the function that is called.
structure Waiting (p : Program) (waiting : List Name) (called : Name) : Prop where
  distinct : waiting.Nodup
  known : waiting ⊆ p.functions.map Function.name
  reached : ∀ name ∈ waiting, TransGen p.Calls name called

-- The function that is called is none of those that wait for it, for it would lead to itself.
theorem Waiting.pushed {waiting : List Name} {f : Function} (stack : Waiting p waiting f.name)
    (member : f ∈ p.functions) (unrecurring : ¬p.Recurs f.name) :
    (f.name :: waiting).Nodup ∧ f.name :: waiting ⊆ p.functions.map Function.name := by
  constructor
  · apply List.nodup_cons.mpr
    exact ⟨fun again => unrecurring ⟨f.name, .refl, stack.reached f.name again⟩, stack.distinct⟩
  · exact List.cons_subset.mpr ⟨List.mem_map_of_mem member, stack.known⟩

theorem Waiting.enter {waiting : List Name} {f : Function} (stack : Waiting p waiting f.name)
    (member : f ∈ p.functions) (unrecurring : ¬p.Recurs f.name) (called : p.Calls f.name callee) :
    Waiting p (f.name :: waiting) callee := by
  obtain ⟨distinct, known⟩ := stack.pushed member unrecurring
  refine ⟨distinct, known, ?_⟩
  intro name there
  rcases List.mem_cons.mp there with rfl | old
  · exact .single called
  · exact (stack.reached name old).tail called

theorem Waiting.length_lt {waiting : List Name} {f : Function} (stack : Waiting p waiting f.name)
    (member : f ∈ p.functions) (unrecurring : ¬p.Recurs f.name) : waiting.length < p.functions.length := by
  obtain ⟨distinct, known⟩ := stack.pushed member unrecurring
  have count := (List.subperm_of_subset distinct known).length_le
  simp only [List.length_cons, List.length_map] at count
  omega

-- As long as no cycle is reached there are never more functions waiting than the program has.
theorem call_value_of_not_recurs (accepted : program moduleName p.node = .ok m) {f : Function}
    (member : f ∈ p.functions) (unrecurring : ¬p.Recurs f.name) {waiting : List Name}
    (stack : Waiting p waiting f.name) (enough : p.functions.length ≤ fuel + waiting.length)
    (length : words.length = f.arity) :
    ∃ result, call m (filledSlots contents) fuel f.name words opened = .value result := by
  have room := stack.length_lt member unrecurring
  induction fuel generalizing f waiting words opened with
  | zero => omega
  | succ fuel ih =>
    obtain ⟨code, implements⟩ := exists_implements accepted member
    refine implements.call_ends (fun ended => ∃ result, ended = .value result) (fun result => ⟨result, rfl⟩) ?_ length
    intro g listed inBody words opened fits
    have called : p.Calls f.name g.name := ⟨f, member, rfl, inBody⟩
    have unrecurring' : ¬p.Recurs g.name := fun recurs => unrecurring (recurs.of_callee called)
    have stack' := stack.enter member unrecurring called
    exact ih listed unrecurring' stack' (by simp only [List.length_cons]; omega) fits
      (stack'.length_lt listed unrecurring')

-- Every call of a body is made, so one that does not end keeps all before it from ending.
theorem call_ne_value_of_recurs (accepted : program moduleName p.node = .ok m) {supply : Supply}
    (recurs : p.Recurs name) : call m supply fuel name words opened ≠ .value result := by
  induction fuel generalizing name words opened result with
  | zero => nofun
  | succ fuel ih =>
    intro ended
    obtain ⟨callee, ⟨f, member, rfl, inBody⟩, recurs'⟩ := recurs.exists_callee
    obtain ⟨code, implements⟩ := exists_implements accepted member
    obtain ⟨words', opened', answer, ended'⟩ := implements.callee_value ended inBody
    exact ih recurs' ended'

-- The call graph decides whether a call ends, whatever the slots hold at first. Without a cycle it ends with a value,
-- and no deeper than there are functions. With a cycle it ends within no bound.
theorem termination_decided_by_calls {lines : List String} (accepted : lowerProgram moduleName lines p = .ok m)
    {f : Function} (member : f ∈ p.functions) {words : List Word} (length : words.length = f.arity)
    (contents : Nat → Word) (opened : Nat) :
    (¬p.Recurs f.name → ∃ result, ∀ fuel, p.functions.length ≤ fuel →
      call m (filledSlots contents) fuel f.name words opened = .value result) ∧
    (p.Recurs f.name → ∀ fuel, call m (filledSlots contents) fuel f.name words opened = .outOfFuel) ∧
    ∀ fuel, call m (filledSlots contents) fuel f.name words opened ≠ .stuck ∧
      call m (filledSlots contents) fuel f.name words opened ≠ .unassigned := by
  have made := mapError_eq_ok.mp accepted
  have moves (fuel : Nat) : call m (filledSlots contents) fuel f.name words opened ≠ .stuck ∧
      call m (filledSlots contents) fuel f.name words opened ≠ .unassigned := call_not_stuck made member length
  refine ⟨?_, ?_, moves⟩
  · intro unrecurring
    have start : Waiting p [] f.name := ⟨List.nodup_nil, List.nil_subset _, by simp⟩
    obtain ⟨result, ended⟩ : ∃ result,
        call m (filledSlots contents) p.functions.length f.name words opened = .value result :=
      call_value_of_not_recurs made member unrecurring start (Nat.le_refl _) length
    exact ⟨result, fun fuel enough => call_value_mono ended enough⟩
  · intro recurs fuel
    obtain ⟨unstuck, assigned⟩ := moves fuel
    cases ended : call m (filledSlots contents) fuel f.name words opened with
    | value result => exact absurd ended (call_ne_value_of_recurs made recurs)
    | outOfFuel => rfl
    | unassigned => exact absurd ended assigned
    | stuck => exact absurd ended unstuck

end

theorem shadowing_unrecurring : ¬Simulation.shadowing.Recurs (some "main") := by
  intro recurs
  obtain ⟨callee, ⟨f, member, named, called⟩, recurs⟩ := recurs.exists_callee
  have later : callee = some "later" := by
    simp only [Simulation.shadowing, List.mem_cons, List.not_mem_nil, or_false] at member
    rcases member with rfl | rfl
    · simp [Simulation.laterParameter] at named
    · simpa [Simulation.shadowingMain, Function.callees, Stmt.callees, Expr.callees, Expr.allCallees] using called
  subst later
  obtain ⟨callee, ⟨f, member, named, called⟩, -⟩ := recurs.exists_callee
  simp only [Simulation.shadowing, List.mem_cons, List.not_mem_nil, or_false] at member
  rcases member with rfl | rfl
  · simp [Simulation.laterParameter, Function.callees, Expr.callees, Expr.allCallees] at called
  · simp [Simulation.shadowingMain] at named

-- One function of `shadowing` calls the other, and the one of `collidingNames` calls itself.
theorem shadowing_ends_collidingNames_does_not :
    ∃ m m' result, lowerProgram "shadowing" [] Simulation.shadowing = .ok m ∧
      lowerProgram "rcc" [] collidingNames = .ok m' ∧
      call m (filledSlots (BitVec.ofNat 64)) 2 (some "main") [7] 0 = .value result ∧
      ∀ fuel, call m' (filledSlots (BitVec.ofNat 64)) fuel (some "sum") [1, 2, 3] 0 = .outOfFuel := by
  obtain ⟨m, accepted⟩ : ∃ m, lowerProgram "shadowing" [] Simulation.shadowing = .ok m :=
    isOk_iff.mp (by decide +kernel)
  obtain ⟨m', accepted'⟩ : ∃ m, lowerProgram "rcc" [] collidingNames = .ok m := isOk_iff.mp (by decide +kernel)
  have main : Simulation.shadowingMain ∈ Simulation.shadowing.functions := by simp [Simulation.shadowing]
  obtain ⟨ends, -, -⟩ := termination_decided_by_calls accepted main (rfl : ([7] : List Word).length = _)
    (BitVec.ofNat 64) 0
  obtain ⟨result, ended⟩ := ends shadowing_unrecurring
  obtain ⟨-, loops, -⟩ := termination_decided_by_calls accepted' List.mem_cons_self
    (rfl : ([1, 2, 3] : List Word).length = _) (BitVec.ofNat 64) 0
  have recurs : collidingNames.Recurs (some "sum") := by
    refine ⟨some "sum", .refl, .single ⟨_, List.mem_cons_self, rfl, ?_⟩⟩
    simp [Function.callees, Stmt.callees, Expr.callees, Expr.allCallees]
  exact ⟨m, m', result, accepted, accepted', ended 2 (Nat.le_refl 2), loops recurs⟩

end Lower

end WordC
