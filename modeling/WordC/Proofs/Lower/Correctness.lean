import WordC.Proofs.Lower.Simulation

namespace WordC.Lower.Simulation
open Machine (Called Frame emptySlots run)
open Meaning (Variables)
open Names (grows_skip)
open Typed

variable {call : Name → List Word → Nat → Called} {meaning : Name → List Word → Outcome Word}
  {table : Signatures} {slots : Slots} {names : Names} {vars : Variables} {frame : Frame} {opened : Nat}

theorem stmt_follows (agree : CallsAgree table call meaning) {s : Stmt}
    (lowered : stmt table names slots s = .ok (code, names', slots')) (holds : Holds slots names vars frame) :
    Follows call code frame opened (Holds slots' names') (Meaning.statement meaning vars s) := by
  cases s with
  | declare location typeName name =>
    simp only [stmt, Except.ok.injEq, Prod.mk.injEq] at lowered
    obtain ⟨rfl, rfl, rfl⟩ := lowered
    refine ⟨frame.setSlot (names.fresh name.text).1 none, opened + 1, holds.declare _ _ _, ?_⟩
    intro rest
    simp [run, emptySlots]
  | expression location value =>
    simp only [stmt, bind_eq_ok, pure, Except.pure, Except.ok.injEq, Prod.mk.injEq] at lowered
    obtain ⟨here, here_ok, rfl, rfl, rfl⟩ := lowered
    exact (expr_simulates agree value names here vars frame opened here_ok holds).map
      fun _ _ reached => reached.holds

theorem stmts_follow (agree : CallsAgree table call meaning) {ss : List Stmt}
    (lowered : stmts table names slots ss = .ok (code, names', slots')) (holds : Holds slots names vars frame) :
    Follows call code frame opened (Holds slots' names') (Meaning.statements meaning vars ss) := by
  induction ss generalizing names slots code vars frame opened with
  | nil =>
    cases lowered
    exact follows_nil holds
  | cons first rest ih =>
    simp only [stmts, bind_eq_ok, pure, Except.pure, Except.ok.injEq, Prod.mk.injEq] at lowered
    obtain ⟨⟨code, names, slots⟩, first_ok, ⟨more, last, final⟩, rest_ok, rfl, rfl, rfl⟩ := lowered
    refine (stmt_follows agree first_ok holds).andThen ?_
    intro vars later count held
    exact ih rest_ok held

-- Every parameter gets a slot with the argument that stands in its place.
theorem parameters_follow {listed : List Parameter} {arguments : List String} {words : List Word}
    (given : List.Forall₂ (fun argument word => frame.registers.lookup argument = some word) arguments words)
    (holds : Holds slots names vars frame) :
    Follows call (Typed.parameters names slots (listed.zip arguments)).1 frame opened
      (Holds (Typed.parameters names slots (listed.zip arguments)).2.2
        (Typed.parameters names slots (listed.zip arguments)).2.1)
      (.value (Meaning.bindParameters vars (listed.zip words))) := by
  induction listed generalizing arguments words names slots vars frame opened with
  | nil => exact follows_nil holds
  | cons parameter rest ih =>
    cases given with
    | nil => exact follows_nil holds
    | @cons argument word arguments words here later =>
      let slot := (names.fresh parameter.name.text).1
      have declared := holds.declare parameter.name parameter.name.text (some word)
      have still : List.Forall₂ (fun argument other =>
          (frame.setSlot slot (some word)).registers.lookup argument = some other) arguments words := later
      have continued : Follows call _ (frame.setSlot slot (some word)) (opened + 1) _ _ :=
        ih still (declared.grow (grows_skip _))
      have alloca : ∀ rest, run emptySlots call (.alloca slot :: rest) frame opened =
          run emptySlots call rest (frame.setSlot slot none) (opened + 1) := fun _ => rfl
      have store : ∀ rest, run emptySlots call (.store (.register argument) slot :: rest)
          (frame.setSlot slot none) (opened + 1) =
          run emptySlots call rest (frame.setSlot slot (some word)) (opened + 1) := by
        intro rest
        have there : (frame.setSlot slot none).operand (.register argument) = some word := here
        have empty : (frame.setSlot slot none).slots.lookup slot = some none := Bindings.lookup_bind_self _ _ _
        simp only [run, there, empty]
        simp [Frame.setSlot]
      exact .step alloca (.step store continued)

theorem lookup_bindAll {arguments : List String} {words : List Word} (name : String)
    (absent : name ∉ arguments) (registers : Bindings String Word) :
    ((arguments.zip words).foldl (fun registers (name, word) => registers.bind name word) registers).lookup
      name = registers.lookup name := by
  induction arguments generalizing words registers with
  | nil => rfl
  | cons argument rest ih =>
    cases words with
    | nil => rfl
    | cons word words =>
      simp only [List.mem_cons, not_or] at absent
      simp only [List.zip_cons_cons, List.foldl_cons, ih absent.2]
      exact Bindings.lookup_bind_other _ _ absent.1

-- Different arguments stand in different registers.
theorem entered_arguments {arguments : List String} {words : List Word} (distinct : arguments.Nodup)
    (length : words.length = arguments.length) :
    List.Forall₂ (fun argument word => (Frame.entered arguments words).registers.lookup argument = some word)
      arguments words := by
  unfold Frame.entered
  generalize (Bindings.empty : Bindings String Word) = registers
  induction arguments generalizing words registers with
  | nil =>
    cases words with
    | nil => exact .nil
    | cons => cases length
  | cons argument rest ih =>
    cases words with
    | nil => cases length
    | cons word words =>
      obtain ⟨absent, apart⟩ := List.nodup_cons.mp distinct
      refine .cons ?_ (ih apart (by simpa using length) _)
      simp only [List.zip_cons_cons, List.foldl_cons]
      rw [lookup_bindAll argument absent]
      exact Bindings.lookup_bind_self _ _ _

-- Code that follows an evaluation and returns its value ends as the evaluation does.
theorem Follows.answers {value : Operand} {outcome : Outcome Word}
    (follows : Follows call code frame opened (fun word later => later.operand value = some word) outcome) :
    Answers outcome (run emptySlots call (code ++ [.ret (some value)]) frame opened) := by
  cases outcome with
  | value word =>
    obtain ⟨later, count, there, reach⟩ := follows
    refine ⟨count, ?_⟩
    rw [reach]
    simp only [run, there]
  | unassigned => exact follows _
  | outOfFuel => exact follows _
  | stuck => exact follows

theorem body_answers (agree : CallsAgree table call meaning) {f : Function}
    (lowered : body table f = .ok instructions) (length : words.length = f.arity) :
    Answers (Meaning.function meaning f words)
      (run emptySlots call instructions (.entered (entryNames f.arity).1 words) opened) := by
  simp only [body, bind_eq_ok, pure, Except.pure, Except.ok.injEq] at lowered
  obtain ⟨⟨middle, names, slots⟩, middle_ok, last, last_ok, rfl⟩ := lowered
  have counted : (entryNames f.arity).1.length = f.arity := Names.freshList_length _ _ _
  have given := entered_arguments (Names.freshList_nodup Names.start "" f.arity)
    (length.trans counted.symm)
  have unheld : Holds .empty (entryNames f.arity).2.2 .empty (.entered (entryNames f.arity).1 words) := by
    refine ⟨?_, ?_, ?_⟩ <;> simp
  have entry := @parameters_follow call _ _ _ _ opened f.parameters _ _ given unheld
  refine Follows.answers ?_
  rw [Meaning.function, if_neg (by simp [length])]
  refine (entry.andThen fun _ _ _ held => stmts_follow agree middle_ok held).andThen ?_
  intro vars later count held
  exact (expr_simulates agree _ names last vars later count last_ok held).map fun _ _ reached => reached.value

theorem find?_lowered {fs : List Function} {codes : List Code} {lowers : Function → Code → Prop}
    (named : ∀ f code, lowers f code → code.name = f.name) (each : List.Forall₂ lowers fs codes)
    (found : (fs.find? fun f => f.name = name) = some f) :
    ∃ code, (codes.find? fun code => code.name = name) = some code ∧ lowers f code := by
  induction each with
  | nil => cases found
  | @cons first code rest codes here later ih =>
    have same := named first code here
    by_cases hit : first.name = name
    · obtain rfl : first = f := by simpa [hit] using found
      exact ⟨code, by simp [same, hit], here⟩
    · obtain ⟨other, there, made⟩ := ih (by simpa [hit] using found)
      exact ⟨other, by simpa [same, hit] using there, made⟩

theorem calls_agree {p : Program} {m : Module} (accepted : Lower.program moduleName p.node = .ok m)
    (fuel : Nat) :
    CallsAgree (p.functions.map signature) (Machine.call m emptySlots fuel) (Meaning.value p fuel) := by
  induction fuel with
  | zero => exact fun _ _ _ _ _ _ => rfl
  | succ fuel ih =>
    intro function declared words opened listed length
    rw [find?_signatures, Option.map_eq_some_iff] at listed
    obtain ⟨f, found, rfl⟩ := listed
    have lowered := (program_ok accepted).2
    obtain ⟨code, there, instructions, made, rfl⟩ := find?_lowered
      (by rintro f code ⟨_, _, rfl⟩; rfl) lowered found
    have inModule : m.find? function = some (coded f instructions) := there
    have inProgram : Meaning.find? p function = some f := found
    have fits : words.length = (coded f instructions).arity :=
      length.trans (Names.freshList_length _ _ _).symm
    simp only [Meaning.value, inProgram, Machine.call, inModule, fits, ne_eq, not_true, if_false]
    exact body_answers ih made length

theorem Answers.map_fst {outcome : Outcome Word} {called : Called} (answers : Answers outcome called) :
    called.map Prod.fst = outcome ∧ outcome ≠ .stuck := by
  cases outcome with
  | value word =>
    obtain ⟨opened, rfl⟩ := answers
    exact ⟨rfl, nofun⟩
  | unassigned | outOfFuel =>
    obtain rfl : called = _ := answers
    exact ⟨rfl, nofun⟩
  | stuck => exact answers.elim

-- The code of a function has the value of its tree. It stops at a variable without a value where the tree
-- does, and runs out of fuel where the tree does; there is no other end.
theorem lowered_value_eq_meaning {moduleName : String} {p : Program} {m : Module}
    (accepted : Lower.program moduleName p.node = .ok m) {f : Function} (member : f ∈ p.functions)
    (words : List Word) (length : words.length = f.arity) (fuel : Nat) :
    Meaning.find? p f.name = some f ∧
      Machine.value m fuel f.name words = Meaning.value p fuel f.name words ∧
      Meaning.value p fuel f.name words ≠ .stuck := by
  have inProgram := find?_of_mem (program_ok accepted).1 member
  have listed : Signatures.find? (p.functions.map signature) f.name = some (signature f) := by
    rw [find?_signatures, inProgram]
    rfl
  exact ⟨inProgram, (calls_agree accepted fuel _ _ words 0 listed length).map_fst⟩

-- `int later(int a, int a) { return a = a + a; }`
def laterParameter : Function :=
  { location := none
    name := some "later"
    returnType := some "int"
    parameters := [⟨none, some "a", some "int"⟩, ⟨none, some "a", some "int"⟩]
    statements := []
    result := ⟨none, .chain none .assign [.var none (some "a"),
      .chain none .sum [.var none (some "a"), .var none (some "a")]]⟩ }

-- `int main(int x) { int y; int x; x = y = 5; int y; y = 2; return x + later(y, x = y * 3) + x; }`
def shadowingMain : Function :=
  { location := none
    name := some "main"
    returnType := some "int"
    parameters := [⟨none, some "x", some "int"⟩]
    statements :=
      [.declare none (some "int") (some "y"), .declare none (some "int") (some "x"),
        .expression none (.chain none .assign
          [.var none (some "x"), .var none (some "y"), .number none (some 5)]),
        .declare none (some "int") (some "y"),
        .expression none (.chain none .assign [.var none (some "y"), .number none (some 2)])]
    result := ⟨none, .chain none .sum
      [.var none (some "x"),
        .call none (some "later") [.var none (some "y"), .chain none .assign
          [.var none (some "x"), .chain none .product [.var none (some "y"), .number none (some 3)]]],
        .var none (some "x")]⟩ }

def shadowing : Program := ⟨none, [laterParameter, shadowingMain]⟩

theorem shadowing_value :
    ∃ m, Lower.program "shadowing" shadowing.node = .ok m ∧
      Machine.value m 2 (some "main") [7] = .value 23 := by
  have accepted : (Lower.program "shadowing" shadowing.node).isOk = true := by decide +kernel
  cases made : Lower.program "shadowing" shadowing.node with
  | error rejection =>
    rw [made] at accepted
    cases accepted
  | ok m =>
    have member : shadowingMain ∈ shadowing.functions := by simp [shadowing]
    obtain ⟨_, same, _⟩ := lowered_value_eq_meaning made member [7] rfl 2
    have value : Meaning.value shadowing 2 (some "main") [7] = .value 23 := by decide +kernel
    exact ⟨m, rfl, same.trans value⟩

end WordC.Lower.Simulation
