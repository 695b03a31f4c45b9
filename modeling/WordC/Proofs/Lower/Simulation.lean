import WordC.Proofs.Lower.Supply
import WordC.Tree.Meaning

namespace WordC.Lower.Simulation
open Machine (Called Frame emptySlots run)
open Meaning (Variables)
open Names (Grows fresh_free grows_fresh grows_skip)
open Typed

variable {call : Name → List Word → Nat → Called} {meaning : Name → List Word → Outcome Word}
  {table : Signatures} {slots : Slots} {names : Names} {vars : Variables} {frame : Frame} {opened : Nat}

-- Code follows an evaluation: where the evaluation has a value, control reaches the end of the code in a
-- frame that fits it, and where it ends early, so does the code, whatever comes next. Nothing follows an
-- evaluation without a meaning.
def Follows (call : Name → List Word → Nat → Called) (code : List Instr) (frame : Frame) (opened : Nat)
    (fits : α → Frame → Prop) : Outcome α → Prop
  | .value result => ∃ later count, fits result later ∧
      ∀ rest, run emptySlots call (code ++ rest) frame opened = run emptySlots call rest later count
  | .unassigned => ∀ rest, run emptySlots call (code ++ rest) frame opened = .unassigned
  | .outOfFuel => ∀ rest, run emptySlots call (code ++ rest) frame opened = .outOfFuel
  | .stuck => False

theorem follows_nil {fits : α → Frame → Prop} {result : α} (fit : fits result frame) :
    Follows call [] frame opened fits (.value result) :=
  ⟨frame, opened, fit, fun _ => rfl⟩

theorem Follows.andThen {fits : α → Frame → Prop} {fits' : β → Frame → Prop} {outcome : Outcome α}
    {next : α → Outcome β} (first : Follows call code frame opened fits outcome)
    (second : ∀ result later count, fits result later →
      Follows call code' later count fits' (next result)) :
    Follows call (code ++ code') frame opened fits' (outcome.andThen next) := by
  cases outcome with
  | value result =>
    obtain ⟨later, count, fit, reach⟩ := first
    have continued := second result later count fit
    simp only [Outcome.andThen]
    cases ended : next result with
    | value final =>
      rw [ended] at continued
      obtain ⟨last, count', fit', reach'⟩ := continued
      refine ⟨last, count', fit', fun rest => ?_⟩
      rw [List.append_assoc, reach, reach']
    | unassigned | outOfFuel =>
      rw [ended] at continued
      intro rest
      rw [List.append_assoc, reach, continued]
    | stuck =>
      rw [ended] at continued
      exact continued
  | unassigned | outOfFuel =>
    intro rest
    rw [List.append_assoc, first]
  | stuck => exact first

theorem map_eq_andThen (outcome : Outcome α) (change : α → β) :
    outcome.map change = outcome.andThen fun result => .value (change result) := by
  cases outcome <;> rfl

theorem Follows.map {fits : α → Frame → Prop} {fits' : β → Frame → Prop} {outcome : Outcome α}
    {change : α → β} (first : Follows call code frame opened fits outcome)
    (fit : ∀ result later, fits result later → fits' (change result) later) :
    Follows call code frame opened fits' (outcome.map change) := by
  cases outcome with
  | value result =>
    obtain ⟨later, count, fits, reach⟩ := first
    exact ⟨later, count, fit _ _ fits, reach⟩
  | unassigned => exact first
  | outOfFuel => exact first
  | stuck => exact first

theorem Follows.imp {fits fits' : α → Frame → Prop} {outcome : Outcome α}
    (first : Follows call code frame opened fits outcome)
    (weaker : ∀ result later, fits result later → fits' result later) :
    Follows call code frame opened fits' outcome := by
  cases outcome with
  | value result =>
    obtain ⟨later, count, fit, reach⟩ := first
    exact ⟨later, count, weaker _ _ fit, reach⟩
  | unassigned => exact first
  | outOfFuel => exact first
  | stuck => exact first

-- One instruction, and then the code that follows the rest of the evaluation.
theorem Follows.step {fits : α → Frame → Prop} {outcome : Outcome α} {instruction : Instr}
    (taken : ∀ rest, run emptySlots call (instruction :: rest) frame opened =
      run emptySlots call rest later count)
    (continued : Follows call code later count fits outcome) :
    Follows call (instruction :: code) frame opened fits outcome := by
  cases outcome with
  | value result =>
    obtain ⟨last, count', fit, reach⟩ := continued
    exact ⟨last, count', fit, fun rest => (taken _).trans (reach rest)⟩
  | unassigned => exact fun rest => (taken _).trans (continued rest)
  | outOfFuel => exact fun rest => (taken _).trans (continued rest)
  | stuck => exact continued

-- The slots of a function hold what its variables hold. Different variables have different slots.
structure Holds (slots : Slots) (names : Names) (vars : Variables) (frame : Frame) : Prop where
  content : ∀ name slot, slots.lookup name = some slot →
    ∃ held, vars.lookup name = some held ∧ frame.slots.lookup slot = some held
  apart : ∀ a b slot, slots.lookup a = some slot → slots.lookup b = some slot → a = b
  used : ∀ name slot, slots.lookup name = some slot → slot ∈ names.used

theorem Holds.grow (holds : Holds slots names vars frame) (grows : Grows names more) :
    Holds slots more vars frame :=
  ⟨holds.content, holds.apart, fun name slot bound => grows (holds.used name slot bound)⟩

theorem Holds.setRegister (holds : Holds slots names vars frame) (name : String) (word : Word) :
    Holds slots names vars (frame.setRegister name word) :=
  ⟨holds.content, holds.apart, holds.used⟩

theorem Holds.store (holds : Holds slots names vars frame) (bound : slots.lookup name = some slot)
    (word : Word) :
    Holds slots names (vars.bind name (some word)) (frame.setSlot slot (some word)) := by
  refine ⟨?_, holds.apart, holds.used⟩
  intro other place found
  by_cases same : other = name
  · subst other
    obtain rfl : place = slot := by simpa [bound] using found.symm
    exact ⟨some word, by simp, by simp [Frame.setSlot]⟩
  · have elsewhere : place ≠ slot := by
      rintro rfl
      exact same (holds.apart _ _ _ found bound)
    obtain ⟨held, inVars, inSlot⟩ := holds.content other place found
    refine ⟨held, ?_, ?_⟩
    · rwa [Bindings.lookup_bind_other _ _ same]
    · simpa [Frame.setSlot, Bindings.lookup_bind_other _ _ elsewhere] using inSlot

-- A declared variable gets a slot that no other variable has.
theorem Holds.declare (holds : Holds slots names vars frame) (name : Name) (hint : String)
    (held : Option Word) :
    Holds (slots.bind name (names.fresh hint).1) (names.fresh hint).2 (vars.bind name held)
      (frame.setSlot (names.fresh hint).1 held) := by
  have unbound : ∀ other, slots.lookup other ≠ some (names.fresh hint).1 := by
    intro other found
    exact fresh_free names hint (holds.used _ _ found)
  refine ⟨?_, ?_, ?_⟩
  · intro other place found
    by_cases same : other = name
    · subst other
      obtain rfl : (names.fresh hint).1 = place := by simpa using found
      exact ⟨held, by simp, by simp [Frame.setSlot]⟩
    · rw [Bindings.lookup_bind_other _ _ same] at found
      obtain ⟨old, inVars, inSlot⟩ := holds.content other place found
      have elsewhere : place ≠ (names.fresh hint).1 := by
        rintro rfl
        exact unbound other found
      refine ⟨old, ?_, ?_⟩
      · rwa [Bindings.lookup_bind_other _ _ same]
      · simpa [Frame.setSlot, Bindings.lookup_bind_other _ _ elsewhere] using inSlot
  · intro a b place first second
    by_cases isA : a = name <;> by_cases isB : b = name
    · rw [isA, isB]
    · subst a
      rw [Bindings.lookup_bind_other _ _ isB] at second
      obtain rfl : (names.fresh hint).1 = place := by simpa using first
      exact absurd second (unbound b)
    · subst b
      rw [Bindings.lookup_bind_other _ _ isA] at first
      obtain rfl : (names.fresh hint).1 = place := by simpa using second
      exact absurd first (unbound a)
    · rw [Bindings.lookup_bind_other _ _ isA] at first
      rw [Bindings.lookup_bind_other _ _ isB] at second
      exact holds.apart a b place first second
  · intro other place found
    by_cases same : other = name
    · subst other
      obtain rfl : (names.fresh hint).1 = place := by simpa using found
      simp
    · rw [Bindings.lookup_bind_other _ _ same] at found
      exact grows_fresh names hint (holds.used _ _ found)

-- Registers that had a name before are not written to again.
def Keeps (names : Names) (before after : Frame) : Prop :=
  ∀ name ∈ names.used, after.registers.lookup name = before.registers.lookup name

theorem Keeps.refl (names : Names) (frame : Frame) : Keeps names frame frame := fun _ _ => rfl

theorem Keeps.trans (grows : Grows names more) (first : Keeps names before middle)
    (second : Keeps more middle after) : Keeps names before after := by
  intro name used
  rw [second name (grows used), first name used]

theorem Keeps.operand (keeps : Keeps names before after) (known : Known names value) :
    after.operand value = before.operand value := by
  cases value with
  | constant => rfl
  | register name => exact keeps name known

theorem keeps_setRegister (frame : Frame) (names : Names) (hint : String) (word : Word) :
    Keeps names frame (frame.setRegister (names.fresh hint).1 word) := by
  intro name used
  refine Bindings.lookup_bind_other _ _ ?_
  rintro rfl
  exact fresh_free names hint used

@[simp] theorem operand_setRegister (frame : Frame) (name : String) (word : Word) :
    (frame.setRegister name word).operand (.register name) = some word :=
  Bindings.lookup_bind_self _ _ _

@[simp] theorem operand_setSlot (frame : Frame) (slot : String) (held : Option Word) (value : Operand) :
    (frame.setSlot slot held).operand value = frame.operand value := by
  cases value <;> rfl

-- Where an evaluation stands after the code of an expression: the variables are held, the value is there,
-- and what was there before is still there.
structure Reached (slots : Slots) (names : Names) (frame : Frame) (out : Emitted Operand)
    (result : Word × Variables) (later : Frame) : Prop where
  holds : Holds slots out.names result.2 later
  value : later.operand out.value = some result.1
  keeps : Keeps names frame later

-- Called functions end as they should, and never without a meaning.
def Answers : Outcome Word → Called → Prop
  | .value word, called => ∃ opened, called = .value (word, opened)
  | .unassigned, called => called = .unassigned
  | .outOfFuel, called => called = .outOfFuel
  | .stuck, _ => False

def CallsAgree (table : Signatures) (call : Name → List Word → Nat → Called)
    (meaning : Name → List Word → Outcome Word) : Prop :=
  ∀ function signature words opened, table.find? function = some signature →
    words.length = signature.arity → Answers (meaning function words) (call function words opened)

def Simulates (table : Signatures) (slots : Slots) (call : Name → List Word → Nat → Called)
    (meaning : Name → List Word → Outcome Word) (e : Expr) : Prop :=
  ∀ names out vars frame opened, expr table slots e names = .ok out → Holds slots names vars frame →
    Follows call out.code frame opened (Reached slots names frame out) (Meaning.expression meaning e vars)

theorem ofInt_signedLiteral (value : Int) : BitVec.ofInt 64 (signedLiteral value) = BitVec.ofInt 64 value := by
  unfold signedLiteral
  split
  · have whole : BitVec.ofInt 64 (-0x10000000000000000) = 0#64 := by decide
    rw [Int.sub_eq_add_neg, BitVec.ofInt_add, whole, BitVec.add_zero]
  · rfl

theorem exprs_simulates {es : List Expr} (each : ∀ e ∈ es, Simulates table slots call meaning e) :
    ∀ names out vars frame opened, exprs table slots es names = .ok out → Holds slots names vars frame →
      Follows call out.code frame opened
        (fun (words, vars) later => Holds slots out.names vars later ∧
          out.value.mapM later.operand = some words ∧ words.length = es.length ∧ Keeps names frame later)
        (Meaning.expressions meaning es vars) := by
  induction es with
  | nil =>
    intro names out vars frame opened lowered holds
    cases lowered
    exact follows_nil ⟨holds, rfl, rfl, .refl _ _⟩
  | cons first rest ih =>
    intro names out vars frame opened lowered holds
    simp only [exprs, bind_eq_ok, pure, Except.pure, Except.ok.injEq] at lowered
    obtain ⟨here, first_ok, more, rest_ok, rfl⟩ := lowered
    obtain ⟨grows, known⟩ := expr_supplies first names here first_ok
    refine (each first (by simp) names here vars frame opened first_ok holds).andThen ?_
    rintro ⟨word, vars⟩ later count reached
    refine (ih (fun e member => each e (by simp [member])) here.names more vars later count rest_ok
      reached.holds).map ?_
    rintro ⟨words, vars⟩ last ⟨holds, values, length, keeps⟩
    have value : last.operand here.value = some word := (keeps.operand known).trans reached.value
    refine ⟨holds, ?_, by simp [length], reached.keeps.trans grows keeps⟩
    simp [List.mapM_cons, value, values]

theorem fold_simulates {op : Arith} {es : List Expr}
    (each : ∀ e ∈ es, Simulates table slots call meaning e) :
    ∀ operand reached names out vars frame opened,
      Typed.fold table slots op operand es names = .ok out → Known names operand →
      frame.operand operand = some reached → Holds slots names vars frame →
      Follows call out.code frame opened (Reached slots names frame out)
        (Meaning.fold meaning (Machine.combine op) reached es vars) := by
  induction es with
  | nil =>
    intro operand reached names out vars frame opened lowered known value holds
    cases lowered
    exact follows_nil ⟨holds, value, .refl _ _⟩
  | cons first rest ih =>
    intro operand reached names out vars frame opened lowered known value holds
    simp only [Typed.fold, bind_eq_ok, pure, Except.pure, Except.ok.injEq] at lowered
    obtain ⟨here, first_ok, more, rest_ok, rfl⟩ := lowered
    have grows := (expr_supplies first names here first_ok).1
    refine (each first (by simp) names here vars frame opened first_ok holds).andThen ?_
    rintro ⟨word, vars⟩ later count ⟨held, right, keeps⟩
    have left : later.operand operand = some reached := (keeps.operand known).trans value
    let joined := later.setRegister (here.names.fresh (joinHint op)).1 (Machine.combine op reached word)
    have kept : Keeps names frame joined := keeps.trans grows (keeps_setRegister later here.names _ _)
    have continued := ih (fun e member => each e (by simp [member])) _ (Machine.combine op reached word)
      _ more vars joined count rest_ok (by simp [Known]) (operand_setRegister _ _ _)
      ((held.grow (grows_fresh _ _)).setRegister _ _)
    refine Follows.step ?_ (continued.imp ?_)
    · intro rest
      simp only [run, left, right]
      rfl
    · rintro result last ⟨held, value, keeps⟩
      exact ⟨held, value, kept.trans (grows.trans (grows_fresh _ _)) keeps⟩

-- One value is stored in all targets.
theorem stores_follow {value : Operand} {word : Word} {targets : List Name} {places : List String}
    (bound : List.Forall₂ (fun name slot => slots.lookup name = some slot) targets places) :
    ∀ names vars frame opened, frame.operand value = some word → Holds slots names vars frame →
      Follows call (storeAll value places names).1 frame opened
        (fun vars later => Holds slots (storeAll value places names).2 vars later ∧
          later.registers = frame.registers)
        (.value (Meaning.assignAll vars targets word)) := by
  induction bound with
  | nil =>
    intro names vars frame opened there holds
    exact follows_nil ⟨holds, rfl⟩
  | @cons name slot targets places here _ ih =>
    intro names vars frame opened there holds
    obtain ⟨held, _, inSlot⟩ := holds.content _ _ here
    have stored := (holds.store here word).grow (grows_skip names)
    have still : (frame.setSlot slot (some word)).operand value = some word :=
      (operand_setSlot frame slot _ value).trans there
    refine Follows.step ?_ (ih names.skip _ (frame.setSlot slot (some word)) opened still stored)
    intro rest
    simp only [run, there, inSlot]

theorem assign_simulates {es : List Expr} (each : ∀ e ∈ es, Simulates table slots call meaning e) :
    ∀ targets places names out vars frame opened,
      List.Forall₂ (fun name slot => slots.lookup name = some slot) targets places →
      Typed.assign table slots places es names = .ok out → Holds slots names vars frame →
      Follows call out.code frame opened (Reached slots names frame out)
        (Meaning.assign meaning targets es vars) := by
  induction es with
  | nil =>
    intro targets places names out vars frame opened bound lowered
    cases lowered
  | cons first rest ih =>
    intro targets places names out vars frame opened bound lowered holds
    cases rest with
    | nil =>
      simp only [Typed.assign, bind_eq_ok, pure, Except.pure, Except.ok.injEq] at lowered
      obtain ⟨here, first_ok, rfl⟩ := lowered
      rw [Meaning.assign, map_eq_andThen]
      refine (each first (by simp) names here vars frame opened first_ok holds).andThen ?_
      rintro ⟨word, vars⟩ later count ⟨held, value, keeps⟩
      obtain ⟨last, count', ⟨final, same⟩, reach⟩ :=
        @stores_follow call slots here.value word targets places bound here.names vars later count value held
      have kept : Keeps names frame last := fun name used => by rw [same, keeps name used]
      have there : last.operand here.value = some word := by
        rw [← value]
        cases here.value with
        | constant => rfl
        | register name => exact congrArg (Bindings.lookup · name) same
      exact ⟨last, count', ⟨final, there, kept⟩, reach⟩
    | cons next rest =>
      cases first with
      | var location name =>
        simp only [Typed.assign, bind_eq_ok] at lowered
        obtain ⟨slot, found, rest_ok⟩ := lowered
        have place := slotOf_ok found
        obtain ⟨held, inVars, _⟩ := holds.content _ _ place
        have there : vars.contains name = true := by simp [Bindings.contains, inVars]
        simp only [Meaning.assign, there, if_true]
        exact ih (fun e member => each e (by simp [member])) (name :: targets) (slot :: places) names out vars
          frame opened (.cons place bound) rest_ok holds
      | number location value => cases lowered
      | call location function arguments => cases lowered
      | chain location tier operands => cases lowered

-- A call is made once all its arguments are there. It leaves the variables of the caller alone.
theorem call_follows {function : Name} {values : List Operand} {words : List Word}
    (agree : Answers (meaning function words) (call function words opened))
    (given : values.mapM frame.operand = some words) (holds : Holds slots names vars frame) :
    Follows call [.call (names.fresh "call").1 function values] frame opened
      (Reached slots names frame
        ⟨[], .register (names.fresh "call").1, (names.fresh "call").2⟩)
      ((meaning function words).map fun word => (word, vars)) := by
  cases outcome : meaning function words with
  | value word =>
    rw [outcome] at agree
    obtain ⟨count, called⟩ := agree
    refine ⟨frame.setRegister (names.fresh "call").1 word, count, ⟨?_, ?_, ?_⟩, ?_⟩
    · exact (holds.grow (grows_fresh _ _)).setRegister _ _
    · exact operand_setRegister _ _ _
    · exact keeps_setRegister _ _ _ _
    · intro rest
      simp [run, given, called]
  | unassigned | outOfFuel =>
    rw [outcome] at agree
    have called : call function words opened = _ := agree
    intro rest
    simp [run, given, called]
  | stuck =>
    rw [outcome] at agree
    exact agree

theorem expr_simulates (agree : CallsAgree table call meaning) (e : Expr) :
    Simulates table slots call meaning e := by
  induction e with
  | number location value =>
    intro names out vars frame opened lowered holds
    cases value with
    | none => cases lowered
    | some value =>
      cases lowered
      exact follows_nil ⟨holds, congrArg some (ofInt_signedLiteral value), .refl _ _⟩
  | var location name =>
    intro names out vars frame opened lowered holds
    simp only [expr, bind_eq_ok, pure, Except.pure, Except.ok.injEq] at lowered
    obtain ⟨slot, found, rfl⟩ := lowered
    obtain ⟨held, inVars, inSlot⟩ := holds.content _ _ (slotOf_ok found)
    simp only [Meaning.expression, inVars]
    cases held with
    | none => exact fun rest => by simp [run, inSlot]
    | some word =>
      refine ⟨frame.setRegister (names.fresh name.text).1 word, opened, ⟨?_, ?_, ?_⟩, ?_⟩
      · exact (holds.grow (grows_fresh _ _)).setRegister _ _
      · exact operand_setRegister _ _ _
      · exact keeps_setRegister _ _ _ _
      · intro rest
        simp [run, inSlot]
  | call location function arguments each =>
    intro names out vars frame opened lowered holds
    simp only [expr] at lowered
    split at lowered
    · cases lowered
    · rename_i signature found
      split at lowered
      · cases lowered
      · rename_i count
        simp only [bind_eq_ok, pure, Except.pure, Except.ok.injEq] at lowered
        obtain ⟨given, all_ok, rfl⟩ := lowered
        have grows := (exprs_supplies (fun e _ => expr_supplies e) names given all_ok).1
        refine (exprs_simulates each names given vars frame opened all_ok holds).andThen ?_
        rintro ⟨words, vars⟩ later opened ⟨held, values, length, keeps⟩
        have fits : words.length = signature.arity := length.trans (by simpa using count)
        refine (call_follows (agree _ _ _ _ found fits) values held).imp ?_
        rintro result last ⟨final, value, kept⟩
        exact ⟨final, value, keeps.trans grows kept⟩
  | chain location tier operands each =>
    intro names out vars frame opened lowered holds
    cases tier with
    | sum => exact fold_simulates each (.constant 0) 0 names out vars frame opened lowered trivial rfl holds
    | product => exact fold_simulates each (.constant 1) 1 names out vars frame opened lowered trivial rfl holds
    | assign => exact assign_simulates each [] [] names out vars frame opened .nil lowered holds

end WordC.Lower.Simulation
