import WordC.Bindings
import WordC.Module

namespace WordC

abbrev Word := BitVec 64

-- How an evaluation ends: with a value, at a variable that was never assigned, at the bound on the depth of
-- calls, or at something that has no meaning.
inductive Outcome (α : Type) where
  | value (result : α)
  | unassigned
  | outOfFuel
  | stuck
deriving DecidableEq, Repr

namespace Outcome

def map (f : α → β) : Outcome α → Outcome β
  | .value result => .value (f result)
  | .unassigned => .unassigned
  | .outOfFuel => .outOfFuel
  | .stuck => .stuck

def andThen (outcome : Outcome α) (next : α → Outcome β) : Outcome β :=
  match outcome with
  | .value result => next result
  | .unassigned => .unassigned
  | .outOfFuel => .outOfFuel
  | .stuck => .stuck

end Outcome

namespace Machine

-- What one call of a function holds: the results of its instructions so far, and its slots. A slot that has
-- not been stored to holds whatever it was opened with.
structure Frame where
  registers : Bindings String Word
  slots : Bindings String (Option Word)
deriving Repr

def Frame.operand (frame : Frame) : Operand → Option Word
  | .constant value => some (BitVec.ofInt 64 value)
  | .register name => frame.registers.lookup name

def Frame.setRegister (frame : Frame) (name : String) (word : Word) : Frame :=
  { frame with registers := frame.registers.bind name word }

def Frame.setSlot (frame : Frame) (name : String) (content : Option Word) : Frame :=
  { frame with slots := frame.slots.bind name content }

def combine : Arith → Word → Word → Word
  | .add, a, b => a + b
  | .mul, a, b => a * b

-- Slots are not cleared when they are opened. The contents of the slots of a whole run come from a supply,
-- slot by slot; a supply that gives none makes a read before the first store visible as such.
abbrev Supply := Nat → Option Word

-- The result of a call, with the number of slots opened so far.
abbrev Called := Outcome (Word × Nat)

-- Run the instructions of one function. Calls are handed to `call`.
def run (supply : Supply) (call : Name → List Word → Nat → Called) :
    List Instr → Frame → Nat → Called
  | [], _, _ => .stuck
  | .alloca result :: rest, frame, opened =>
    run supply call rest (frame.setSlot result (supply opened)) (opened + 1)
  | .store value slot :: rest, frame, opened =>
    match frame.operand value, frame.slots.lookup slot with
    | some word, some _ => run supply call rest (frame.setSlot slot (some word)) opened
    | _, _ => .stuck
  | .load result slot :: rest, frame, opened =>
    match frame.slots.lookup slot with
    | none => .stuck
    | some none => .unassigned
    | some (some word) => run supply call rest (frame.setRegister result word) opened
  | .arith op result left right :: rest, frame, opened =>
    match frame.operand left, frame.operand right with
    | some a, some b => run supply call rest (frame.setRegister result (combine op a b)) opened
    | _, _ => .stuck
  | .call result function arguments :: rest, frame, opened =>
    match arguments.mapM frame.operand with
    | none => .stuck
    | some words =>
      match call function words opened with
      | .value (word, opened) => run supply call rest (frame.setRegister result word) opened
      | .unassigned => .unassigned
      | .outOfFuel => .outOfFuel
      | .stuck => .stuck
  | .ret none :: _, _, _ => .stuck
  | .ret (some value) :: _, frame, opened =>
    match frame.operand value with
    | none => .stuck
    | some word => .value (word, opened)

def Frame.entered (arguments : List String) (words : List Word) : Frame :=
  ⟨(arguments.zip words).foldl (fun registers (name, word) => registers.bind name word) .empty, .empty⟩

-- Call a function of a module, at most `fuel` calls deep.
def call (m : Module) (supply : Supply) : (fuel : Nat) → Name → List Word → Nat → Called
  | 0, _, _, _ => .outOfFuel
  | fuel + 1, function, words, opened =>
    match m.find? function with
    | none => .stuck
    | some code =>
      if words.length ≠ code.arity then .stuck
      else run supply (call m supply fuel) code.body (.entered code.arguments words) opened

def emptySlots : Supply := fun _ => none

def value (m : Module) (fuel : Nat) (function : Name) (words : List Word) : Outcome Word :=
  (call m emptySlots fuel function words 0).map Prod.fst

end Machine

end WordC
