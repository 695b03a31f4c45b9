import WordC.Assembly.Source
import WordC.Module.Machine

namespace WordC.Assembly

-- What a register or a place in memory holds. Places in memory are counted.
inductive Held where
  | word (bits : Nat) (value : Nat)
  | place (n : Nat)
  | nothing

-- What a run of a function sees: its registers, the memory, and where the globals are in it.
structure Frame where
  registers : Bindings Id Held
  memory : List Held
  globals : List Id

namespace Machine

def wrap (bits : Nat) (value : Int) : Held := .word bits (value % (1 <<< bits : Nat)).toNat

def signed (bits value : Nat) : Int := if value < 1 <<< (bits - 1) then value else (value : Int) - (1 <<< bits : Nat)

def constant : Ty → Value → Held
  | .int bits, .number value => wrap bits value
  | _, .truth value => .word 1 value.toNat
  | .int bits, .zero => .word bits 0
  | _, _ => .nothing

def operand (frame : Frame) (given : Typed) : Held :=
  match given.value with
  | .register id => (frame.registers.lookup id).getD .nothing
  | .global id => ((frame.globals.findIdx? (· = id)).map Held.place).getD .nothing
  | value => constant given.type value

def binary (op : String) (bits a b : Nat) : Option Int :=
  let divided (value : Int) : Option Int := if b = 0 then none else some value
  let shifted (value : Int) : Option Int := if bits ≤ b then none else some value
  match op with
  | "add" => some (a + b)
  | "sub" => some (a - b)
  | "mul" => some (a * b)
  | "and" => some (a &&& b : Nat)
  | "or" => some (a ||| b : Nat)
  | "xor" => some (a ^^^ b : Nat)
  | "udiv" => divided (a / b : Nat)
  | "urem" => divided (a % b : Nat)
  | "sdiv" => divided ((signed bits a).tdiv (signed bits b))
  | "srem" => divided ((signed bits a).tmod (signed bits b))
  | "shl" => shifted (a <<< b : Nat)
  | "lshr" => shifted (a >>> b : Nat)
  | "ashr" => shifted (signed bits a >>> b)
  | _ => none

def compare (relation : String) (bits a b : Nat) : Bool :=
  let (x, y) := (signed bits a, signed bits b)
  match relation with
  | "eq" => a = b
  | "ne" => a ≠ b
  | "ugt" => b < a
  | "uge" => b ≤ a
  | "ult" => a < b
  | "ule" => a ≤ b
  | "sgt" => y < x
  | "sge" => y ≤ x
  | "slt" => x < y
  | _ => x ≤ y

def cast (op : String) (bits a target : Nat) : Held :=
  wrap target (if op = "sext" then signed bits a else a)

-- What a step yields that touches neither memory nor other functions.
def pure? (step : Step) (given : List Held) : Option Held :=
  match step.act, given, step.type with
  | .binary op, [.word bits a, .word _ b], _ => (binary op bits a b).map (wrap bits)
  | .compare relation, [.word bits a, .word _ b], _ => some (.word 1 (compare relation bits a b).toNat)
  | .cast op, [.word bits a], .int target => some (cast op bits a target)
  | .select, [.word _ condition, yes, no], _ => some (if condition = 0 then no else yes)
  | .freeze, [held], _ => some held
  | _, _, _ => none

def Frame.set (frame : Frame) (id : Option Id) (held : Held) : Frame :=
  match id with
  | none => frame
  | some id => { frame with registers := frame.registers.bind id held }

def entered (parameters : List (Id × Ty)) (given : List Held) (frame : Frame) : Frame :=
  { frame with registers :=
      (parameters.zip given).foldl (fun registers (parameter, held) => registers.bind parameter.1 held) .empty }

-- The block that a step leads to.
def target? (act : Act) (given : List Held) : Option Id :=
  match act, given with
  | .jump [only], _ => some only
  | .jump [yes, no], [.word _ condition] => some (if condition = 0 then no else yes)
  | .choose usual cases, [.word _ value] => some ((cases.find? fun (n, _) => n = value).map Prod.snd |>.getD usual)
  | _, _ => none

-- Enter a block from another one. All merged values are taken before any of them is set.
def merged (frame : Frame) (from_ : Id) (block : Block) : Frame :=
  let found := block.steps.filterMap fun step => match step.act with
    | .phi sources =>
      ((sources.zip step.operands).find? fun entry => entry.1 = from_).map fun entry =>
        (step.result, operand frame entry.2)
    | _ => none
  found.foldl (fun frame (result, held) => Frame.set frame result held) frame

def afterMerging (block : Block) : List Step := block.steps.dropWhile fun step => step.act.isPhi

def callee? (source : Source) : List Typed → Option Routine
  | ⟨_, .global id⟩ :: _ => source.routine? id
  | _ => none

-- Run the steps of a block of a function, at most so many in all. The result goes with the memory it leaves.
def run (source : Source) : (fuel : Nat) → Routine → Id → List Step → Frame → Outcome (Held × List Held)
  | 0, _, _, _, _ => .outOfFuel
  | _, _, _, [], _ => .stuck
  | fuel + 1, routine, label, step :: rest, frame =>
    let given := step.operands.map (operand frame)
    match step.act, given with
    | .ret, [] => .value (.nothing, frame.memory)
    | .ret, held :: _ => .value (held, frame.memory)
    | .jump _, _ | .choose _ _, _ =>
      match routine.blocks.find? fun block => some block.label = target? step.act given with
      | none => .stuck
      | some block => run source fuel routine block.label (afterMerging block) (merged frame label block)
    | .slot, _ =>
      let opened := { frame with memory := frame.memory ++ [.nothing] }
      run source fuel routine label rest (Frame.set opened step.result (.place frame.memory.length))
    | .load, [.place n] =>
      run source fuel routine label rest (Frame.set frame step.result (frame.memory[n]?.getD .nothing))
    | .store, [held, .place n] =>
      run source fuel routine label rest { frame with memory := frame.memory.set n held }
    | .call _, _ :: arguments =>
      match (callee? source step.operands).bind fun called => called.blocks.head?.map fun block => (called, block) with
      | none => .stuck
      | some (called, block) =>
        match run source fuel called block.label block.steps (entered called.parameters arguments frame) with
        | .value (held, memory) =>
          run source fuel routine label rest (Frame.set { frame with memory } step.result held)
        | other => other
    | _, _ =>
      match pure? step given with
      | none => .stuck
      | some held => run source fuel routine label rest (Frame.set frame step.result held)

-- The memory before anything runs: the first values of the global variables.
def started (source : Source) : Frame :=
  ⟨.empty, source.memory.map fun v => (v.first.map (constant v.type)).getD .nothing, source.memory.map Variable.id⟩

-- No text is run for more steps than that.
def stepLimit : Nat := 100000

-- The value of a function without parameters, as the caller sees it: a word of 64 bits, or one of 32 bits with
-- zeros before it.
def value (source : Source) (routine : Routine) : Outcome (BitVec 64) :=
  match routine.blocks with
  | [] => .stuck
  | block :: _ =>
    (run source stepLimit routine block.label block.steps (started source)).andThen fun
      | (.word 64 found, _) | (.word 32 found, _) => .value (BitVec.ofNat 64 found)
      | (.nothing, _) => .unassigned
      | _ => .stuck

end Machine

end WordC.Assembly
