import WordC.Name

namespace WordC

-- The value that an instruction works on: a constant, or what an argument or an earlier instruction holds.
inductive Operand where
  | constant (value : Int)
  | register (name : String)
deriving DecidableEq, Repr

inductive Arith where
  | add
  | mul
deriving DecidableEq, Repr

-- An instruction. Those that yield something name it; `slot`s are places on the stack. A return without a
-- value comes only from a tree where none was put.
inductive Instr where
  | alloca (result : String)
  | store (value : Operand) (slot : String)
  | load (result slot : String)
  | arith (op : Arith) (result : String) (left right : Operand)
  | call (result : String) (function : Name) (arguments : List Operand)
  | ret (value : Option Operand)
deriving DecidableEq, Repr

def Instr.result? : Instr → Option String
  | .alloca result | .load result _ | .arith _ result _ _ | .call result _ _ => some result
  | .store _ _ | .ret _ => none

-- A function of a module. All its code is one block.
structure Code where
  name : Name
  arguments : List String
  label : String
  body : List Instr
deriving DecidableEq, Repr

structure Module where
  name : String
  functions : List Code
deriving DecidableEq, Repr

def Code.arity (code : Code) : Nat := code.arguments.length

namespace Module

def functionNames (m : Module) : List Name := m.functions.map Code.name

def find? (m : Module) (name : Name) : Option Code :=
  m.functions.find? fun code => code.name = name

end Module

end WordC
