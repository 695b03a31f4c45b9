import WordC.Bindings
import WordC.Module
import WordC.Module.Names
import WordC.Tree.Node

namespace WordC.Lower

inductive Rejection where
  | redefinition (function : Name) (location first : Option Location)
  | undeclared (name : Name) (location : Option Location)
  | unknownFunction (function : Name) (location : Option Location)
  | wrongArgumentCount (function : Name) (expected actual : Nat) (location : Option Location)
  | notAssignable (location : Option Location)
  | defective (defect : Defect)
deriving DecidableEq, Repr

structure Signature where
  name : Name
  arity : Nat
  location : Option Location
deriving DecidableEq, Repr

abbrev Signatures := List Signature

def Signatures.find? (table : Signatures) (name : Name) : Option Signature :=
  List.find? (fun signature => signature.name = name) table

-- Enter every function under its name before any body is looked at. Something else that bears a name can
-- still be taken for a second definition of it.
def declareFrom (table : Signatures) : List Node → Except Rejection Signatures
  | [] => .ok table
  | node :: rest =>
    match node.name? with
    | none => .error (.defective .misplaced)
    | some name =>
      match table.find? name with
      | some earlier => .error (.redefinition name node.location earlier.location)
      | none =>
        match node with
        | .function location _ _ parameters _ _ =>
          if name = some "" then .error (.defective .emptyFunctionName)
          else declareFrom (table ++ [⟨name, parameters.length, location⟩]) rest
        | _ => .error (.defective .misplaced)

def declare (functions : List Node) : Except Rejection Signatures := declareFrom [] functions

-- Where each variable of a function lives.
abbrev Slots := Bindings Name String

def slotOf (slots : Slots) (name : Name) (location : Option Location) : Except Rejection String :=
  match slots.lookup name with
  | some slot => .ok slot
  | none => .error (.undeclared name location)

-- A literal is the signed word with the same bits. Only values up to one word come from a text.
def signedLiteral (value : Int) : Int :=
  if 0x7fffffffffffffff < value then value - 0x10000000000000000 else value

-- A body under way: the names and variables it has so far, and whether it has given its value.
structure Progress where
  names : Names
  slots : Slots
  closed : Bool := false
deriving Repr

-- The code of a node, where its value is afterwards if it has one, and the body then. There is no body where
-- no function is open: a function inside another one leaves none when it ends.
structure Lowered where
  code : List Instr
  value : Option Operand
  body : Option Progress
deriving Repr

def joinHint : Arith → String
  | .add => "sum"
  | .mul => "mul"

def openSlot (name : Name) (body : Progress) : String × Progress :=
  let (slot, names) := body.names.fresh name.text
  (slot, { body with names, slots := body.slots.bind name slot })

def storeAll (value : Operand) : List String → Names → List Instr × Names
  | [], names => ([], names)
  | slot :: rest, names =>
    let (code, names) := storeAll value rest names.skip
    (.store value slot :: code, names)

-- Each argument gets a slot of its own, so that parameters can be assigned to like other variables.
def parameters (body : Progress) : List (Node × String) → Except Rejection (List Instr × Progress)
  | [] => .ok ([], body)
  | (node, argument) :: rest =>
    match node.name? with
    | none => .error (.defective .misplaced)
    | some name =>
      let (slot, body) := openSlot name body
      match parameters { body with names := body.names.skip } rest with
      | .error rejection => .error rejection
      | .ok (later, body) => .ok (.alloca slot :: .store (.register argument) slot :: later, body)

-- Names are taken by the arguments, the function's own value and the block, in this order.
def entryNames (arity : Nat) : List String × String × Names :=
  let (arguments, names) := Names.start.freshList "" arity
  let (label, names) := names.skip.fresh "entry"
  (arguments, label, names)

def enter (arity : Nat) (listed : List Node) : Except Rejection (List Instr × Progress) :=
  let (arguments, _, names) := entryNames arity
  parameters { names, slots := .empty } (listed.zip arguments)

mutual

-- Operands come before the instruction that joins them, left to right.
def node (table : Signatures) : Node → Option Progress → Except Rejection Lowered
  | .absent, _ => .error (.defective .absentNode)
  | .bare _ _, body => .ok ⟨[], none, body⟩
  | .parameter _ _ _, body => .ok ⟨[], none, body⟩
  | .program _ functions, body => present table functions body
  | .function _ name _ listed statements result, _ =>
    match table.find? name with
    | none => .error (.defective .undefinedFunction)
    | some signature =>
      match enter signature.arity listed with
      | .error rejection => .error rejection
      | .ok (entry, body) =>
        match nodes table statements (some body) with
        | .error rejection => .error rejection
        | .ok middle =>
          match node table result middle.body with
          | .error rejection => .error rejection
          | .ok final =>
            if final.body.isNone then .error (.defective .functionInside)
            else .ok ⟨entry ++ middle.code ++ final.code, none, none⟩
  | .declare _ _ _, none => .error (.defective .outsideFunction)
  | .declare _ _ name, some body =>
    let (slot, body) := openSlot name body
    .ok ⟨[.alloca slot], none, some body⟩
  | .expression _ value, body =>
    match node table value body with
    | .error rejection => .error rejection
    | .ok lowered => .ok { lowered with value := none }
  | .ret _ value, body =>
    match node table value body with
    | .error rejection => .error rejection
    | .ok lowered =>
      match lowered.body with
      | none => .error (.defective .outsideFunction)
      | some body =>
        if body.closed then .error (.defective .secondReturn)
        else
          .ok ⟨lowered.code ++ [.ret lowered.value], none,
            some { body with names := body.names.skip, closed := true }⟩
  | .number _ none, _ => .error (.defective .absentValue)
  | .number _ (some value), body => .ok ⟨[], some (.constant (signedLiteral value)), body⟩
  | .var _ _, none => .error (.defective .outsideFunction)
  | .var location name, some body =>
    match slotOf body.slots name location with
    | .error rejection => .error rejection
    | .ok slot =>
      let (result, names) := body.names.fresh name.text
      .ok ⟨[.load result slot], some (.register result), some { body with names }⟩
  | .call location function arguments, body =>
    match table.find? function with
    | none => .error (.unknownFunction function location)
    | some signature =>
      if arguments.length ≠ signature.arity then
        .error (.wrongArgumentCount function signature.arity arguments.length location)
      else match operands table arguments body with
      | .error rejection => .error rejection
      | .ok (_, _, none) => .error (.defective .outsideFunction)
      | .ok (_, none, some _) => .error (.defective .noValue)
      | .ok (code, some values, some body) =>
        let (result, names) := body.names.fresh "call"
        .ok ⟨code ++ [.call result function values], some (.register result), some { body with names }⟩
  | .chain _ .sum terms, body => fold table .add (.constant 0) terms body
  | .chain _ .product factors, body => fold table .mul (.constant 1) factors body
  | .chain _ .assign sides, body => assign table [] sides body

def nodes (table : Signatures) : List Node → Option Progress → Except Rejection Lowered
  | [], body => .ok ⟨[], none, body⟩
  | first :: rest, body =>
    match node table first body with
    | .error rejection => .error rejection
    | .ok here =>
      match nodes table rest here.body with
      | .error rejection => .error rejection
      | .ok later => .ok { later with code := here.code ++ later.code }

-- The same, passing over absent nodes.
def present (table : Signatures) : List Node → Option Progress → Except Rejection Lowered
  | [], body => .ok ⟨[], none, body⟩
  | first :: rest, body =>
    if first.isAbsent then present table rest body
    else match node table first body with
    | .error rejection => .error rejection
    | .ok here =>
      match present table rest here.body with
      | .error rejection => .error rejection
      | .ok later => .ok { later with code := here.code ++ later.code }

-- The code and values of several nodes. There are no values if one of the nodes has none.
def operands (table : Signatures) : List Node → Option Progress →
    Except Rejection (List Instr × Option (List Operand) × Option Progress)
  | [], body => .ok ([], some [], body)
  | first :: rest, body =>
    match node table first body with
    | .error rejection => .error rejection
    | .ok here =>
      match operands table rest here.body with
      | .error rejection => .error rejection
      | .ok (code, values, body) =>
        .ok (here.code ++ code, here.value.bind fun value => values.map (value :: ·), body)

-- Join the operands one by one to what has been reached so far.
def fold (table : Signatures) (op : Arith) (reached : Operand) :
    List Node → Option Progress → Except Rejection Lowered
  | [], body => .ok ⟨[], some reached, body⟩
  | _ :: _, none => .error (.defective .outsideFunction)
  | first :: rest, some body =>
    match node table first (some body) with
    | .error rejection => .error rejection
    | .ok ⟨code, some value, some body⟩ =>
      let (result, names) := body.names.fresh (joinHint op)
      match fold table op (.register result) rest (some { body with names }) with
      | .error rejection => .error rejection
      | .ok later => .ok { later with code := code ++ .arith op result reached value :: later.code }
    | .ok _ => .error (.defective .noValue)

-- Targets are looked up left to right before the value is lowered. The value is stored last target first.
def assign (table : Signatures) (targets : List String) :
    List Node → Option Progress → Except Rejection Lowered
  | [], _ => .error (.defective .noOperands)
  | [last], body =>
    match node table last body with
    | .error rejection => .error rejection
    | .ok ⟨code, some value, some body⟩ =>
      let (stores, names) := storeAll value targets body.names
      .ok ⟨code ++ stores, some value, some { body with names }⟩
    | .ok lowered => if targets.isEmpty then .ok lowered else .error (.defective .noValue)
  | target :: next :: rest, body =>
    match target, body with
    | .absent, _ => .error (.defective .absentNode)
    | .var _ _, none => .error (.defective .outsideFunction)
    | .var location name, some body =>
      match slotOf body.slots name location with
      | .error rejection => .error rejection
      | .ok slot => assign table (slot :: targets) (next :: rest) (some body)
    | other, _ => .error (.notAssignable other.location)

end

def function (table : Signatures) (f : Node) : Except Rejection Code :=
  match f with
  | .function _ name _ listed _ _ =>
    match node table f none with
    | .error rejection => .error rejection
    | .ok lowered =>
      let (arguments, label, _) := entryNames listed.length
      .ok { name, arguments, label, body := lowered.code }
  | _ => .error (.defective .misplaced)

-- The module of a tree that is a program. Its functions are lowered one by one.
def program (moduleName : String) (tree : Node) : Except Rejection Module :=
  match tree with
  | .program _ functions => do
    let table ← declare functions
    let lowered ← functions.mapM (function table)
    return ⟨moduleName, lowered⟩
  | _ => .error (.defective .misplaced)

-- The functions of a program that are lowered before the first one that is not.
def completed (p : Program) : List Function :=
  match declare (p.functions.map Function.node) with
  | .error _ => []
  | .ok table => p.functions.takeWhile fun f => (function table f.node).isOk

def variableNames (f : Function) : List Name :=
  (f.parameters.map Parameter.name ++ f.statements.filterMap fun
    | .declare _ _ name => some name
    | _ => none).eraseDups

end WordC.Lower
