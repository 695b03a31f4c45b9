import WordC.Assembly.Attribute

namespace WordC.Assembly

-- What an operand is written as. A constant that is put together knows its types, whether all of it is zero, and
-- the numbers in it; one that is computed knows the global that it starts from.
inductive Value where
  | number (value : Int)
  | truth (value : Bool)
  | null
  | unspecified
  | zero
  | none
  | real (value : Numeral)
  | emptyArray
  | composed (type : Ty) (isZero : Bool) (numbers : List Int)
  | struct (packed : Bool) (fields : List Ty) (isZero : Bool)
  | splat (element : Ty) (isZero : Bool)
  | computed (type : Ty) (base : Option Id)
  | code (constraints : String)
  | node
  | register (id : Id)
  | global (id : Id)

namespace Value

def fits (types : Types) (type : Ty) : Value → Bool
  | .number _ => type.isInt
  | .truth _ => type == .int 1
  | .null | .code _ | .global _ => type.isPtr
  | .unspecified | .register _ => types.isHeld type && type != .label
  | .zero => types.isHeld type && match type with
    | .label | .metadata | .foreign _ => false
    | _ => true
  | .none => type == .token
  | .real value => match type with
    | .real word => value.fits word
    | _ => false
  | .emptyArray => match type with
    | .array size _ => size = 0
    | _ => false
  | .composed own _ _ | .computed own _ => own == type
  | .struct packed fields _ => types.opened type == .struct packed fields
  | .splat element _ => match type with
    | .vector _ _ own => own == element
    | _ => false
  | .node => type == .metadata

def isConstant : Value → Bool
  | .register _ | .node | .code _ => false
  | _ => true

def isZero : Value → Bool
  | .number value => value = 0
  | .truth value => !value
  | .null | .zero | .none | .emptyArray => true
  | .real (.decimal digits _) => digits = 0
  | .real (.pattern _ bits) => bits = 0
  | .composed _ all _ | .struct _ _ all | .splat _ all => all
  | _ => false

def isNumber : Value → Bool
  | .number _ | .truth _ => true
  | _ => false

end Value

structure Typed where
  type : Ty
  value : Value

-- What a step of a function does with its operands. Steps that only matter for their types are kept by name.
inductive Act where
  | binary (op : String)
  | compare (relation : String)
  | cast (op : String)
  | select
  | freeze
  | phi (sources : List Id)
  | slot
  | load
  | store
  | call (last : Bool)
  | invoke (normal unwind : Id)
  | landing
  | resume
  | ret
  | jump (targets : List Id)
  | choose (usual : Id) (cases : List (Int × Id))
  | unreachable
  | other (name : String)

namespace Act

def endsBlock : Act → Bool
  | .invoke _ _ | .resume | .ret | .jump _ | .choose _ _ | .unreachable => true
  | _ => false

def targets : Act → List Id
  | .jump targets => targets
  | .choose usual cases => usual :: cases.map Prod.snd
  | .invoke normal unwind => [normal, unwind]
  | _ => []

def isPhi : Act → Bool
  | .phi _ => true
  | _ => false

def isLanding : Act → Bool
  | .landing => true
  | _ => false

end Act

inductive Item where
  | text (value : String)
  | node (n : Nat)
  | value (operand : Typed)
  | other

-- A metadata node: a plain list of items, or one of a kind that is laid down.
inductive Node where
  | items (items : List Item)
  | special (kind : String)

-- A step, with the register for its result if it has one, and the nodes that are attached to it.
structure Step where
  result : Option Id
  type : Ty
  act : Act
  operands : List Typed
  attached : List (String × Option Nat) := []

structure Block where
  label : Id
  steps : List Step

-- A function as it is written down. One that is only declared has no blocks.
structure Routine where
  id : Id
  result : Ty
  parameters : List (Id × Ty)
  attributes : List Attribute.Promise := []
  groups : List Nat := []
  unnamed : Bool := false
  hasPersonality : Bool := false
  blocks : List Block

-- A global variable, with its first value if that is given here.
structure Variable where
  id : Id
  type : Ty
  first : Option Value

-- Another name for a global, or for a place that is computed from one.
structure Alias where
  id : Id
  base : Option Id
  isReplaceable : Bool
  resolves : Bool

-- Everything that a text defines, and everything that it speaks of. Globals are in a space of addresses.
structure Source where
  layout : String := ""
  routines : List Routine := []
  memory : List Variable := []
  aliases : List Alias := []
  spaces : List (Id × Nat) := []
  globalsUsed : List (Id × Nat) := []
  types : Types := []
  comdats : List String := []
  comdatsUsed : List String := []
  groups : List (Nat × List Attribute.Promise) := []
  nodes : List (Nat × Node) := []
  nodesUsed : List Nat := []
  lists : List (String × List Nat) := []
  blocksUsed : List (Id × Id) := []
  unnamed : Nat := 0

namespace Source

def globals (source : Source) : List Id := source.spaces.map Prod.fst

def routine? (source : Source) (id : Id) : Option Routine :=
  source.routines.find? fun routine => routine.id = id

def alias? (source : Source) (id : Id) : Option Alias := source.aliases.find? fun entry => entry.id = id

end Source

end WordC.Assembly
