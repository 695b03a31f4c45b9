import WordC.Assembly.Real

namespace WordC.Assembly

inductive Ty where
  | void
  | label
  | metadata
  | token
  | tile
  | int (bits : Nat)
  | real (word : String)
  | ptr (space : Nat)
  | array (size : Nat) (element : Ty)
  | vector (scalable : Bool) (size : Nat) (element : Ty)
  | struct (packed : Bool) (fields : List Ty)
  | named (id : Id)
  | function (result : Ty) (parameters : List Ty) (more : Bool)
  | foreign (words : String)

namespace Ty

mutual

-- Types are the same if they are spelled the same.
def spelling : Ty → String
  | .void => "void"
  | .label => "label"
  | .metadata => "metadata"
  | .token => "token"
  | .tile => "tile"
  | .int bits => s!"i{bits}"
  | .real word => word
  | .ptr space => s!"ptr addrspace({space})"
  | .array size element => s!"[{size} x {element.spelling}]"
  | .vector scalable size element =>
    (if scalable then "<vscale x " else "<") ++ s!"{size} x {element.spelling}>"
  | .struct packed fields =>
    let inside := "\x7b" ++ ", ".intercalate (spellings fields) ++ "\x7d"
    if packed then "<" ++ inside ++ ">" else inside
  | .named (.named name) => s!"%\"{name}\""
  | .named (.numbered n) => s!"%{n}"
  | .function result parameters more =>
    s!"{result.spelling} (" ++ ", ".intercalate (spellings parameters) ++ (if more then ", ...)" else ")")
  | .foreign words => words

def spellings : List Ty → List String
  | [] => []
  | type :: rest => type.spelling :: spellings rest

end

instance : BEq Ty := ⟨fun a b => a.spelling == b.spelling⟩

instance : Inhabited Ty := ⟨.void⟩

mutual

-- The type with everything put in for the names of types.
def replaced (f : Id → Ty) : Ty → Ty
  | .array size element => .array size (replaced f element)
  | .vector scalable size element => .vector scalable size (replaced f element)
  | .struct packed fields => .struct packed (allReplaced f fields)
  | .named id => f id
  | type => type

def allReplaced (f : Id → Ty) : List Ty → List Ty
  | [] => []
  | type :: rest => replaced f type :: allReplaced f rest

end

mutual

-- Whether a type or one of its parts has a property.
def someIn (p : Ty → Bool) : Ty → Bool
  | .array size element => p (.array size element) || someIn p element
  | .vector scalable size element => p (.vector scalable size element) || someIn p element
  | .struct packed fields => p (.struct packed fields) || anyIn p fields
  | type => p type

def anyIn (p : Ty → Bool) : List Ty → Bool
  | [] => false
  | type :: rest => someIn p type || anyIn p rest

end

-- What a type can be a part of

def isPointee : Ty → Bool
  | .void | .label | .metadata | .token | .tile => false
  | _ => true

def isField : Ty → Bool
  | .void | .label | .metadata | .token | .function _ _ _ => false
  | _ => true

def isElement : Ty → Bool
  | .tile => false
  | type => type.isField

def isLane : Ty → Bool
  | .int _ | .real _ | .ptr _ => true
  | _ => false

def isResult : Ty → Bool
  | .label | .metadata | .function _ _ _ => false
  | _ => true

-- Vectors take part in most operations lane by lane.

def lane : Ty → Ty
  | .vector _ _ element => element
  | type => type

def lanes? : Ty → Option (Bool × Nat)
  | .vector scalable size _ => some (scalable, size)
  | _ => none

def withLanes (lanes : Option (Bool × Nat)) (element : Ty) : Ty :=
  match lanes with
  | some (scalable, size) => .vector scalable size element
  | none => element

def isVector (type : Ty) : Bool := type.lanes?.isSome

def isInt : Ty → Bool
  | .int _ => true
  | _ => false

def isReal : Ty → Bool
  | .real _ => true
  | _ => false

def isPtr : Ty → Bool
  | .ptr _ => true
  | _ => false

def isInts (type : Ty) : Bool := type.lane.isInt

def isReals (type : Ty) : Bool := type.lane.isReal

def isPtrs (type : Ty) : Bool := type.lane.isPtr

def isAggregate : Ty → Bool
  | .array _ _ | .struct _ _ => true
  | _ => false

def realBits (word : String) : Nat :=
  match word with
  | "half" | "bfloat" => 16
  | "float" => 32
  | "double" => 64
  | "x86_fp80" => 80
  | _ => 128

-- The bits of numbers and vectors of numbers.
def bits : Ty → Nat
  | .int n => n
  | .real word => realBits word
  | .vector _ size element => size * element.bits
  | _ => 0

def space : Ty → Nat
  | .ptr space => space
  | _ => 0

end Ty

-- What is known about the name of a type. Names can be used before they are defined.
inductive Meaning where
  | awaited
  | unknown
  | struct (packed : Bool) (fields : List Ty)
  | same (type : Ty)

abbrev Types := List (Id × Meaning)

namespace Types

def meaning? (types : Types) (id : Id) : Option Meaning := (types.find? fun entry => entry.1 = id).map Prod.snd

def define (types : Types) (id : Id) (meaning : Meaning) : Types :=
  (id, meaning) :: types.filter fun entry => entry.1 ≠ id

-- The type with its names looked up, to some depth.
def lookedUp (types : Types) : (depth : Nat) → Ty → Ty
  | 0, type => type
  | depth + 1, type =>
    type.replaced fun id => match types.meaning? id with
      | some (.struct packed fields) => types.lookedUp depth (.struct packed fields)
      | some (.same type) => types.lookedUp depth type
      | _ => .named id

-- No type is a part of itself, so that there are no more levels than names.
def whole (types : Types) (type : Ty) : Ty := types.lookedUp (types.length + 1) type

-- One level of a type, with the fields of a struct that has a name.
def opened (types : Types) : Ty → Ty
  | .named id =>
    match types.meaning? id with
    | some (.struct packed fields) => .struct packed fields
    | _ => .named id
  | type => type

def isSized (types : Types) (type : Ty) : Bool :=
  !(types.whole type).someIn fun part => match part with
    | .void | .label | .metadata | .token | .named _ | .function _ _ _ | .foreign _ => true
    | _ => false

def isScalable (types : Types) (type : Ty) : Bool :=
  (types.whole type).someIn fun part => match part with
    | .vector scalable _ _ => scalable
    | _ => false

-- Whether values of the type can be held and handed on.
def isHeld (types : Types) (type : Ty) : Bool :=
  match types.opened type with
  | .void | .function _ _ _ | .named _ => false
  | _ => true

def isPartOf (types : Types) (id : Id) (type : Ty) : Bool :=
  (types.whole type).someIn fun part => match part with
    | .named other => other = id
    | _ => false

-- The type that is reached by a step into one that has parts. A field is taken by its number.
def part? (types : Types) (type : Ty) (index : Option Nat) : Option Ty :=
  match types.opened type, index with
  | .array _ element, _ | .vector _ _ element, _ => some element
  | .struct _ fields, some n => fields[n]?
  | _, _ => none

-- Parts of values are counted from zero.
def component? (types : Types) : Ty → List Nat → Option Ty
  | type, [] => some type
  | type, n :: rest =>
    match types.opened type with
    | .array size element => if n < size then types.component? element rest else none
    | .struct _ fields => fields[n]?.bind fun field => types.component? field rest
    | _ => none

end Types

-- Whether a cast leads from one type to the other.
def castFits (op : String) (source target : Ty) : Bool :=
  let (a, b) := (source.lane, target.lane)
  let shaped := source.lanes? = target.lanes?
  match op with
  | "trunc" => a.isInt && b.isInt && shaped && b.bits < a.bits
  | "zext" | "sext" => a.isInt && b.isInt && shaped && a.bits < b.bits
  | "fptrunc" => a.isReal && b.isReal && shaped && b.bits < a.bits
  | "fpext" => a.isReal && b.isReal && shaped && a.bits < b.bits
  | "uitofp" | "sitofp" => a.isInt && b.isReal && shaped
  | "fptoui" | "fptosi" => a.isReal && b.isInt && shaped
  | "ptrtoint" => a.isPtr && b.isInt && shaped
  | "inttoptr" => a.isInt && b.isPtr && shaped
  | "addrspacecast" => a.isPtr && b.isPtr && shaped && a.space ≠ b.space
  | "bitcast" =>
    if a.isPtr || b.isPtr then a.isPtr && b.isPtr && a.space = b.space && shaped
    else a.isLane && b.isLane && source.bits = target.bits
      && (source.lanes?.map Prod.fst).getD false = (target.lanes?.map Prod.fst).getD false
  | _ => false

end WordC.Assembly
