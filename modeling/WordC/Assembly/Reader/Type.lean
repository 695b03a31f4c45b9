import WordC.Assembly.Reader.Basic

namespace WordC.Assembly.Reader

def realWords : List String := ["half", "bfloat", "float", "double", "x86_fp80", "fp128", "ppc_fp128"]

def plainType? (spelled : String) : Option Ty :=
  match spelled with
  | "void" => some .void
  | "label" => some .label
  | "metadata" => some .metadata
  | "token" => some .token
  | "x86_amx" => some .tile
  | "x86_mmx" => some (.vector false 1 (.int 64))
  | _ => if realWords.contains spelled then some (.real spelled) else none

-- A space of addresses, the usual one if none is given.
def addressSpace : Reader Nat := do
  if ← tookOne ["addrspace"] then
    let n ← inBrackets natural
    if n < 0x1000000 then return n else failure
  else return 0

-- A name that stands for a type without fields has to be defined before it is used.
def namedType (id : Id) : Reader Ty := do
  match (← types).meaning? id with
  | some (.same type) => return type
  | some _ => return .named id
  | none =>
    note fun source => { source with types := source.types.define id .awaited }
    return .named id

-- The types that one more level of reading builds on.
def fieldsWith (one : Reader Ty) : Reader (List Ty) := do
  let fields ← upTo '\x7d' one
  require (fields.all Ty.isField)
  return fields

def arrayWith (one : Reader Ty) : Reader Ty := do
  let size ← natural
  letters "x"
  let element ← one
  mark ']'
  require (element.isElement && size < 0x10000000000000000)
  return .array size element

def vectorWith (one : Reader Ty) : Reader Ty := do
  let scalable ← tookOne ["vscale"]
  if scalable then letters "x"
  let size ← count
  letters "x"
  let element ← one
  mark '>'
  require (element.isLane && size ≠ 0)
  return .vector scalable size element

-- The parameters of a type of functions. The dots for more of them come last.
def parametersWith (one : Reader Ty) : Reader (List Ty × Bool) := do
  let all ← upTo ')' (do if ← took .dots then return none else return some (← one))
  require (all.dropLast.all Option.isSome)
  return (all.filterMap id, all.getLast?.any Option.isNone)

def foreignWith (one : Reader Ty) : Reader Ty := do
  let name ← quoted
  let parts ← collected (do
    if ← tookMark ',' then
      match ← ahead? with
      | some (.number n) =>
        let _ ← word
        return some (toString n)
      | _ => return some (← one).spelling
    else return none) (← bound)
  return .foreign (", ".intercalate (name :: parts))

-- What can follow a type: stars that make a pointer of it, and parameters that make a function of it.
def suffixed (one : Reader Ty) (type : Ty) : Nat → Reader Ty
  | 0 => return type
  | fuel + 1 => do
    match ← ahead? with
    | some (.mark '*') =>
      let _ ← word
      require type.isPointee
      suffixed one (.ptr 0) fuel
    | some (.letters "addrspace") =>
      require type.isPointee
      let space ← addressSpace
      mark '*'
      suffixed one (.ptr space) fuel
    | some (.mark '(') =>
      let _ ← word
      require type.isResult
      let (parameters, more) ← parametersWith one
      let known ← types
      require (parameters.all fun p => known.isHeld p && p != .label)
      suffixed one (.function type parameters more) fuel
    | _ => return type

-- A type, with at most so many levels of types in types. Nothing stands where there is no value, which only the
-- results of functions allow.
def typeWithin : Nat → Reader Ty
  | 0 => failure
  | fuel + 1 => do
    let one : Reader Ty := do
      let found ← typeWithin fuel
      require (found != .void)
      return found
    match ← word with
    | .letters "ptr" =>
      let space ← addressSpace
      require ((← ahead?) ≠ some (.mark '*'))
      if (← ahead?) = some (.mark '(') then suffixed one (.ptr space) fuel else return .ptr space
    | .int bits => suffixed one (.int bits) fuel
    | .letters "target" => suffixed one (← inBrackets (foreignWith one)) fuel
    | .letters spelled =>
      match plainType? spelled with
      | some found => suffixed one found fuel
      | none => failure
    | .register id => suffixed one (← namedType id) fuel
    | .mark '[' => suffixed one (← arrayWith one) fuel
    | .mark '\x7b' => suffixed one (.struct false (← fieldsWith one)) fuel
    | .mark '<' =>
      if ← tookMark '\x7b' then
        let fields ← fieldsWith one
        mark '>'
        suffixed one (.struct true fields) fuel
      else suffixed one (← vectorWith one) fuel
    | _ => failure

def anyType : Reader Ty := do typeWithin (← bound)

def type : Reader Ty := do
  let found ← anyType
  require (found != .void)
  return found

end WordC.Assembly.Reader
