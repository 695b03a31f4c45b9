import WordC.Assembly.Builtin
import WordC.Assembly.Reader.Type

namespace WordC.Assembly.Reader

def useGlobal (id : Id) (space : Nat) : Reader Unit :=
  note fun source => { source with globalsUsed := (id, space) :: source.globalsUsed }

-- The places of a type that numbers lead to, behind the first one, which counts whole values.
def placed? (types : Types) (type : Ty) : List Typed → Option Ty
  | [] => some type
  | index :: rest =>
    let n := match index.value with
      | .number n => if 0 ≤ n then some n.toNat else none
      | .zero => some 0
      | _ => none
    let fits : Bool := match types.opened type with
      | .struct _ _ => index.type == .int 32
      | _ => true
    if fits then (types.part? type n).bind fun part => placed? types part rest else none

-- The type of a place that is computed: a pointer, or as many of them as there are lanes.
def placeType? (types : Types) (type : Ty) (base : Typed) (indices : List Typed) : Option Ty :=
  let shapes := ((base :: indices).filterMap fun operand => operand.type.lanes?).eraseDups
  let fits := base.type.isPtrs && indices.all (fun index => index.type.isInts) && shapes.length ≤ 1
    && (indices.isEmpty || types.isSized type)
  if fits then (placed? types type (indices.drop 1)).map fun _ => base.type.lane.withLanes shapes.head?
  else none

-- A shuffle picks lanes of two vectors by a constant. A lane can be left open.
def picksLanes (size : Nat) (scalable : Bool) : Value → Bool
  | .composed _ _ numbers => !scalable && numbers.all fun n => -1 ≤ n && n < 2 * size
  | .zero | .unspecified => true
  | _ => false

def shuffleType? (left right mask : Typed) : Option Ty :=
  match left.type, mask.type with
  | .vector scalable size element, .vector _ n (.int 32) =>
    if right.type == left.type && picksLanes size scalable mask.value then some (.vector scalable n element)
    else none
  | _, _ => none

def extractType? (from_ index : Typed) : Option Ty :=
  match from_.type with
  | .vector _ _ element => if index.type.isInt then some element else none
  | _ => none

def insertType? (into element index : Typed) : Option Ty :=
  (extractType? into index).bind fun own => if own == element.type then some into.type else none

def placeFlags : List String := ["inbounds", "nusw", "nuw"]

-- Flags of places in constants can bound where the place is used.
def placeFlag : Reader Bool := do
  if ← tookOne placeFlags then return true
  if ← tookOne ["inrange"] then
    let (low, high) ← inBrackets (do
      let low ← number
      mark ','
      return (low, ← number))
    require (low < high)
    return true
  return false

def baseOf : Value → Option Id
  | .global id => some id
  | .computed _ base => base
  | _ => none

def orFail (found : Option α) : Reader α :=
  match found with
  | some value => return value
  | none => failure

-- Code of the machine itself: its text, and what it takes and yields.
def machineCode : Reader Value := do
  repeated (tookOne ["sideeffect", "alignstack", "inteldialect", "unwind"]) 4
  let _ ← quoted
  mark ','
  return .code (← quoted)

def allZero (items : List Typed) : Bool := items.all fun item => item.value.isZero

def numbersIn (items : List Typed) : List Int :=
  items.filterMap fun item => match item.value with
    | .number n => some n
    | _ => none

-- A constant that is computed, behind the word for what is done. `one` reads a constant with its type.
def computedWith (one : Reader Typed) (op : String) : Reader Value := do
  let pair : Reader (Typed × Typed) := do
    let first ← one
    mark ','
    return (first, ← one)
  match op with
  | "trunc" | "ptrtoint" | "inttoptr" | "bitcast" | "addrspacecast" =>
    inBrackets (do
      let operand ← one
      letters "to"
      let target ← type
      require (castFits op operand.type target)
      return .computed target (baseOf operand.value))
  | "add" | "sub" | "xor" =>
    if op ≠ "xor" then repeated (tookOne ["nuw", "nsw"]) 2
    let (left, right) ← inBrackets pair
    require (left.type == right.type && left.type.isInts)
    return .computed left.type ((baseOf left.value).or (baseOf right.value))
  | "getelementptr" =>
    repeated placeFlag (← bound)
    inBrackets (do
      let own ← type
      mark ','
      match ← separated one with
      | [] => failure
      | base :: indices =>
        return .computed (← orFail (placeType? (← types) own base indices)) (baseOf base.value))
  | "extractelement" =>
    let (from_, index) ← inBrackets pair
    return .computed (← orFail (extractType? from_ index)) none
  | "insertelement" =>
    inBrackets (do
      let (into, element) ← pair
      mark ','
      return .computed (← orFail (insertType? into element (← one))) none)
  | "shufflevector" =>
    inBrackets (do
      let (left, right) ← pair
      mark ','
      return .computed (← orFail (shuffleType? left right (← one))) none)
  | _ => failure

-- The address of a block, or a function by another name for its address.
def addressWith (op : String) : Reader Value := do
  let routine : Reader Id := do
    match ← word with
    | .global id =>
      useGlobal id 0
      return id
    | _ => failure
  match op with
  | "blockaddress" =>
    inBrackets (do
      let id ← routine
      mark ','
      match ← word with
      | .register label =>
        note fun source => { source with blocksUsed := (id, label) :: source.blocksUsed }
        return .computed (.ptr 0) none
      | _ => failure)
  | _ => return .computed (.ptr 0) (some (← routine))

def sameTypes (items : List Typed) : Option Ty :=
  match items with
  | [] => none
  | first :: rest => if rest.all fun item => item.type == first.type then some first.type else none

-- Constants that are put together, behind their opening mark.
def arrayValue (items : List Typed) : Reader Value :=
  match items, sameTypes items with
  | [], _ => return .emptyArray
  | _, some element => do
    require element.isElement
    return .composed (.array items.length element) (allZero items) (numbersIn items)
  | _, none => failure

def vectorValue (items : List Typed) : Reader Value := do
  let element ← orFail (sameTypes items)
  require element.isLane
  return .composed (.vector false items.length element) (allZero items) (numbersIn items)

def structValue (packed : Bool) (items : List Typed) : Value :=
  .struct packed (items.map Typed.type) (allZero items)

def plainValue? (spelled : String) : Option Value :=
  match spelled with
  | "true" => some (.truth true)
  | "false" => some (.truth false)
  | "null" => some .null
  | "undef" | "poison" => some .unspecified
  | "zeroinitializer" => some .zero
  | "none" => some .none
  | _ => none

-- Code of the machine itself and functions of the backend can only be called.
def isOperand : Value → Bool
  | .code _ => false
  | .global id => (Builtin.ofId? id).isNone
  | _ => true

-- A value, with at most so many levels of constants in constants. The space is that of its address if it has one.
def valueWithin (space : Nat) : Nat → Reader Value
  | 0 => failure
  | fuel + 1 => do
    let one : Reader Typed := do
      let own ← type
      let given ← valueWithin own.space fuel
      require (given.fits (← types) own && given.isConstant && isOperand given)
      return ⟨own, given⟩
    match ← word with
    | .number n => return .number n
    | .real value => return .real value
    | .register id => return .register id
    | .global id =>
      useGlobal id space
      return .global id
    | .mark '[' => arrayValue (← upTo ']' one)
    | .mark '\x7b' => return structValue false (← upTo '\x7d' one)
    | .mark '<' =>
      if ← tookMark '\x7b' then
        let items ← upTo '\x7d' one
        mark '>'
        return structValue true items
      else vectorValue (← upTo '>' one)
    | .letters "c" =>
      match ← word with
      | .quoted text bytes =>
        return .composed (.array bytes (.int 8)) (text.toList.all (· = '\x00')) []
      | _ => failure
    | .letters "asm" => machineCode
    | .letters "splat" =>
      let item ← inBrackets one
      return .splat item.type item.value.isZero
    | .letters spelled =>
      if ["blockaddress", "dso_local_equivalent", "no_cfi"].contains spelled then addressWith spelled
      else match plainValue? spelled with
      | some found => return found
      | none => computedWith one spelled
    | _ => failure

def calleeOf (type : Ty) : Reader Typed := do
  let given ← valueWithin type.space (← bound)
  require (given.fits (← types) type)
  return ⟨type, given⟩

def valueOf (type : Ty) : Reader Typed := do
  let given ← calleeOf type
  require (isOperand given.value)
  return given

def typedValue : Reader Typed := do valueOf (← type)

def constantOf (type : Ty) : Reader Value := do
  let given ← valueOf type
  require given.value.isConstant
  return given.value

def typedConstant : Reader Typed := do
  let own ← type
  return ⟨own, ← constantOf own⟩

def pointer : Reader Typed := do
  let given ← typedValue
  require given.type.isPtr
  return given

def next (one : Reader α) : Reader α := do
  mark ','
  one

end WordC.Assembly.Reader
