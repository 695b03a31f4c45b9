import WordC.Assembly.Reader.Attribute
import WordC.Assembly.Reader.Metadata

namespace WordC.Assembly.Reader

-- What a step comes to: the type of its result, what it does, and with what.
structure Deed where
  type : Ty
  act : Act
  operands : List Typed := []

-- Flags

def binaryOps : List String :=
  ["add", "sub", "mul", "udiv", "sdiv", "urem", "srem", "shl", "lshr", "ashr", "and", "or", "xor"]

def realOps : List String := ["fadd", "fsub", "fmul", "fdiv", "frem"]

def castOps : List String :=
  ["trunc", "zext", "sext", "fptrunc", "fpext", "uitofp", "sitofp", "fptoui", "fptosi", "ptrtoint", "inttoptr",
    "bitcast", "addrspacecast"]

def mathFlags : List String := ["fast", "nnan", "ninf", "nsz", "arcp", "contract", "reassoc", "afn"]

def flagsOf (op : String) : List String :=
  match op with
  | "add" | "sub" | "mul" | "shl" | "trunc" => ["nuw", "nsw"]
  | "udiv" | "sdiv" | "lshr" | "ashr" => ["exact"]
  | "or" => ["disjoint"]
  | "zext" | "uitofp" => ["nneg"]
  | "icmp" => ["samesign"]
  | "fptrunc" | "fpext" => mathFlags
  | _ => []

def flags (allowed : List String) : Reader Unit := do repeated (tookOne allowed) (← bound)

def tookMathFlags : Reader Bool := do
  if ← tookOne mathFlags then
    flags mathFlags
    return true
  else return false

def intRelations : List String := ["eq", "ne", "ugt", "uge", "ult", "ule", "sgt", "sge", "slt", "sle"]

def realRelations : List String :=
  ["false", "oeq", "ogt", "oge", "olt", "ole", "one", "ord", "ueq", "ugt", "uge", "ult", "ule", "une", "uno",
    "true"]

-- Two operands of one type, which stands before the first.
def twoOfType : Reader (Typed × Typed) := do
  let left ← typedValue
  return (left, ← next (valueOf left.type))

-- Blocks

def blockId : Reader Id := do
  letters "label"
  match ← word with
  | .register id => return id
  | _ => failure

def blockName : Reader Id := do
  match ← word with
  | .register id => return id
  | _ => failure

-- The cases of a choice: numbers that differ, each with its block.
def choices (type : Ty) : Reader (List (Int × Id)) := do
  mark '['
  let cases ← collected (do
    if ← tookMark ']' then return none
    let given ← typedValue
    require (given.type == type)
    let n ← match given.value with
      | .number n => pure (n % (1 <<< type.bits : Nat))
      | .truth b => pure (if b then 1 else 0)
      | .zero => pure 0
      | _ => failure
    return some (n, ← next blockId)) (← bound)
  require ((cases.map Prod.fst).eraseDups.length = cases.length)
  return cases

-- Memory

-- Where an instruction goes on behind a comma, with a word of its own or with attached nodes.
def commaAhead (spelled : String) : Reader Bool := do
  return (← get).words.take 2 = [.mark ',', .letters spelled]

-- An alignment at the end of an access to memory. Says whether there is one.
def accessAlignment : Reader Bool := do
  if ← commaAhead "align" then
    let _ ← word
    let _ ← word
    alignmentNumber
    return true
  else return false

def orderings : List String := ["unordered", "monotonic", "acquire", "release", "acq_rel", "seq_cst"]

def scope : Reader Unit := do
  if ← tookOne ["syncscope"] then
    let _ ← inBrackets quoted

def ordering (excluded : List String) : Reader Unit := do
  let found ← oneOf orderings
  require (!excluded.contains found)

-- The end of an access that may be atomic; then its order and its alignment are given.
def accessEnd (atomic : Bool) (excluded : List String) : Reader Unit := do
  if atomic then
    scope
    ordering excluded
  let aligned ← accessAlignment
  require (aligned || !atomic)

-- What an atomic access can move: a number of whole bytes, a power of two of them, or a pointer.
def isAtomic (type : Ty) : Bool :=
  let bits := type.bits
  match type with
  | .ptr _ => true
  | .int _ | .real _ => 8 ≤ bits && bits &&& (bits - 1) = 0
  | _ => false

def allocation : Reader Deed := do
  let _ ← tookOne ["inalloca"]
  let _ ← tookOne ["swifterror"]
  let own ← type
  require (own.isPointee && match own with
    | .function _ _ _ => false
    | _ => true)
  let special ← pure ((← commaAhead "align") || (← commaAhead "addrspace"))
  let attached := match (← get).words.take 2 with
    | [.mark ',', .metadata _] => true
    | _ => false
  let amount ← if !special && !attached && (← ahead?) = some (.mark ',') then
      pure [← next typedValue]
    else pure []
  require (amount.all fun operand => operand.type.isInt)
  let _ ← accessAlignment
  let space ← if ← commaAhead "addrspace" then next addressSpace else pure 0
  require ((← types).isSized own)
  return { type := .ptr space, act := .slot, operands := amount }

def loading : Reader Deed := do
  let atomic ← tookOne ["atomic"]
  let _ ← tookOne ["volatile"]
  let own ← type
  let place ← next pointer
  accessEnd atomic ["release", "acq_rel"]
  require ((← types).isSized own && (!atomic || isAtomic own))
  return { type := own, act := .load, operands := [place] }

def storing : Reader Deed := do
  let atomic ← tookOne ["atomic"]
  let _ ← tookOne ["volatile"]
  let stored ← typedValue
  let place ← next pointer
  accessEnd atomic ["acquire", "acq_rel"]
  require ((← types).isSized stored.type && (!atomic || isAtomic stored.type))
  return { type := .void, act := .store, operands := [stored, place] }

def exchange : Reader Deed := do
  let _ ← tookOne ["weak"]
  let _ ← tookOne ["volatile"]
  let place ← pointer
  let old ← next typedValue
  let new ← next typedValue
  scope
  ordering ["unordered"]
  ordering ["unordered", "release", "acq_rel"]
  let _ ← accessAlignment
  require (old.type == new.type && isAtomic old.type && !old.type.isReal)
  return { type := .struct false [old.type, .int 1], act := .other "cmpxchg", operands := [place, old, new] }

def intUpdates : List String :=
  ["add", "sub", "and", "nand", "or", "xor", "max", "min", "umax", "umin", "uinc_wrap", "udec_wrap", "usub_cond",
    "usub_sat"]

def realUpdates : List String := ["fadd", "fsub", "fmax", "fmin", "fmaximum", "fminimum"]

def update : Reader Deed := do
  let _ ← tookOne ["volatile"]
  let op ← oneOf ("xchg" :: intUpdates ++ realUpdates)
  let place ← pointer
  let given ← next typedValue
  scope
  ordering ["unordered"]
  let _ ← accessAlignment
  require (if realUpdates.contains op then given.type.isReals
    else if op = "xchg" then isAtomic given.type
    else given.type.isInt && isAtomic given.type)
  return { type := given.type, act := .other "atomicrmw", operands := [place, given] }

-- Places and parts

-- Operands behind commas, up to where attached nodes come or the step ends.
def operandsAhead (one : Reader α) : Reader (List α) := do
  collected (do
    match (← get).words.take 2 with
    | [.mark ',', .metadata _] => return none
    | .mark ',' :: _ => return some (← next one)
    | _ => return none) (← bound)

def placing : Reader Deed := do
  flags placeFlags
  let own ← type
  let base ← next typedValue
  let indices ← operandsAhead typedValue
  return { type := ← orFail (placeType? (← types) own base indices), act := .other "getelementptr",
           operands := base :: indices }

def takingPart : Reader Deed := do
  let whole ← typedValue
  let path ← operandsAhead count
  require (!path.isEmpty && ((← types).opened whole.type).isAggregate)
  return { type := ← orFail ((← types).component? whole.type path), act := .other "extractvalue",
           operands := [whole] }

def puttingPart : Reader Deed := do
  let whole ← typedValue
  let part ← next typedValue
  let path ← operandsAhead count
  require (!path.isEmpty && ((← types).opened whole.type).isAggregate)
  let own ← orFail ((← types).component? whole.type path)
  require (own == part.type)
  return { type := whole.type, act := .other "insertvalue", operands := [whole, part] }

-- Choices between values

def isCondition (condition chosen : Ty) : Bool :=
  condition == .int 1
    || (condition.lane == .int 1 && condition.isVector && condition.lanes? = chosen.lanes?)

def selecting : Reader Deed := do
  let math ← tookMathFlags
  let condition ← typedValue
  let yes ← next typedValue
  let no ← next typedValue
  require (yes.type == no.type && isCondition condition.type yes.type && yes.type != .token)
  require (!math || yes.type.isReals)
  return { type := yes.type, act := .select, operands := [condition, yes, no] }

-- The value that comes with the block before. Every block can come with one of its own.
def merging : Reader Deed := do
  let math ← tookMathFlags
  let own ← type
  require ((← types).isHeld own && own != .label && own != .token && (!math || own.isReals))
  let one : Reader (Typed × Id) := do
    mark '['
    let given ← valueOf own
    let source ← next blockName
    mark ']'
    return (given, source)
  let found ← if (← ahead?) = some (.mark '[') then do
      let first ← one
      pure (first :: (← operandsAhead one))
    else pure []
  return { type := own, act := .phi (found.map Prod.snd), operands := found.map Prod.fst }

-- Calls

def argument : Reader (Typed × List Attribute.Promise) := do
  let own ← type
  if own == .metadata then
    let _ ← item
    return (⟨own, .node⟩, [])
  let promises ← parameterWords
  return (← valueOf own, promises)

-- Further operands that go with a call under a name.
def bundles : Reader (List Typed) := do
  if !(← tookMark '[') then return []
  let all ← separated (do
    let _ ← quoted
    mark '('
    upTo ')' typedValue)
  mark ']'
  return all.flatten

-- Arguments fit the parameters of a function, and only those with dots take more.
def argumentsFit (parameters : List Ty) (more : Bool) (arguments : List Ty) : Bool :=
  (parameters.zip arguments).all (fun (a, b) => a == b)
    && (if more then parameters.length ≤ arguments.length else parameters.length = arguments.length)

-- Code of the machine says what it yields, then what it takes, then what it changes.
inductive Constraint where
  | output
  | place
  | input
  | change
deriving DecidableEq

def constraint? (text : List Char) : Option Constraint :=
  match text with
  | [] => none
  | '=' :: '*' :: rest => if rest.isEmpty then none else some .place
  | '=' :: rest => if rest.isEmpty then none else some .output
  | '~' :: rest => if rest.head? = some '\x7b' then some .change else none
  | _ => some .input

-- They come in that order.
def inOrder : List Constraint → Bool
  | [] => true
  | first :: rest =>
    (match first with
      | .change => rest.all (· = .change)
      | .input => rest.all fun other => other = .input || other = .change
      | _ => true) && inOrder rest

def codeFits (types : Types) (constraints : String) (result : Ty) (parameters : List Ty) : Bool :=
  let texts := if constraints.isEmpty then [] else constraints.splitOn ","
  let found := texts.map fun text => constraint? text.toList
  let all := found.filterMap id
  let outputs := all.count .output
  let yields := match types.opened result with
    | .void => outputs = 0
    | .struct _ fields => 2 ≤ outputs && fields.length = outputs
    | _ => outputs = 1
  found.all Option.isSome && inOrder all && yields && all.count .input + all.count .place = parameters.length

-- A function of the backend has to know some of its arguments beforehand.
def builtinFits (signature : Builtin.Signature) (result : Ty) (arguments : List Typed) : Bool :=
  signature.fits result (arguments.map Typed.type)
    && signature.constants.all fun n => arguments[n]?.any fun argument => argument.value.isNumber

-- A call up to its operands, callee first. The result can stand alone for a whole type of functions.
def called : Reader (Ty × List Typed) := do
  let way ← convention
  let promises ← resultWords
  let space ← addressSpace
  let given ← anyType
  let callee ← calleeOf (.ptr space)
  mark '('
  let arguments ← upTo ')' argument
  let (promised, _) ← routineWords
  let further ← bundles
  let own := (arguments.map Prod.fst).map Typed.type
  let (result, parameters, more) := match given with
    | .function result parameters more => (result, parameters, more)
    | result => (result, own, false)
  require (result.isResult && argumentsFit parameters more own && conventionFits way .void more)
  require (Attribute.valueFits result promises && Attribute.together Attribute.ofRoutinesExcluding promised)
  require (arguments.all fun (operand, promises) => Attribute.valueFits operand.type promises)
  match callee.value with
  | .code constraints => require (!more && codeFits (← types) constraints result parameters)
  | .global id => require ((Builtin.ofId? id).all fun signature =>
      !more && builtinFits signature result (arguments.map Prod.fst))
  | _ => pure ()
  return (result, callee :: arguments.map Prod.fst ++ further)

def calling (last : Bool) : Reader Deed := do
  let math ← tookMathFlags
  let (result, operands) ← called
  require (!math || result.isReals)
  return { type := result, act := .call last, operands }

def invoking : Reader Deed := do
  let (result, operands) ← called
  letters "to"
  let normal ← blockId
  letters "unwind"
  let unwind ← blockId
  return { type := result, act := .invoke normal unwind, operands }

-- Where calls that failed land: with clauses for what is caught, or to clean up.
def landing : Reader Deed := do
  let own ← type
  let cleanup ← tookOne ["cleanup"]
  let clauses ← collected (do
    match ← oneOf? ["catch", "filter"] with
    | some kind =>
      let given ← typedValue
      let isArray := match given.type with
        | .array _ _ => true
        | _ => false
      require (given.value.isConstant && (if kind = "catch" then given.type.isPtr else isArray))
      return some ()
    | none => return none) (← bound)
  require (cleanup || !clauses.isEmpty)
  return { type := own, act := .landing }

-- One step, by the word for what is done.

def returning (result : Ty) : Reader Deed := do
  let own ← anyType
  require (own == result)
  if own == .void then return { type := .void, act := .ret }
  return { type := .void, act := .ret, operands := [← valueOf own] }

def branching : Reader Deed := do
  if (← ahead?) = some (.letters "label") then return { type := .void, act := .jump [← blockId] }
  let condition ← typedValue
  require (condition.type == .int 1)
  let yes ← next blockId
  let no ← next blockId
  return { type := .void, act := .jump [yes, no], operands := [condition] }

def choosing : Reader Deed := do
  let given ← typedValue
  require given.type.isInt
  let usual ← next blockId
  return { type := .void, act := .choose usual (← choices given.type), operands := [given] }

-- A jump to an address, which is that of one of some blocks.
def indirect : Reader Deed := do
  let address ← typedValue
  require address.type.isPtr
  mark ','
  mark '['
  let targets ← upTo ']' blockId
  return { type := .void, act := .jump targets, operands := [address] }

def comparing : Reader Deed := do
  flags (flagsOf "icmp")
  let relation ← oneOf intRelations
  let (left, right) ← twoOfType
  require (left.type.isInts || left.type.isPtrs)
  return { type := (Ty.int 1).withLanes left.type.lanes?, act := .compare relation, operands := [left, right] }

def comparingReals : Reader Deed := do
  let _ ← tookMathFlags
  let relation ← oneOf realRelations
  let (left, right) ← twoOfType
  require left.type.isReals
  return { type := (Ty.int 1).withLanes left.type.lanes?, act := .other relation, operands := [left, right] }

def extracting : Reader Deed := do
  let from_ ← typedValue
  let index ← next typedValue
  return { type := ← orFail (extractType? from_ index), act := .other "extractelement",
           operands := [from_, index] }

def inserting : Reader Deed := do
  let into ← typedValue
  let element ← next typedValue
  let index ← next typedValue
  return { type := ← orFail (insertType? into element index), act := .other "insertelement",
           operands := [into, element, index] }

def shuffling : Reader Deed := do
  let left ← typedValue
  let right ← next typedValue
  let mask ← next typedValue
  return { type := ← orFail (shuffleType? left right mask), act := .other "shufflevector",
           operands := [left, right] }

def computing (op : String) : Reader Deed := do
  if binaryOps.contains op then
    flags (flagsOf op)
    let (left, right) ← twoOfType
    require left.type.isInts
    return { type := left.type, act := .binary op, operands := [left, right] }
  if realOps.contains op then
    let _ ← tookMathFlags
    let (left, right) ← twoOfType
    require left.type.isReals
    return { type := left.type, act := .other op, operands := [left, right] }
  if castOps.contains op then
    flags (flagsOf op)
    let operand ← typedValue
    letters "to"
    let target ← type
    require (castFits op operand.type target)
    return { type := target, act := .cast op, operands := [operand] }
  failure

def deed (result : Ty) : Reader Deed := do
  match ← word with
  | .letters "ret" => returning result
  | .letters "br" => branching
  | .letters "switch" => choosing
  | .letters "indirectbr" => indirect
  | .letters "invoke" => invoking
  | .letters "resume" => return { type := .void, act := .resume, operands := [← typedValue] }
  | .letters "unreachable" => return { type := .void, act := .unreachable }
  | .letters "icmp" => comparing
  | .letters "fcmp" => comparingReals
  | .letters "select" => selecting
  | .letters "phi" => merging
  | .letters "landingpad" => landing
  | .letters "freeze" =>
    let operand ← typedValue
    return { type := operand.type, act := .freeze, operands := [operand] }
  | .letters "fneg" =>
    let _ ← tookMathFlags
    let operand ← typedValue
    require operand.type.isReals
    return { type := operand.type, act := .other "fneg", operands := [operand] }
  | .letters "va_arg" =>
    let list ← pointer
    let own ← next type
    require ((← types).isHeld own)
    return { type := own, act := .other "va_arg", operands := [list] }
  | .letters "alloca" => allocation
  | .letters "load" => loading
  | .letters "store" => storing
  | .letters "cmpxchg" => exchange
  | .letters "atomicrmw" => update
  | .letters "fence" =>
    scope
    ordering ["unordered", "monotonic"]
    return { type := .void, act := .other "fence" }
  | .letters "getelementptr" => placing
  | .letters "extractvalue" => takingPart
  | .letters "insertvalue" => puttingPart
  | .letters "extractelement" => extracting
  | .letters "insertelement" => inserting
  | .letters "shufflevector" => shuffling
  | .letters "tail" | .letters "notail" =>
    letters "call"
    calling false
  | .letters "musttail" =>
    letters "call"
    calling true
  | .letters "call" => calling false
  | .letters op => computing op
  | _ => failure

def attachments : Reader (List (String × Option Nat)) := do
  if ← tookMark ',' then
    separated (do orFail (← attachment))
  else return []

-- The names of values in a function are no longer than that.
def longestName : Nat := 1024

def isShort : Id → Bool
  | .named name => name.utf8ByteSize ≤ longestName
  | .numbered _ => true

-- A step without a result takes no register.
def step (result : Ty) : Reader Step := do
  let given ← match ← ahead? with
    | some (.register id) => do
      let _ ← word
      mark '='
      pure (some id)
    | _ => pure none
  let done ← deed result
  let attached ← attachments
  if done.type == .void then
    require given.isNone
    return ⟨none, .void, done.act, done.operands, attached⟩
  require (given.all isShort)
  return ⟨some (← claim given), done.type, done.act, done.operands, attached⟩

-- The steps of a block, up to the one that ends it.
def steps (result : Ty) : Nat → Reader (List Step)
  | 0 => failure
  | fuel + 1 => do
    let first ← step result
    if first.act.endsBlock then return [first] else return first :: (← steps result fuel)

def blocks (result : Ty) : Nat → Reader (List Block)
  | 0 => failure
  | fuel + 1 => do
    let given ← match ← ahead? with
      | some (.label id) => do
        let _ ← word
        pure (some id)
      | _ => pure none
    let label ← claim given
    let block : Block := ⟨label, ← steps result (← bound)⟩
    if ← tookMark '\x7d' then return [block] else return block :: (← blocks result fuel)

end WordC.Assembly.Reader
