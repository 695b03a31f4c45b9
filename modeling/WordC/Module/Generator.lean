import WordC.Failure

namespace WordC

-- A function of a module that is being made. All its code is one block. It takes the names of a new one when it is
-- entered again, but what stands inside of a function is never finished.
structure Draft where
  name : Name
  arguments : List String
  label : String
  names : Names
  body : List Instr
  closed : Bool
deriving Repr

namespace Draft

def declared (name : Name) (arity : Nat) : Draft :=
  let (arguments, label, names) := Lower.entryNames arity
  ⟨name, arguments, label, names, [], false⟩

def entered (draft : Draft) : Draft :=
  { draft with names := (Lower.entryNames draft.arguments.length).2.2, closed := false }

def code (draft : Draft) : Code := ⟨draft.name, draft.arguments, draft.label, draft.body⟩

end Draft

-- A function among all that a generator has begun, by the number of its module and its name in there.
structure Site where
  module : Nat
  function : Name
deriving DecidableEq, Repr

-- What makes modules, one after the other. It keeps them all, and it works on the last. Between calls there is left
-- what the last call was at when it ended: the functions it knew of, the one it was in, and the variables of that.
structure Generator where
  moduleName : String
  lines : List String
  modules : List (List Draft)
  definitions : Bindings Name (Option Location)
  site : Option Site
  slots : Option Lower.Slots
deriving Repr

-- Work of a generator. It leaves the generator as it has become, also where it gives up.
def Work (α : Type) := Generator → Except Lower.Rejection α × Generator

namespace Work

def give (result : α) : Work α := fun g => (.ok result, g)

def reject (rejection : Lower.Rejection) : Work α := fun g => (.error rejection, g)

def giveUp (defect : Defect) : Work α := reject (.defective defect)

def andThen (first : Work α) (next : α → Work β) : Work β := fun g =>
  match first g with
  | (.error rejection, g) => (.error rejection, g)
  | (.ok result, g) => next result g

end Work

namespace Generator

def start (moduleName : String) (lines : List String) : Generator :=
  ⟨moduleName, lines, [], .empty, none, none⟩

def current (g : Generator) : List Draft := g.modules.getLast?.getD []

def draft? (g : Generator) (site : Site) : Option Draft :=
  (g.modules[site.module]?).bind fun drafts => drafts.find? fun draft => draft.name = site.function

def alter (g : Generator) (site : Site) (change : Draft → Draft) : Generator :=
  { g with modules := g.modules.modify site.module fun drafts =>
      drafts.map fun draft => if draft.name = site.function then change draft else draft }

def find? (g : Generator) (name : Name) : Option Draft := g.current.find? fun draft => draft.name = name

def module (g : Generator) (number : Nat) : Module :=
  ⟨g.moduleName, ((g.modules[number]?).getD []).map Draft.code⟩

def inside (defect : Defect) : Work Unit := fun g =>
  if g.site.isNone then (.error (.defective defect), g) else (.ok (), g)

def change (edit : Draft → Except Defect (α × Draft)) : Work α := fun g =>
  match g.site with
  | none => (.error (.defective .outsideFunction), g)
  | some site =>
    match g.draft? site with
    | none => (.error (.defective .outsideFunction), g)
    | some draft =>
      match edit draft with
      | .error defect => (.error (.defective defect), g)
      | .ok (result, edited) => (.ok result, g.alter site fun _ => edited)

def addNamed (hint : String) (instruction : String → Instr) : Work String :=
  change fun draft =>
    let (name, names) := draft.names.fresh hint
    .ok (name, { draft with names, body := draft.body ++ [instruction name] })

def addUnnamed (instruction : Instr) : Work Unit :=
  change fun draft => .ok ((), { draft with names := draft.names.skip, body := draft.body ++ [instruction] })

def bindSlot (name : Name) (slot : String) : Work Unit := fun g =>
  match g.slots with
  | none => (.error (.defective .outsideFunction), g)
  | some slots => (.ok (), { g with slots := some (slots.bind name slot) })

def slotFor (name : Name) (location : Option Location) : Work String := fun g =>
  match g.slots with
  | none => (.error (.defective .outsideFunction), g)
  | some slots => (Lower.slotOf slots name location, g)

def newSlot (name : Name) : Work String :=
  (addNamed name.text .alloca).andThen fun slot =>
  (bindSlot name slot).andThen fun _ =>
  .give slot

def storeAll (value : Operand) : List String → Work Unit
  | [] => .give ()
  | slot :: rest => (addUnnamed (.store value slot)).andThen fun _ => storeAll value rest

-- A function gives its value back once.
def giveBack (value : Option Operand) : Work (Option Operand) :=
  change fun draft =>
    if draft.closed then .error .secondReturn
    else .ok (none, { draft with names := draft.names.skip, body := draft.body ++ [.ret value], closed := true })

-- The function that a call is for has to be known, and to take as many arguments.
def checkCall (function : Name) (given : Nat) (location : Option Location) : Work Unit := fun g =>
  match g.find? function with
  | none => (.error (.unknownFunction function location), g)
  | some draft =>
    if given ≠ draft.arguments.length then
      (.error (.wrongArgumentCount function draft.arguments.length given location), g)
    else (.ok (), g)

def addCall (function : Name) (values : Option (List Operand)) : Work (Option Operand) :=
  (inside .outsideFunction).andThen fun _ =>
  match values with
  | none => .giveUp .noValue
  | some values =>
    (addNamed "call" (.call · function values)).andThen fun result =>
    .give (some (.register result))

def addJoin (op : Arith) (reached : Operand) (value : Option Operand) : Work Operand :=
  match value with
  | none => .giveUp .noValue
  | some value =>
    (inside .noValue).andThen fun _ =>
    (addNamed (Lower.joinHint op) (.arith op · reached value)).andThen fun result =>
    .give (.register result)

-- Without targets there is nothing to store, whatever the value is.
def storeIn (targets : List String) (value : Option Operand) : Work (Option Operand) :=
  if targets.isEmpty then .give value
  else match value with
  | none => .giveUp .noValue
  | some stored =>
    (inside .noValue).andThen fun _ =>
    (storeAll stored targets).andThen fun _ =>
    .give value

-- Begin with the code of a function, whatever the generator was at.
def enter (name : Name) : Work (List String) := fun g =>
  match g.find? name with
  | none => (.error (.defective .undefinedFunction), g)
  | some draft =>
    let site := ⟨g.modules.length - 1, name⟩
    (.ok draft.arguments, { g.alter site Draft.entered with site := some site, slots := some .empty })

def bindParameters : List (Node × String) → Work Unit
  | [] => .give ()
  | (node, argument) :: rest =>
    match node.name? with
    | none => .giveUp .misplaced
    | some name =>
      (newSlot name).andThen fun slot =>
      (addUnnamed (.store (.register argument) slot)).andThen fun _ =>
      bindParameters rest

-- The end of a function. There are no variables left if another one ended inside of it.
def leave : Work (Option Operand) := fun g =>
  if g.slots.isNone then (.error (.defective .functionInside), g)
  else (.ok none, { g with site := none, slots := none })

mutual

-- Add the code of a node to the function that is being made. The value is where the code leaves it.
def visit : Node → Work (Option Operand)
  | .absent => .giveUp .absentNode
  | .bare _ _ | .parameter _ _ _ => .give none
  | .program _ functions => visitPresent functions
  | .function _ name _ listed statements result =>
    (enter name).andThen fun arguments =>
    (bindParameters (listed.zip arguments)).andThen fun _ =>
    (visitAll statements).andThen fun _ =>
    (visit result).andThen fun _ =>
    leave
  | .declare _ _ name => (newSlot name).andThen fun _ => .give none
  | .expression _ value => (visit value).andThen fun _ => .give none
  | .ret _ value => (visit value).andThen giveBack
  | .number _ none => .giveUp .absentValue
  | .number _ (some value) => .give (some (.constant (Lower.signedLiteral value)))
  | .var location name =>
    (slotFor name location).andThen fun slot =>
    (addNamed name.text (.load · slot)).andThen fun result =>
    .give (some (.register result))
  | .call location function arguments =>
    (checkCall function arguments.length location).andThen fun _ =>
    (visitOperands arguments).andThen fun values =>
    addCall function values
  | .chain _ .sum terms => visitFold .add (.constant 0) terms
  | .chain _ .product factors => visitFold .mul (.constant 1) factors
  | .chain _ .assign sides => visitAssign [] sides

def visitAll : List Node → Work (Option Operand)
  | [] => .give none
  | first :: rest => (visit first).andThen fun _ => visitAll rest

def visitPresent : List Node → Work (Option Operand)
  | [] => .give none
  | first :: rest =>
    if first.isAbsent then visitPresent rest
    else (visit first).andThen fun _ => visitPresent rest

def visitOperands : List Node → Work (Option (List Operand))
  | [] => .give (some [])
  | first :: rest =>
    (visit first).andThen fun value =>
    (visitOperands rest).andThen fun values =>
    .give (value.bind fun value => values.map (value :: ·))

def visitFold (op : Arith) (reached : Operand) : List Node → Work (Option Operand)
  | [] => .give (some reached)
  | first :: rest =>
    (inside .outsideFunction).andThen fun _ =>
    (visit first).andThen fun value =>
    (addJoin op reached value).andThen fun joined =>
    visitFold op joined rest

def visitAssign (targets : List String) : List Node → Work (Option Operand)
  | [] => .giveUp .noOperands
  | [last] => (visit last).andThen (storeIn targets)
  | target :: next :: rest =>
    match target with
    | .absent => .giveUp .absentNode
    | .var location name =>
      (slotFor name location).andThen fun slot => visitAssign (slot :: targets) (next :: rest)
    | other => .reject (.notAssignable other.location)

end

-- Add a function to the module that is being made. It counts as defined even if it cannot be added.
def declare (node : Node) : Work Unit := fun g =>
  match node.name? with
  | none => (.error (.defective .misplaced), g)
  | some name =>
    match g.definitions.lookup name with
    | some earlier => (.error (.redefinition name node.location earlier), g)
    | none =>
      let g := { g with definitions := g.definitions.bind name node.location }
      match node with
      | .function _ _ _ parameters _ _ =>
        if name = some "" then (.error (.defective .emptyFunctionName), g)
        else
          let draft := Draft.declared name parameters.length
          (.ok (), { g with modules := g.modules.modify (g.modules.length - 1) (· ++ [draft]) })
      | _ => (.error (.defective .misplaced), g)

def declareAll : List Node → Work Unit
  | [] => .give ()
  | first :: rest => (declare first).andThen fun _ => declareAll rest

-- Make room for a new module. Nothing else is cleared away.
def begin : Work Nat := fun g =>
  (.ok g.modules.length, { g with modules := g.modules ++ [[]], definitions := .empty })

def build (tree : Node) : Work Nat :=
  begin.andThen fun number =>
  match tree with
  | .program _ functions =>
    (declareAll functions).andThen fun _ =>
    (visitAll functions).andThen fun _ =>
    .give number
  | _ => .giveUp .misplaced

def emit (g : Generator) (tree : Node) : Except Failure Nat × Generator :=
  let (result, left) := build tree g
  (result.mapError (Lower.Rejection.diagnose g.lines), left)

def used (g : Generator) (trees : List Node) : Generator :=
  trees.foldl (fun g tree => (g.emit tree).2) g

end Generator

end WordC
