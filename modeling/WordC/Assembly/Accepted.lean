import WordC.Assembly.Builtin
import WordC.Assembly.Layout
import WordC.Assembly.Source

namespace WordC.Assembly

namespace Routine

def entry? (r : Routine) : Option Id := r.blocks.head?.map Block.label

-- Everything in a function that bears a name or a number.
def ids (r : Routine) : List Id :=
  r.parameters.map Prod.fst ++ r.blocks.flatMap fun block =>
    block.label :: block.steps.filterMap Step.result

def targets (block : Block) : List Id := (block.steps.getLast?.map fun step => step.act.targets).getD []

-- The blocks that can come before one, each as often as it leads there.
def sources (r : Routine) (label : Id) : List Id :=
  r.blocks.flatMap fun block => ((targets block).filter (· = label)).map fun _ => block.label

-- The blocks that are reached from some others in a number of jumps, never entering a barred one.
def spread (r : Routine) (barred : List Id) : (jumps : Nat) → List Id → List Id
  | 0, seen => seen
  | jumps + 1, seen =>
    let further := (r.blocks.filter fun block => seen.contains block.label).flatMap targets
    spread r barred jumps (seen ++ further.filter fun id => !seen.contains id && !barred.contains id).eraseDups

-- The blocks that can be reached from the first one without entering a barred one.
def reached (r : Routine) (barred : List Id) : List Id :=
  spread r barred r.blocks.length (r.entry?.toList.filter fun id => !barred.contains id)

-- A block is passed on every way to another one if that one cannot be reached without it.
def passedBefore (r : Routine) (first later : Id) : Bool := !(r.reached [first]).contains later

-- The place and type of the step that fills a register.
def filled? (r : Routine) (id : Id) : Option (Id × Nat × Step) :=
  r.blocks.findSome? fun block =>
    match block.steps.findIdx? (fun step => step.result = some id) with
    | none => none
    | some n => block.steps[n]?.map fun step => (block.label, n, step)

-- Whether what a step yields is there at another place. A call that can fail yields something only where it goes on
-- as usual.
def isThere (r : Routine) (home : Id) (place : Nat) (step : Step) (block : Id) (n : Nat) : Bool :=
  !(r.reached []).contains block || match step.act with
    | .invoke normal _ => normal ≠ home && r.passedBefore normal block
    | _ => if home = block then place < n else r.passedBefore home block

-- A register holds a value of the right type wherever it is used.
def registerFits (r : Routine) (block : Id) (n : Nat) (type : Ty) (id : Id) : Bool :=
  match r.parameters.find? fun parameter => parameter.1 = id with
  | some parameter => parameter.2 == type
  | none =>
    match r.filled? id with
    | none => false
    | some (home, place, step) => step.type == type && r.isThere home place step block n

def operandFits (r : Routine) (block : Id) (n : Nat) (operand : Typed) : Bool :=
  match operand.value with
  | .register id => r.registerFits block n operand.type id
  | _ => true

def blockLength (r : Routine) (label : Id) : Nat :=
  ((r.blocks.find? fun block => block.label = label).map fun block => block.steps.length).getD 0

def sameValue : Value → Value → Bool
  | .register a, .register b => a = b
  | .global a, .global b => a = b
  | .number a, .number b => a = b
  | .truth a, .truth b => a = b
  | .register _, _ | _, .register _ => false
  | .number _, _ | _, .number _ => false
  | _, _ => true

-- Values that are merged come from exactly the blocks before, are there at the end of those, and are the same where
-- one block comes more than once.
def phiFits (r : Routine) (block : Id) (from_ : List Id) (operands : List Typed) : Bool :=
  let pairs := from_.zip operands
  let before := r.sources block
  (from_.length = before.length && from_.all fun id => from_.count id = before.count id)
    && (pairs.all fun (id, operand) => r.operandFits id (r.blockLength id) operand)
    && (pairs.all fun (id, operand) => pairs.all fun (other, second) =>
      id ≠ other || sameValue operand.value second.value)

def stepFits (r : Routine) (block : Id) (n : Nat) (step : Step) : Bool :=
  match step.act with
  | .phi from_ => r.phiFits block from_ step.operands
  | _ => step.operands.all (r.operandFits block n)

-- Failed calls land at the first step of a block that no other jump leads to.
def landsOnly (r : Routine) (label : Id) : Bool :=
  r.blocks.all fun block => (block.steps.getLast?.map Step.act).all fun act => match act with
    | .invoke normal _ => normal ≠ label
    | other => !other.targets.contains label

def firstAct? (block : Block) : Option Act :=
  (block.steps.find? fun step => !step.act.isPhi).map Step.act

def isLandingBlock (r : Routine) (label : Id) : Bool :=
  (r.blocks.find? fun block => block.label = label).any fun block => (firstAct? block).any Act.isLanding

def landingsFit (r : Routine) (block : Block) : Bool :=
  let landings := block.steps.filter fun step => step.act.isLanding
  (landings.isEmpty
      || (landings.length = 1 && (firstAct? block).any Act.isLanding && r.hasPersonality && r.landsOnly block.label
        && r.entry? ≠ some block.label))
    && (block.steps.getLast?.map Step.act).all fun act => match act with
      | .invoke _ unwind => r.isLandingBlock unwind
      | .resume => r.hasPersonality
      | _ => true

-- A call that has to be the last thing that a function does: what it yields is returned at once, and it takes and
-- yields the same as the function.
def lastCallFits (r : Routine) (step : Step) (after : Option Step) : Bool :=
  let returned := after.any fun other => match other.act, other.operands with
    | .ret, [] => step.result.isNone
    | .ret, [⟨_, .register id⟩] => step.result = some id
    | _, _ => false
  returned && step.type == r.result && (step.operands.drop 1).map Typed.type == r.parameters.map Prod.snd

def lastCallsFit (r : Routine) : List Step → Bool
  | [] => true
  | step :: rest =>
    (match step.act with
      | .call true => r.lastCallFits step rest.head?
      | _ => true) && r.lastCallsFit rest

-- Jumps lead to blocks, and never back to the first one. Merged values come first in a block.
def blockFits (r : Routine) (block : Block) : Bool :=
  (targets block).all (fun id => (r.blocks.map Block.label).contains id && r.entry? ≠ some id)
    && (block.steps.dropWhile fun step => step.act.isPhi).all (fun step => !step.act.isPhi)
    && (block.steps.zipIdx.all fun (step, n) => r.stepFits block.label n step)
    && r.landingsFit block && r.lastCallsFit block.steps

def accepted (r : Routine) : Bool := (r.ids.eraseDups.length = r.ids.length) && r.blocks.all r.blockFits

end Routine

namespace Source

def items? (source : Source) (n : Nat) : Option (List Item) :=
  (source.nodes.find? fun entry => entry.1 = n).bind fun entry => match entry.2 with
    | .items items => some items
    | .special _ => none

def isText : List Item → Bool
  | [.text _] => true
  | _ => false

-- What a flag is has to go with how it is joined with others.
def flagValueFits (source : Source) (how : Int) : Item → Bool
  | .node n => how ≤ 6 && (how ≠ 3 || (source.items? n).any fun items => match items with
    | [.text _, _] => true
    | _ => false)
  | .value operand => match operand.value with
    | .number n => how ≠ 3 && how ≠ 5 && how ≠ 6 && (how ≠ 8 || 0 ≤ n)
    | _ => how = 1 || how = 2 || how = 4
  | .text _ => how = 1 || how = 2 || how = 4
  | .other => how ≠ 3 && how ≤ 6

-- A flag says how it is joined with others, what it is called, and what it is.
def flag? (source : Source) : List Item → Option (Int × String)
  | [.value ⟨.int _, .number how⟩, .text name, value] =>
    if 1 ≤ how && how ≤ 8 && source.flagValueFits how value then some (how, name) else none
  | _ => none

-- Flags differ in what they are called, except for those that require something of others.
def flagsFit (source : Source) (nodes : List Nat) : Bool :=
  let flags := nodes.map fun n => (source.items? n).bind source.flag?
  let names := flags.filterMap fun flag => match flag with
    | some (how, name) => if how = 3 then none else some name
    | none => none
  flags.all Option.isSome && names.eraseDups.length = names.length

-- Some lists of nodes have a form that is laid down.
def listAccepted (source : Source) (name : String) (nodes : List Nat) : Bool :=
  match name with
  | "llvm.ident" | "llvm.commandline" => nodes.all fun n => (source.items? n).any isText
  | "llvm.module.flags" => source.flagsFit nodes
  | _ => true

def contained [BEq α] (used defined : List α) : Bool := used.all defined.contains

-- Whether a global is defined here, following other names at most so often.
def leadsToDefinition (source : Source) : (steps : Nat) → Id → Bool
  | 0, _ => false
  | steps + 1, id =>
    match source.alias? id with
    | some entry => !entry.isReplaceable && entry.base.all (source.leadsToDefinition steps)
    | none => (source.routine? id).any (fun routine => !routine.blocks.isEmpty)
      || source.memory.any fun variable_ => variable_.id = id && variable_.first.isSome

-- Another name stands for what is defined here. What resolves a name is a function that yields a place.
def aliasFits (source : Source) (entry : Alias) : Bool :=
  entry.base.all (source.leadsToDefinition (source.aliases.length + 1))
    && (!entry.resolves || (entry.base.bind source.routine?).any fun routine => routine.result.isPtr)

-- Words about a function count as its own if they stand in a group that it refers to.
def promises (source : Source) (routine : Routine) : List Attribute.Promise :=
  routine.attributes ++ (source.groups.filter fun group => routine.groups.contains group.1).flatMap Prod.snd

def routineFits (source : Source) (routine : Routine) : Bool :=
  let promises := source.promises routine
  routine.accepted && Attribute.routineFits (routine.parameters.map Prod.snd) promises
    && (!Attribute.holding promises "jumptable" || routine.unnamed)

-- The address of a block is that of one in a function that is defined here, and not of its first.
def blockUseFits (source : Source) (use : Id × Id) : Bool :=
  (source.routine? use.1).any fun routine =>
    (routine.blocks.map Block.label).contains use.2 && routine.entry? ≠ some use.2

-- Bounds in pairs, all of one type.
def boundsFit (type : Ty) : List Item → Bool
  | [] => true
  | .value low :: .value high :: rest =>
    low.type == type && high.type == type && low.value.isNumber && high.value.isNumber
      && !Routine.sameValue low.value high.value && boundsFit type rest
  | _ => false

-- How often a step goes each of its ways.
def weightsFit (step : Step) (weights : List Item) : Bool :=
  let numbers := weights.all fun item => match item with
    | .value operand => operand.value.isNumber
    | _ => false
  let ways := match step.act with
    | .call _ => [1]
    | .invoke _ _ => [1, 2]
    | .select => [2]
    | act => if act.targets.isEmpty then [] else [act.targets.length]
  numbers && ways.contains weights.length

def profileFits (step : Step) : List Item → Bool
  | .text "branch_weights" :: .text "expected" :: weights => weightsFit step weights
  | .text "branch_weights" :: weights => weightsFit step weights
  | .text _ :: _ :: _ => true
  | _ => false

-- Types of accesses are given by a name and what they are a part of, or by two types and a place.
def accessFits : List Item → Bool
  | [.text _, .node _] | [.text _, .node _, .value _] => true
  | .node _ :: .node _ :: .value _ :: _ => true
  | _ => false

-- Nodes that are attached under some names say something about the value of their step.
def attachedFits (source : Source) (step : Step) (attached : String × Option Nat) : Bool :=
  let items := (attached.2.bind source.items?).getD []
  let fromMemory := match step.act with
    | .load => true
    | _ => false
  let fromCall := match step.act with
    | .call _ | .invoke _ _ => true
    | _ => false
  let toMemory := match step.act with
    | .store => true
    | .other name => ["cmpxchg", "atomicrmw", "va_arg"].contains name
    | _ => false
  match attached.1 with
  | "range" =>
    (fromMemory || fromCall) && step.type.isInts && !items.isEmpty && boundsFit step.type.lane items
  | "nonnull" => fromMemory && step.type.isPtr && items.isEmpty
  | "noundef" => fromMemory && items.isEmpty
  | "align" | "dereferenceable" | "dereferenceable_or_null" =>
    fromMemory && step.type.isPtr && items.length = 1
  | "prof" => profileFits step items
  | "fpmath" => step.type.isReals && match items with
    | [.value operand] => operand.type == .real "float" && !operand.value.isZero
    | _ => false
  | "tbaa" => (fromMemory || fromCall || toMemory) && accessFits items
  | _ => true

def accepted (source : Source) : Bool :=
  Layout.accepted source.layout
    && contained (source.globalsUsed.filter fun use => (Builtin.ofId? use.1).isNone) source.spaces
    && source.types.all (fun (_, meaning) => match meaning with
      | .awaited => false
      | _ => true)
    && contained source.comdatsUsed source.comdats
    && contained source.nodesUsed (source.nodes.map Prod.fst)
    && source.lists.all (fun (name, nodes) => source.listAccepted name nodes)
    && source.aliases.all source.aliasFits
    && source.blocksUsed.all source.blockUseFits
    && source.routines.all source.routineFits
    && source.routines.all fun routine => routine.blocks.all fun block => block.steps.all fun step =>
      step.attached.all (source.attachedFits step)

end Source

end WordC.Assembly
