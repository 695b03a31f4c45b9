import WordC.Assembly.Accepted
import WordC.Assembly.Machine
import WordC.Assembly.Reader.Definition
import WordC.Backend
import WordC.Module.Machine
import WordC.Module.Text

namespace WordC

namespace Assembly

-- The reader takes a null character for the end of the text.
def endMark : Char := '\x00'

def endsInReturn : List Instr → Bool
  | [] => false
  | [.ret (some _)] => true
  | .ret _ :: _ => false
  | _ :: rest => endsInReturn rest

-- Names of functions with this beginning belong to the backend itself.
def reservedStart : String := "llvm."

-- That many bytes of the name of a value are kept. A longer name is not found again.
def longestValueName : Nat := 1024

def accepts (code : Code) : Bool :=
  endsInReturn code.body && !code.name.text.startsWith reservedStart
    && (code.body.filterMap Instr.result?).all (·.utf8ByteSize ≤ longestValueName)
    && !code.text.toList.contains endMark

-- A name with an end mark hides everything that stands behind it.
def isCut (m : Module) : Bool := m.name.toList.contains endMark

def loaded (m : Module) : List Code := if isCut m then [] else m.functions

def headText (m : Module) : List Char := ("\n".intercalate m.header).toList.takeWhile (· ≠ endMark)

-- The name of a module is printed inside a comment, and can end it and go on as a text of its own.
def head? (m : Module) : Option Source := (read (headText m)).filter Source.accepted

def isAccepted (m : Module) : Bool := (head? m).isSome && (loaded m).all accepts

def refusal? (m : Module) : Option String := if isAccepted m then none else some "the text is not a module"

-- The function that the name of a module defines by itself.
def ownRoutine? (m : Module) (entry : String) : Option (Source × Routine) := do
  let source ← head? m
  let routine ← source.routine? (.named entry)
  if routine.blocks.isEmpty then none else some (source, routine)

-- Functions are told apart by their place in the module.
def address? (m : Module) (entry : String) : Option Nat :=
  if ((loaded m).map Code.name).contains (some entry) || (ownRoutine? m entry).isSome then
    some ((m.functionNames.takeWhile (· ≠ some entry)).length + 1)
  else none

-- A module whose calls never come round to the same function again is at most as deep as it has functions.
def depthBound (m : Module) : Nat := m.functions.length + 1

def outcome (m : Module) (entry : String) : Outcome WordC.Word :=
  if isCut m then
    match ownRoutine? m entry with
    | none => .stuck
    | some (source, routine) => Machine.value source routine
  else WordC.Machine.value m (depthBound m) (some entry) []

def value (m : Module) (entry : String) : Except String Int :=
  match outcome m entry with
  | .value word => .ok word.toInt
  | .unassigned => .error "a variable is read before it is assigned"
  | .outOfFuel => .error "its calls do not end"
  | .stuck => .error "its code has no meaning"

end Assembly

-- The backend that is at hand without a tool chain.
def Backend.builtIn : Backend := ⟨Assembly.refusal?, Assembly.refusal?, Assembly.address?, Assembly.value⟩

end WordC
