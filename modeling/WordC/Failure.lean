import WordC.Diagnostic
import WordC.Module.Lower
import WordC.Outside
import WordC.Text.Lines
import WordC.Text.Utf8
import WordC.Token.Scan
import WordC.Tree.Parse

namespace WordC

-- Why something was not done that was asked of the world outside. The operating system answers with a number and some
-- words, and may name the file. Other troubles come before or besides its answer.
inductive Trouble where
  | system (code : Nat) (words : String) (file : Option String)
  | value (words : String)
  | other (words : String)
deriving DecidableEq, Repr

def Trouble.outside : Trouble → Outside
  | .system code words file =>
    let given : List Datum := .number code :: .text words :: file.toList.map .text
    .system (Outside.systemTrouble .unspecified given) given
  | .value words => .value [.text words]
  | .other words => .other [.text words]

inductive Failure where
  | diagnostic (d : Diagnostic)
  | overlongDigitRun (length : Nat)
  | defective (defect : Defect)
  | sourceMissing (path : String)
  | undecodable (fault : Text.Utf8.Fault)
  | file (trouble : Trouble)
  | unknownRunner (name : String)
deriving DecidableEq, Repr

def Defect.message : Defect → String
  | .absentNode => "a node of the tree is absent"
  | .misplaced => "a node of the tree does not fit its place"
  | .noValue => "a node of the tree has no value where one is needed"
  | .outsideFunction => "a part of a body stands outside of all functions"
  | .functionInside => "a function stands inside another one"
  | .undefinedFunction => "a function stands where none of its name was declared"
  | .absentValue => "a literal of the tree has no value"
  | .noOperands => "an assignment has no operands"
  | .secondReturn => "a function has more than one return"
  | .emptyFunctionName => "a function has an empty name"
  | .unnamed => "a function or a variable has no name"

def Failure.message : Failure → String
  | .diagnostic d => d.text
  | .overlongDigitRun length =>
    s!"Exceeds the limit ({Scan.longestDigitRun} digits) for integer string conversion: value has {length} digits; use sys.set_int_max_str_digits() to increase the limit"
  | .defective defect => defect.message
  | .sourceMissing path => s!"Source file not found: {path}"
  | .undecodable fault => fault.message
  | .file trouble => trouble.outside.message
  | .unknownRunner name => s!"unknown runner '{name}'; choose from jit, lli"

def Scan.Fault.diagnose (file line : String) (place : Position) : Scan.Fault → Failure
  | .overlongDigitRun length => .overlongDigitRun length
  | .strayCharacter c => .diagnostic ⟨.strayCharacter c, some (place.inFile file), some line, false⟩
  | .literalTooLarge digits => .diagnostic ⟨.literalTooLarge digits, some (place.inFile file), some line, false⟩

def Lower.Rejection.diagnose (lines : List String) : Lower.Rejection → Failure
  | .redefinition function location first => .diagnostic (.redefinition function location first)
  | .undeclared name location => located (.undeclared name) location
  | .unknownFunction function location => located (.unknownFunction function) location
  | .wrongArgumentCount function expected actual location =>
    located (.wrongArgumentCount function expected actual) location
  | .notAssignable location => located .notAssignable location
  | .defective defect => .defective defect
where
  located (problem : Problem) (location : Option Location) : Failure :=
    .diagnostic ⟨problem, location, location.bind fun place => Text.lineAt? lines place.line, false⟩

end WordC
