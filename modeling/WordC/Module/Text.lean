import WordC.Module

namespace WordC

-- A value or function name as it stands between double quotes.
def escapeName (name : String) : String :=
  String.join (name.toList.map fun c =>
    if c = '\\' then "\\5c" else if c = '\x22' then "\\22" else String.singleton c)

def localName (name : String) : String := "%\"" ++ escapeName name ++ "\""

def globalName (name : Name) : String := "@\"" ++ escapeName name.text ++ "\""

def Operand.text : Operand → String
  | .constant value => toString value
  | .register name => localName name

def Arith.text : Arith → String
  | .add => "add"
  | .mul => "mul"

def Instr.text : Instr → String
  | .alloca result => s!"{localName result} = alloca i64"
  | .store value slot => s!"store i64 {value.text}, i64* {localName slot}"
  | .load result slot => s!"{localName result} = load i64, i64* {localName slot}"
  | .arith op result left right =>
    s!"{localName result} = {op.text} i64 {left.text}, {right.text}"
  | .call result function arguments =>
    let given := ", ".intercalate (arguments.map fun value => "i64 " ++ value.text)
    s!"{localName result} = call i64 {globalName function}({given})"
  | .ret none => "ret"
  | .ret (some value) => s!"ret i64 {value.text}"

def Code.text (code : Code) : String :=
  let arguments := ", ".intercalate (code.arguments.map fun name => "i64 " ++ localName name)
  let body := String.join (code.body.map fun instr => "  " ++ instr.text ++ "\n")
  s!"define i64 {globalName code.name}({arguments})\n\x7b\n{code.label}:\n{body}\x7d\n"

namespace Module

-- The name of the module stands in a comment, as it is.
def header (m : Module) : List String :=
  ["; ModuleID = \"" ++ m.name ++ "\"", "target triple = \"unknown-unknown-unknown\"",
    "target datalayout = \"\"", ""]

def text (m : Module) : String :=
  "\n".intercalate (m.header ++ m.functions.map Code.text)

end Module

end WordC
