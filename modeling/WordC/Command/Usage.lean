import WordC.Command.Report
import WordC.Text.Likeness
import WordC.Text.Quoted

namespace WordC.Command

inductive Flag where
  | tokens
  | outline
  | run
  | noVerify
  | verbose
  | version
  | help
deriving DecidableEq, Repr

inductive Setting where
  | output
  | runner
deriving DecidableEq, Repr

inductive Switch where
  | flag (flag : Flag)
  | setting (setting : Setting)
deriving DecidableEq, Repr

-- In the order of the alphabet, in which suggestions name them.
def longSwitches : List (String × Switch) :=
  [("--ast", .flag .outline), ("--help", .flag .help), ("--no-verify", .flag .noVerify),
    ("--output", .setting .output), ("--run", .flag .run), ("--runner", .setting .runner),
    ("--tokens", .flag .tokens), ("--verbose", .flag .verbose), ("--version", .flag .version)]

def shortSwitches : List (Char × Switch) :=
  [('o', .setting .output), ('v', .flag .verbose)]

inductive UsageFault where
  | noSuchOption (name : String) (alike : List String)
  | valueMissing (name : String)
  | valueUnwanted (name : String)
  | inputMissing
  | inputAbsent (path : String)
  | inputIsDirectory (path : String)
  | inputUnreadable (path : String)
  | outputIsDirectory (path : String)
  | outputUnreadable (path : String)
  | pathUnusable
  | unknownRunner (name : String)
  | extraArguments (first : String) (rest : List String)
deriving DecidableEq, Repr

namespace UsageFault

def suggestion : List String → String
  | [] => ""
  | [name] => s!" Did you mean {Text.quoted name}?"
  | names =>
    let shown := ", ".intercalate (names.map Text.quoted)
    s!" (Did you mean one of: {shown}?)"

def message : UsageFault → String
  | .noSuchOption name alike => s!"No such option {Text.quoted name}." ++ suggestion alike
  | .valueMissing name => s!"Option {Text.quoted name} requires an argument."
  | .valueUnwanted name => s!"Option {Text.quoted name} does not take a value."
  | .inputMissing => "Missing argument 'INPUT_FILE'."
  | .inputAbsent path => s!"Invalid value for 'INPUT_FILE': File {Text.quoted path} does not exist."
  | .inputIsDirectory path => s!"Invalid value for 'INPUT_FILE': File {Text.quoted path} is a directory."
  | .inputUnreadable path => s!"Invalid value for 'INPUT_FILE': File {Text.quoted path} is not readable."
  | .outputIsDirectory path =>
    s!"Invalid value for '-o' / '--output': File {Text.quoted path} is a directory."
  | .outputUnreadable path =>
    s!"Invalid value for '-o' / '--output': File {Text.quoted path} is not readable."
  | .pathUnusable => "embedded null byte"
  | .unknownRunner name =>
    s!"Invalid value for '--runner': {Text.quoted name} is not one of 'jit', 'lli'."
  | .extraArguments first [] => s!"Got unexpected extra argument ({first})"
  | .extraArguments first rest =>
    let shown := " ".intercalate (first :: rest)
    s!"Got unexpected extra arguments ({shown})"

-- An option that misses its value or has one too many is reported without the usage lines.
def showsUsage : UsageFault → Bool
  | .valueMissing _ | .valueUnwanted _ => false
  | _ => true

def usageLines : String :=
  "Usage: rcc [OPTIONS] INPUT_FILE\nTry 'rcc --help' for help.\n\n"

-- A path that cannot even be looked at ends the command at once, without a word.
def report (fault : UsageFault) : Report :=
  match fault with
  | .pathUnusable => ⟨1, "", ""⟩
  | _ =>
    let complaint := Blame.arguments.complaint fault.message none
    { complaint with errors := (if fault.showsUsage then usageLines else "") ++ complaint.errors }

end UsageFault

-- One item of a command line, in the order given.
inductive Item where
  | flag (flag : Flag)
  | setting (setting : Setting) (value : String)
  | operand (text : String)
deriving DecidableEq, Repr

-- A setting whose value is still to come, with the name it was given by.
structure Pending where
  setting : Setting
  name : String
deriving DecidableEq, Repr

-- The items of an argument, and the setting at its end that waits for the next argument, if there is one.
abbrev Reading := Except UsageFault (List Item × Option Pending)

-- Letters after one dash. What follows the letter of a setting is its value.
def readLetters : List Char → Reading
  | [] => .ok ([], none)
  | letter :: rest =>
    let name := String.ofList ['-', letter]
    match shortSwitches.lookup letter with
    | none => .error (.noSuchOption name [])
    | some (.setting setting) =>
      if rest.isEmpty then .ok ([], some ⟨setting, name⟩)
      else .ok ([.setting setting (String.ofList rest)], none)
    | some (.flag flag) =>
      match readLetters rest with
      | .error fault => .error fault
      | .ok (items, pending) => .ok (.flag flag :: items, pending)

def splitValue (argument : List Char) : String × Option String :=
  let name := argument.takeWhile (· ≠ '=')
  (String.ofList name,
    if name.length < argument.length then some (String.ofList (argument.drop (name.length + 1))) else none)

def namesLike (name : String) : List String := Text.likest 3 (longSwitches.map Prod.fst) name

-- An argument that begins with a dash. Long names are tried first.
def readOption (argument : List Char) : Reading :=
  let (name, joined) := splitValue argument
  match longSwitches.lookup name, joined with
  | some (.flag flag), none => .ok ([.flag flag], none)
  | some (.flag _), some _ => .error (.valueUnwanted name)
  | some (.setting setting), none => .ok ([], some ⟨setting, name⟩)
  | some (.setting setting), some value => .ok ([.setting setting value], none)
  | none, _ =>
    if argument.take 2 = ['-', '-'] then .error (.noSuchOption name (namesLike name))
    else readLetters (argument.drop 1)

def isOption (argument : String) : Bool :=
  argument.toList.head? = some '-' && 1 < argument.length

-- The items of a command line. After a double dash everything is an operand. A setting takes the next
-- argument as its value, whatever it looks like.
def items : List String → Except UsageFault (List Item)
  | [] => .ok []
  | argument :: rest =>
    if argument = "--" then .ok (rest.map .operand)
    else if isOption argument then
      match readOption argument.toList with
      | .error fault => .error fault
      | .ok (here, none) => (items rest).map (here ++ ·)
      | .ok (here, some pending) =>
        match rest with
        | [] => .error (.valueMissing pending.name)
        | value :: rest => (items rest).map (here ++ .setting pending.setting value :: ·)
    else (items rest).map (.operand argument :: ·)

def hasFlag (given : List Item) (flag : Flag) : Bool := given.contains (.flag flag)

-- The value of a setting is the last one given.
def valueOf (given : List Item) (setting : Setting) : Option String :=
  given.reverse.findSome? fun
    | .setting found value => if found = setting then some value else none
    | _ => none

def operands (given : List Item) : List String :=
  given.filterMap fun
    | .operand text => some text
    | _ => none

def versionText : String := "rcc, version 1.0.0\n"

def helpText : String := "\n".intercalate
  ["Usage: rcc [OPTIONS] INPUT_FILE",
    "",
    "  Compile a C-subset source file to LLVM IR.",
    "",
    "  INPUT_FILE is the source file (.c) to compile.",
    "",
    "  Examples:",
    "      rcc add.c                    # Outputs add.ll",
    "      rcc add.c -o out.ll          # Specify output file",
    "      rcc add.c --ast              # Print the syntax tree",
    "      rcc add.c --run              # Run main in-process",
    "",
    "  Supported language:",
    "      - int only (64-bit)",
    "      - + * and = operators",
    "      - functions, parameters, calls and return",
    "",
    "  With --run nothing is written unless -o is given.",
    "",
    "Options:",
    "  -o, --output FILE   Output LLVM IR file (default: input.ll)",
    "  --tokens            Print tokens and exit (for debugging)",
    "  --ast               Print AST and exit (for debugging)",
    "  --run               Run main and exit with its value",
    "  --runner [jit|lli]  How --run executes the module  [default: jit]",
    "  --no-verify         Skip LLVM verification of the generated module",
    "  -v, --verbose       Verbose output",
    "  --version           Show the version and exit.",
    "  --help              Show this message and exit.",
    ""]

end WordC.Command
