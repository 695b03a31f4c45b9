import WordC.Backend
import WordC.Failure
import WordC.Module.Text
import WordC.Tree.Outline

namespace WordC

structure LogRecord where
  part : String
  message : String
deriving DecidableEq, Repr

def LogRecord.text (record : LogRecord) : String := s!"DEBUG: {record.part}: {record.message}"

structure Logged (α : Type) where
  log : List LogRecord
  result : Except Failure α

namespace Logged

def pure (result : α) : Logged α := ⟨[], .ok result⟩

def fail (failure : Failure) : Logged α := ⟨[], .error failure⟩

def ofExcept (result : Except Failure α) : Logged α := ⟨[], result⟩

-- The log of the first part is kept also when it failed.
def andThen (first : Logged α) (next : α → Logged β) : Logged β :=
  match first.result with
  | .error failure => ⟨first.log, .error failure⟩
  | .ok reached =>
    let later := next reached
    ⟨first.log ++ later.log, later.result⟩

def ofBackend (result : Except BackendFailure α) : Logged α :=
  .ofExcept (result.mapError fun failure => Failure.diagnostic (.ofBackend failure))

def note (part message : String) : Logged Unit := ⟨[⟨part, message⟩], .ok ()⟩

def noteIf (condition : Bool) (part message : String) : Logged Unit :=
  if condition then note part message else pure ()

end Logged

def scannerPart : String := "rcc.lexer"
def parserPart : String := "rcc.parser"
def loweringPart : String := "rcc.codegen"
def compilerPart : String := "rcc.compiler"
def runnerPart : String := "rcc.runner"

def tokensFrom (file source : String) (state : Scan.State) : Except Failure (List Token) × Scan.State :=
  let scanned := state.scan
  match scanned.stopped with
  | none => (.ok (scanned.tokens file), scanned.state)
  | some (place, fault) => (.error (fault.diagnose file (scanned.state.currentLine source) place), scanned.state)

def tokenize (file text : String) : Except Failure (List Token) :=
  (tokensFrom file text (.start text)).1

def parseTokens (lines : List String) (tokens : List Token) : Except Failure Program :=
  (Parse.program tokens).mapError fun refusal => .diagnostic (refusal.diagnose tokens lines)

def parseText (file text : String) : Except Failure Program := do
  let tokens ← tokenize file text
  parseTokens (Text.lines text) tokens

def lowerTree (moduleName : String) (lines : List String) (tree : Node) : Except Failure Module :=
  (Lower.program moduleName tree).mapError (Lower.Rejection.diagnose lines)

-- What has no name cannot be written down.
def writableTree (moduleName : String) (lines : List String) (tree : Node) : Except Failure Module := do
  let module ← lowerTree moduleName lines tree
  if tree.definesUnnamed then .error (.defective .unnamed) else .ok module

def lowerProgram (moduleName : String) (lines : List String) (p : Program) : Except Failure Module :=
  lowerTree moduleName lines p.node

structure Options where
  moduleName : String := "rcc"
  verify : Bool := true
  trace : Bool := false
deriving DecidableEq, Repr

-- An empty module name stands for the usual one.
def Options.normalize (options : Options) : Options :=
  if options.moduleName.isEmpty then { options with moduleName := "rcc" } else options

structure Artifacts where
  file : String := ""
  tokens : List Token := []
  program : Option Program := none
  module : Option Module := none

namespace Artifacts

def tokenListing (made : Artifacts) : String := Token.listing made.tokens

def outlineText (made : Artifacts) : String := (made.program.map Program.outlineText).getD ""

def moduleText (made : Artifacts) : String := (made.module.map Module.text).getD ""

end Artifacts

structure Compiled where
  file : String
  tokens : List Token
  program : Program
  module : Module

def Compiled.artifacts (compiled : Compiled) : Artifacts :=
  ⟨compiled.file, compiled.tokens, some compiled.program, some compiled.module⟩

namespace Stages

def scan (file text : String) : Logged (List Token) :=
  (Logged.ofExcept (tokenize file text)).andThen fun tokens =>
    (Logged.note scannerPart s!"{file}: {tokens.length} tokens").andThen fun _ => .pure tokens

def parse (file : String) (lines : List String) (tokens : List Token) : Logged Program :=
  (Logged.ofExcept (parseTokens lines tokens)).andThen fun program =>
    (Logged.note parserPart s!"{file}: parsed {program.functions.length} function(s)").andThen fun _ =>
      .pure program

def loweredNote (f : Function) : LogRecord :=
  ⟨loweringPart, s!"emitted function '{f.name.text}' ({(Lower.variableNames f).length} slot(s))"⟩

-- Every function that is lowered is logged, also when a later one is rejected.
def lower (moduleName : String) (lines : List String) (p : Program) : Logged Module :=
  match lowerProgram moduleName lines p with
  | .error failure => ⟨(Lower.completed p).map loweredNote, .error failure⟩
  | .ok module =>
    let emitted : LogRecord :=
      ⟨loweringPart, s!"emitted module '{moduleName}' with {p.functions.length} function(s)"⟩
    ⟨p.functions.map loweredNote ++ [emitted], .ok module⟩

def verify (backend : Backend) (file : String) (module : Module) : Logged Unit :=
  (Logged.ofBackend (backend.verify module)).andThen fun _ =>
    .note compilerPart s!"{file}: module verified"

end Stages

def compile (backend : Backend) (given : Options) (file text : String) : Logged Compiled :=
  let options := given.normalize
  let lines := Text.lines text
  (Stages.scan file text).andThen fun tokens =>
  (Logged.noteIf options.trace compilerPart s!"tokens:\n{Token.listing tokens}").andThen fun _ =>
  (Stages.parse file lines tokens).andThen fun program =>
  (Logged.noteIf options.trace compilerPart s!"ast:\n{program.outlineText}").andThen fun _ =>
  (Stages.lower options.moduleName lines program).andThen fun module =>
  (if options.verify then Stages.verify backend file module else .pure ()).andThen fun _ =>
  .pure ⟨file, tokens, program, module⟩

end WordC
