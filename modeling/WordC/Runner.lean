import WordC.Compile
import WordC.FileSystem
import WordC.Text.Blank

namespace WordC

inductive Runner where
  | jit
  | lli (tool : String)
deriving DecidableEq, Repr

def Runner.name : Runner → String
  | .jit => "jit"
  | .lli _ => "lli"

def Runner.usualTool : String := "lli"

def Runner.ofName (name : String) : Except Failure Runner :=
  if name = "jit" then .ok .jit
  else if name = "lli" then .ok (.lli usualTool)
  else .error (.unknownRunner name)

inductive Ending where
  | exited (status : Nat)
  | killed (signal : Nat)
deriving DecidableEq, Repr

structure ToolRun where
  ending : Ending
  errors : String
deriving DecidableEq, Repr

-- The world outside: the backend, the tools that can be called by name with what happens when they are started, the
-- files around them, and where temporary files go.
structure Host where
  backend : Backend
  tools : String → Option ToolRun
  files : FileSystem
  temporaryDirectory : String

namespace Host

def startByName (host : Host) (name : String) : Except FileTrouble ToolRun :=
  if name.toList.contains '\x00' then .error .nullCharacter
  else if name = "" || name = "." || name = ".." then .error .denied
  else if FileSystem.longestName < name.utf8ByteSize then .error .nameTooLong
  else match host.tools name with
  | none => .error .notFound
  | some run => .ok run

-- A tool that is given by a path would have to be at its place, where neither a directory nor a plain file will do.
def start (host : Host) (tool : String) : Except FileTrouble ToolRun :=
  if tool.toList.contains Path.separator then
    match host.files.locate tool with
    | .error trouble => .error trouble
    | .ok _ => .error .denied
  else host.startByName tool

end Host

structure Launch where
  tool : String
  option : String
  fileName : String
  content : String
deriving DecidableEq, Repr

namespace Launch

def command (launch : Launch) (host : Host) : String :=
  s!"{launch.tool} {launch.option} {host.temporaryDirectory}/{launch.fileName}"

def conclude (launch : Launch) : Except FileTrouble ToolRun → Except Failure Nat
  | .error .notFound => .error (.diagnostic (.ofBackend (.toolMissing launch.tool)))
  | .error trouble => .error (.file (trouble.answer launch.tool))
  | .ok run =>
    match run.ending with
    | .exited status => .ok (status % 256)
    | .killed signal =>
      let said := Text.strip (String.ofList (Text.unifyLineEnds run.errors.toList))
      .error (.diagnostic (.ofBackend (.toolKilled signal said)))

end Launch

namespace Runner

def hasEntry (m : Module) (entry : String) : Bool := m.functionNames.contains (some entry)

def launch (tool : String) (m : Module) (entry : String) : Except BackendFailure Launch :=
  if hasEntry m entry then .ok ⟨tool, s!"--entry-function={entry}", "module.ll", m.text⟩
  else .error (.entryMissing entry)

def runLli (host : Host) (tool : String) (m : Module) (entry : String) : Logged Int :=
  (Logged.ofBackend (launch tool m entry)).andThen fun launch =>
  (Logged.note runnerPart s!"running: {launch.command host}").andThen fun _ =>
  (Logged.ofExcept (launch.conclude (host.start tool))).andThen fun status =>
  (Logged.note runnerPart s!"lli exited with status {status}").andThen fun _ =>
  .pure status

def checkEntry (m : Module) (entry : String) : Except BackendFailure Unit :=
  match m.find? (some entry) with
  | none => .error (.entryMissing entry)
  | some code => if code.arity = 0 then .ok () else .error (.entryTakes entry code.arity)

def runJit (backend : Backend) (m : Module) (entry : String) : Logged Int :=
  (Logged.ofBackend (checkEntry m entry)).andThen fun _ =>
  (Logged.ofBackend (backend.load m)).andThen fun _ =>
  (Logged.ofBackend (backend.address m entry)).andThen fun address =>
  (Logged.note runnerPart s!"JIT calling '{entry}' at 0x{Text.hexUpper 1 address}").andThen fun _ =>
  (Logged.ofBackend (backend.call m entry)).andThen fun result =>
  (Logged.note runnerPart s!"'{entry}' returned {result}").andThen fun _ =>
  .pure result

def run (host : Host) (m : Module) (entry : String) : Runner → Logged Int
  | .jit => runJit host.backend m entry
  | .lli tool => runLli host tool m entry

end Runner

def usualEntry : String := "main"

def compileAndRun (host : Host) (runner : Runner) (file text : String) : Logged Int :=
  (compile host.backend {} file text).andThen fun compiled =>
  (Logged.note compilerPart s!"running {file} with {runner.name} runner").andThen fun _ =>
  runner.run host compiled.module usualEntry

end WordC
