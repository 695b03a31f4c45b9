import WordC.Command.Usage
import WordC.Compile.File
import WordC.Session

namespace WordC.Command

structure Request where
  input : Path
  output : Option Path
  runner : Runner
  tokens : Bool
  outline : Bool
  run : Bool
  verify : Bool
  verbose : Bool
deriving DecidableEq, Repr

def runnerOf (name : String) : Except UsageFault Runner :=
  (Runner.ofName (name.map Char.toLower)).mapError fun _ => .unknownRunner name

-- Whatever the operating system answers, a path that it refuses to look at is one where nothing is.
def checkInput (path : String) : Session (Except UsageFault Unit) :=
  .look path fun
    | .error (.system ..) => .done (.error (.inputAbsent path))
    | .error _ => .done (.error .pathUnusable)
    | .ok .directory => .done (.error (.inputIsDirectory path))
    | .ok .unreadable => .done (.error (.inputUnreadable path))
    | .ok .file => .done (.ok ())

def checkOutput (path : String) : Session (Except UsageFault Unit) :=
  .look path fun
    | .error (.system ..) => .done (.ok ())
    | .error _ => .done (.error .pathUnusable)
    | .ok .directory => .done (.error (.outputIsDirectory path))
    | .ok .unreadable => .done (.error (.outputUnreadable path))
    | .ok .file => .done (.ok ())

-- The check is made on the value that counts in the end.
def checkItem (given : List Item) : Item → Session (Except UsageFault Unit)
  | .flag _ | .operand _ => .done (.ok ())
  | .setting .output _ => ((valueOf given .output).map checkOutput).getD (.done (.ok ()))
  | .setting .runner _ =>
    .done (((valueOf given .runner).map fun name => (runnerOf name).map fun _ => ()).getD (.ok ()))

-- Settings are checked in the order given, and the input after all of them. The first fault ends it.
def checkItems (given : List Item) : List Item → Session (Except UsageFault Unit)
  | [] =>
    match operands given with
    | [] => .done (.error .inputMissing)
    | input :: _ => checkInput input
  | item :: rest =>
    (checkItem given item).andThen fun
      | .error fault => .done (.error fault)
      | .ok _ => checkItems given rest

def request (given : List Item) : Except UsageFault Request :=
  match operands given with
  | [] => .error .inputMissing
  | input :: [] => do
    let runner ← ((valueOf given .runner).map runnerOf).getD (.ok .jit)
    return {
      input := Path.ofText input
      output := (valueOf given .output).map Path.ofText
      runner
      tokens := hasFlag given .tokens
      outline := hasFlag given .outline
      run := hasFlag given .run
      verify := !hasFlag given .noVerify
      verbose := hasFlag given .verbose }
  | _ :: extra :: rest => .error (.extraArguments extra rest)

namespace Request

def options (r : Request) : Options := ⟨r.input.stem, r.verify, r.verbose⟩

def target (r : Request) : Option Path :=
  match r.output with
  | some path => some path
  | none => if r.run then none else some (r.input.withSuffix ".ll")

def detail (r : Request) (text : String) : String := if r.verbose then said text else ""

def logText (r : Request) (log : List LogRecord) : String :=
  if r.verbose then String.join (log.map fun record => record.text ++ "\n") else ""

def opening (r : Request) : String := r.detail s!"Compiling {r.input.text}..."

def succeeded (r : Request) (exit : Nat) (shown : String) (log : List LogRecord) : Report :=
  ⟨exit, shown, r.logText log⟩

def failed (r : Request) (shown : String) (log : List LogRecord) (failure : Failure) : Report :=
  let complaint := failure.complaint (if r.verbose then some traceHead else none)
  ⟨complaint.exit, shown, r.logText log ++ complaint.errors⟩

def shown (r : Request) (made : Logged String) : Report :=
  match made.result with
  | .error failure => r.failed r.opening made.log failure
  | .ok text => r.succeeded 0 (r.opening ++ text) made.log

def tokenListing (r : Request) (text : String) : Logged String :=
  (Stages.scan r.input.text text).andThen fun tokens => .pure (Token.listing tokens)

def treeOutline (r : Request) (text : String) : Logged String :=
  (Stages.scan r.input.text text).andThen fun tokens =>
  (Stages.parse r.input.text (Text.lines text) tokens).andThen fun program =>
  .pure (said program.outlineText)

def exitOf (value : Int) : Nat := (value % 256).toNat

def finish (r : Request) (before : String) (log : List LogRecord) (m : Module) : Session Report :=
  if r.run then
    .execute r.runner m fun ran =>
      match ran.result with
      | .error failure => .done (r.failed before (log ++ ran.log) failure)
      | .ok value => .done (r.succeeded (exitOf value) (before ++ said (toString value)) (log ++ ran.log))
  else .done (r.succeeded 0 before log)

def delivered (r : Request) (path : Path) (made : Compiled) : String :=
  r.detail s!"Wrote {made.module.text.length} bytes to {path.text}"
    ++ r.detail s!"Tokenized: {made.tokens.length} tokens"
    ++ r.detail s!"Parsed: {made.program.functions.length} functions"
    ++ said s!"Compiled {r.input.text} -> {path.text}"

def deliver (r : Request) (log : List LogRecord) (made : Compiled) : Session Report :=
  match r.target with
  | none => r.finish r.opening log made.module
  | some path =>
    .write path.text made.module.text fun
      | .error trouble => .done (r.failed r.opening log (.file trouble))
      | .ok _ => r.finish (r.opening ++ r.delivered path made) log made.module

def process (backend : Backend) (r : Request) (text : String) : Session Report :=
  if r.tokens then .done (r.shown (r.tokenListing text))
  else if r.outline then .done (r.shown (r.treeOutline text))
  else
    let made := compile backend r.options r.input.text text
    match made.result with
    | .error failure => .done (r.failed r.opening made.log failure)
    | .ok compiled => r.deliver made.log compiled

def perform (backend : Backend) (r : Request) : Session Report :=
  .read r.input.text fun
    | .error trouble => .done (r.failed r.opening [] (.file trouble))
    | .ok bytes =>
      match sourceText bytes with
      | .error failure => .done (r.failed r.opening [] failure)
      | .ok text => r.process backend text

end Request

-- Help and version are answered before anything is checked, whichever of them comes first.
def immediate : Item → Option Report
  | .flag .help => some ⟨0, helpText, ""⟩
  | .flag .version => some ⟨0, versionText, ""⟩
  | _ => none

def session (backend : Backend) (arguments : List String) : Session Report :=
  match items arguments with
  | .error fault => .done fault.report
  | .ok given =>
    match given.findSome? immediate with
    | some report => .done report
    | none =>
      (checkItems given given).andThen fun
        | .error fault => .done fault.report
        | .ok _ =>
          match request given with
          | .error fault => .done fault.report
          | .ok r => r.perform backend

end WordC.Command
