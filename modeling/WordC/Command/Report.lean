import WordC.Failure
import WordC.Text.Controls

namespace WordC

-- What a run of the command leaves behind: its exit status and the text on its two output channels.
structure Report where
  exit : Nat
  output : String
  errors : String
deriving DecidableEq, Repr

-- What the command says is a line, or several, without control sequences of terminals.
def said (text : String) : String := Text.plain text ++ "\n"

-- Who has to act on a failure: the author of the program, the one who gave the arguments, or neither.
inductive Blame where
  | program
  | arguments
  | internal
deriving DecidableEq, Repr

namespace Blame

def exit : Blame → Nat
  | .program => 1
  | .arguments => 2
  | .internal => 3

-- The message on the error channel. Diagnostics say of themselves that they are errors.
def text (blame : Blame) (message : String) : String :=
  match blame with
  | .program => said message
  | .arguments => said ("Error: " ++ message)
  | .internal => said ("Internal error: " ++ message)

-- The whole complaint. For an internal error the trace of its origin follows where details are wanted.
def complaint (blame : Blame) (message : String) (trace : Option String) : Report :=
  let details := if blame = .internal then trace.getD "" else ""
  ⟨blame.exit, "", blame.text message ++ details⟩

end Blame

-- Some kinds of errors are put down to the arguments, all others to the command itself.
def Outside.blame : Outside → Blame
  | .value _ | .parameter _ => .arguments
  | .system .notFound _ | .system .denied _ | .system .isDirectory _ => .arguments
  | .key _ | .system _ _ | .usage _ | .other _ => .internal

def Outside.complaint (error : Outside) (trace : Option String) : Report :=
  error.blame.complaint error.message trace

namespace Failure

def outside? (failure : Failure) : Option Outside :=
  match failure with
  | .diagnostic _ => none
  | .overlongDigitRun _ | .undecodable _ | .unknownRunner _ => some (.value [.text failure.message])
  | .sourceMissing _ => some (.system .notFound [.text failure.message])
  | .file trouble => some trouble.outside
  | .defective _ => some (.other [.text failure.message])

def complaint (failure : Failure) (trace : Option String) : Report :=
  match failure.outside? with
  | none => Blame.program.complaint failure.message trace
  | some error => error.complaint trace

end Failure

def traceHead : String := "Traceback (most recent call last):\n"

end WordC
