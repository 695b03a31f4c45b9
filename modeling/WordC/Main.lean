import WordC.Assembly.Backend
import WordC.Command

namespace WordC

def troubleOf (path : String) : IO.Error → Trouble
  | .userError words => .other words
  | .unexpectedEof => .other "unexpected end of file"
  | .alreadyExists _ code words | .inappropriateType _ code words | .interrupted _ code words
  | .invalidArgument _ code words | .noFileOrDirectory _ code words | .noSuchThing _ code words
  | .permissionDenied _ code words | .resourceExhausted _ code words | .hardwareFault code words
  | .illegalOperation code words | .otherError code words | .protocolError code words
  | .resourceBusy code words | .resourceVanished code words | .timeExpired code words
  | .unsatisfiedConstraints code words | .unsupportedOperation code words =>
    .system code.toNat words (some path)

def readBytes (path : String) : IO (Except Trouble (List UInt8)) := do
  try
    let bytes ← IO.FS.readBinFile path
    return .ok bytes.toList
  catch error => return .error (troubleOf path error)

def writeText (path content : String) : IO (Except Trouble Unit) := do
  try
    IO.FS.writeFile path content
    return .ok ()
  catch error => return .error (troubleOf path error)

-- What cannot be read because it is a directory is one, and what is denied is there all the same.
def lookAt (path : String) : IO (Except Trouble FileSort) := do
  match ← readBytes path with
  | .ok _ => return .ok .file
  | .error (.system 21 _ _) => return .ok .directory
  | .error (.system 13 _ _) => return .ok .unreadable
  | .error trouble => return .error trouble

def bareHost : Host := ⟨.builtIn, fun _ => none, ⟨.empty, []⟩, "."⟩

def Session.conduct : Session α → IO α
  | .done result => return result
  | .look path next => do (next (← lookAt path)).conduct
  | .read path next => do (next (← readBytes path)).conduct
  | .write path content next => do (next (← writeText path content)).conduct
  | .execute runner m next => (next (runner.run bareHost m usualEntry)).conduct

end WordC

def main (arguments : List String) : IO UInt32 := do
  let report ← (WordC.Command.session .builtIn arguments).conduct
  IO.print report.output
  IO.eprint report.errors
  return report.exit.toUInt32
