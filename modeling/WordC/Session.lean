import WordC.Runner

namespace WordC

-- Work that asks things of the world outside and goes on with the answers.
inductive Session (α : Type) where
  | done (result : α)
  | look (path : String) (next : Except Trouble FileSort → Session α)
  | read (path : String) (next : Except Trouble (List UInt8) → Session α)
  | write (path content : String) (next : Except Trouble Unit → Session α)
  | execute (runner : Runner) (m : Module) (next : Logged Int → Session α)

namespace Session

def andThen : Session α → (α → Session β) → Session β
  | .done result, after => after result
  | .look path next, after => .look path fun answer => (next answer).andThen after
  | .read path next, after => .read path fun answer => (next answer).andThen after
  | .write path content next, after => .write path content fun answer => (next answer).andThen after
  | .execute runner m next, after => .execute runner m fun answer => (next answer).andThen after

def encode (text : String) : List UInt8 := text.toUTF8.toList

-- The answers of a file system, with what running a module gives.
def play (execute : Runner → Module → Logged Int) : Session α → FileSystem → α × FileSystem
  | .done result, fs => (result, fs)
  | .look path next, fs => (next ((fs.look path).mapError (FileTrouble.answer path))).play execute fs
  | .read path next, fs => (next ((fs.read path).mapError (FileTrouble.answer path))).play execute fs
  | .write path content next, fs =>
    match fs.write path (encode content) with
    | .error trouble => (next (.error (trouble.answer path))).play execute fs
    | .ok later => (next (.ok ())).play execute later
  | .execute runner m next, fs => (next (execute runner m)).play execute fs

def playOn (host : Host) (session : Session α) (fs : FileSystem) : α × FileSystem :=
  session.play (fun runner m => runner.run host m usualEntry) fs

end Session

end WordC
