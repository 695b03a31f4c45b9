import WordC.Session

namespace WordC

-- The text that the bytes of a source file stand for. All line ends become line feeds.
def sourceText (bytes : List UInt8) : Except Failure String :=
  match Text.Utf8.decode bytes with
  | .error fault => .error (.undecodable fault)
  | .ok chars => .ok (String.ofList (Text.unifyLineEnds chars))

-- Numbers with which the operating system says that nothing is there, a loop of links included.
def Trouble.hidesFile : Trouble → Bool
  | .system code _ _ => [2, 9, 20, 40].contains code
  | .value _ => true
  | .other _ => false

-- The tokens bear the path as it was spelled.
def compileFile (backend : Backend) (options : Options) (path : String) : Session (Logged Compiled) :=
  let shown := (Path.ofText path).text
  .look shown fun
    | .error trouble => .done (.fail (if trouble.hidesFile then .sourceMissing path else .file trouble))
    | .ok _ =>
      .read shown fun
        | .error trouble => .done (.fail (.file trouble))
        | .ok bytes =>
          .done ((Logged.ofExcept (sourceText bytes)).andThen fun text => compile backend options path text)

def writeModule (path : String) (m : Module) : Session (Except Failure Unit) :=
  .write (Path.ofText path).text m.text fun
    | .error trouble => .done (.error (.file trouble))
    | .ok _ => .done (.ok ())

-- Nothing is written where the output path is empty.
def compileFileTo (backend : Backend) (path output : String) : Session (Except Failure Module) :=
  (compileFile backend {} path).andThen fun compiled =>
    match compiled.result with
    | .error failure => .done (.error failure)
    | .ok made =>
      if output.isEmpty then .done (.ok made.module)
      else (writeModule output made.module).andThen fun written =>
        .done (written.map fun _ => made.module)

end WordC
