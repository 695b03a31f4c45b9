import WordC.Bindings
import WordC.Failure
import WordC.Path

namespace WordC

inductive Entry where
  | directory
  | file (content : List UInt8)
deriving DecidableEq, Repr

-- The names that lead to a place from the top, its own name last.
abbrev Place := List String

structure FileSystem where
  entries : Bindings Place Entry
  workingDirectory : Place
deriving Repr

inductive FileSort where
  | directory
  | unreadable
  | file
deriving DecidableEq, Repr

def Entry.sort : Entry → FileSort
  | .directory => .directory
  | .file _ => .file

-- Why a path does not lead to a file, where there are only directories and plain files.
inductive FileTrouble where
  | notFound
  | notDirectory
  | isDirectory
  | nameTooLong
  | denied
  | nullCharacter
deriving DecidableEq, Repr

-- A path with a null character is refused before the operating system sees it, and so has no number.
def FileTrouble.answer (path : String) : FileTrouble → Trouble
  | .notFound => .system 2 "No such file or directory" (some path)
  | .denied => .system 13 "Permission denied" (some path)
  | .notDirectory => .system 20 "Not a directory" (some path)
  | .isDirectory => .system 21 "Is a directory" (some path)
  | .nameTooLong => .system 36 "File name too long" (some path)
  | .nullCharacter => .value "embedded null byte"

namespace FileSystem

-- The longest name in a directory, and the longest text of a path, in bytes.
def longestName : Nat := 255
def longestPath : Nat := 4095

-- The top is always a directory.
def entry? (fs : FileSystem) (place : Place) : Option Entry :=
  if place.isEmpty then some .directory else fs.entries.lookup place

def isDirectory (fs : FileSystem) (place : Place) : Bool := fs.entry? place = some .directory

-- Follow the pieces of a path. Each one is looked up in a directory; above the top is the top itself.
def follow (fs : FileSystem) (place : Place) : List String → Except FileTrouble Place
  | [] => .ok place
  | piece :: rest =>
    if !fs.isDirectory place then .error .notDirectory
    else if piece = "" || piece = "." then follow fs place rest
    else if piece = ".." then follow fs place.dropLast rest
    else if longestName < piece.utf8ByteSize then .error .nameTooLong
    else if (fs.entry? (place ++ [piece])).isNone then .error .notFound
    else follow fs (place ++ [piece]) rest

def origin (fs : FileSystem) (path : String) : Place :=
  if path.toList.head? = some Path.separator then [] else fs.workingDirectory

def locate (fs : FileSystem) (path : String) : Except FileTrouble Place :=
  if path.toList.contains '\x00' then .error .nullCharacter
  else if path.isEmpty then .error .notFound
  else if longestPath < path.utf8ByteSize then .error .nameTooLong
  else follow fs (fs.origin path) (Path.piecesOf path)

def look (fs : FileSystem) (path : String) : Except FileTrouble FileSort :=
  match fs.locate path with
  | .error trouble => .error trouble
  | .ok place =>
    match fs.entry? place with
    | none => .error .notFound
    | some entry => .ok entry.sort

def read (fs : FileSystem) (path : String) : Except FileTrouble (List UInt8) :=
  match fs.locate path with
  | .error trouble => .error trouble
  | .ok place =>
    match fs.entry? place with
    | none => .error .notFound
    | some .directory => .error .isDirectory
    | some (.file content) => .ok content

-- A file that is to be written need not be there yet, but its directory has to be.
def locateForWriting (fs : FileSystem) (path : String) : Except FileTrouble Place :=
  match fs.locate path with
  | .ok place => if fs.isDirectory place then .error .isDirectory else .ok place
  | .error .notFound =>
    let pieces := Path.piecesOf path
    match follow fs (fs.origin path) pieces.dropLast, pieces.getLast? with
    | .ok directory, some name =>
      if name = "" then .error .notFound else .ok (directory ++ [name])
    | _, _ => .error .notFound
  | .error trouble => .error trouble

def withDirectory (fs : FileSystem) (place : Place) : FileSystem :=
  (List.range place.length).foldl (fun fs n =>
    let directory := place.take (n + 1)
    if (fs.entry? directory).isSome then fs
    else { fs with entries := fs.entries.bind directory .directory }) fs

def withFile (fs : FileSystem) (place : Place) (content : List UInt8) : FileSystem :=
  let ready := fs.withDirectory place.dropLast
  { ready with entries := ready.entries.bind place (.file content) }

-- The files below the working directory that are new or have a new content.
def changes (before after : FileSystem) : List (Place × List UInt8) :=
  let top := after.workingDirectory
  after.entries.entries.filterMap fun (place, entry) =>
    match entry with
    | .directory => none
    | .file content =>
      if before.entry? place = some entry || place.take top.length ≠ top then none
      else some (place.drop top.length, content)

def write (fs : FileSystem) (path : String) (content : List UInt8) : Except FileTrouble FileSystem :=
  match fs.locateForWriting path with
  | .error trouble => .error trouble
  | .ok place => .ok { fs with entries := fs.entries.bind place (.file content) }

end FileSystem

end WordC
