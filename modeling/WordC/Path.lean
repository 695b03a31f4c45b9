namespace WordC

-- The way to a file. Empty names and single dots lead nowhere and are left out; double dots stay.
structure Path where
  root : String
  parts : List String
deriving DecidableEq, Repr

namespace Path

def separator : Char := '/'

def pieces : List Char → List (List Char)
  | [] => [[]]
  | c :: rest =>
    if c = separator then [] :: pieces rest
    else match pieces rest with
      | [] => [[c]]
      | piece :: more => (c :: piece) :: more

def piecesOf (text : String) : List String := (pieces text.toList).map String.ofList

-- Two separators in front are told apart from one. Three or more are the same as one.
def rootOf (text : String) : String :=
  match (text.toList.takeWhile (· = separator)).length with
  | 0 => ""
  | 2 => "//"
  | _ => "/"

def ofText (text : String) : Path :=
  ⟨rootOf text, (piecesOf text).filter fun piece => piece ≠ "" && piece ≠ "."⟩

def text (path : Path) : String :=
  if path.root = "" && path.parts.isEmpty then "."
  else path.root ++ "/".intercalate path.parts

def name (path : Path) : String := path.parts.getLast?.getD ""

-- The name cut before its last dot, if that dot is neither its first nor its last character.
def splitName (name : List Char) : List Char × List Char :=
  let after := (name.reverse.takeWhile (· ≠ '.')).length
  let before := name.length - after - 1
  if 0 < after && 0 < before && after < name.length then (name.take before, name.drop before)
  else (name, [])

def stem (path : Path) : String := String.ofList (splitName path.name.toList).1

def withSuffix (path : Path) (suffix : String) : Path :=
  { path with parts := path.parts.dropLast ++ [path.stem ++ suffix] }

end Path

end WordC
