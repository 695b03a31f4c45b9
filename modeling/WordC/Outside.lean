import WordC.Datum

namespace WordC

inductive SystemTrouble where
  | unspecified
  | notFound
  | denied
  | isDirectory
  | wouldBlock
  | other
deriving DecidableEq, Repr

def SystemTrouble.ofCode (code : Int) : SystemTrouble :=
  if code = 2 then .notFound
  else if code = 1 || code = 13 then .denied
  else if code = 21 then .isDirectory
  else if code = 11 || code = 114 || code = 115 then .wouldBlock
  else .unspecified

-- An error that does not come from this library, with what it was made from.
inductive Outside where
  | value (given : List Datum)
  | key (given : List Datum)
  | system (trouble : SystemTrouble) (given : List Datum)
  | parameter (message : String)
  | usage (message : String)
  | other (given : List Datum)

inductive Unbuilt where
  | wrongKind
  | countTooLarge

def Unbuilt.countText : String := "cannot fit 'int' into an index-sized integer"

namespace Outside

-- Trouble that is not specified goes by its number, if it comes with a number and a text.
def systemTrouble (trouble : SystemTrouble) (given : List Datum) : SystemTrouble :=
  match trouble, given with
  | .unspecified, code :: _ :: rest =>
    if rest.length ≤ 3 then (code.int?.map SystemTrouble.ofCode).getD .unspecified else .unspecified
  | _, _ => trouble

def isCount (value : Int) : Bool := -0x8000000000000000 ≤ value && value < 0x8000000000000000

-- An error about the operating system. Where something would block, a number in the third place is a count.
def ofSystem (trouble : SystemTrouble) (given : List Datum) : Except Unbuilt Outside :=
  let trouble := systemTrouble trouble given
  match trouble, given with
  | .wouldBlock, _ :: _ :: third :: rest =>
    if 2 < rest.length then .ok (.system trouble given)
    else if third.isInexact then .error .wrongKind
    else if third.int?.all isCount then .ok (.system trouble given)
    else .error .countTooLarge
  | _, _ => .ok (.system trouble given)

-- Several values stand in brackets, one stands alone.
def givenText : List Datum → String
  | [] => ""
  | [only] => only.alone
  | given => "(" ++ ", ".intercalate (Datum.allAmong given) ++ ")"

-- The files that a trouble is about: the third value, and the fifth. Where something would block, a number in
-- the third place is no file.
def filesText (trouble : SystemTrouble) (rest : List Datum) : String :=
  match rest with
  | [] => ""
  | file :: more =>
    if file.isNothing || (trouble = .wouldBlock && file.int?.isSome) then ""
    else ": " ++ file.among ++ (match more with
      | [_, second] => if second.isNothing then "" else " -> " ++ second.among
      | _ => "")

def message : Outside → String
  | .value given | .other given => givenText given
  | .key [only] => only.among
  | .key given => givenText given
  | .system trouble given =>
    match given with
    | code :: text :: rest =>
      if rest.length ≤ 3 then
        "[Errno " ++ code.alone ++ "] " ++ text.alone ++ filesText trouble rest
      else givenText given
    | _ => givenText given
  | .parameter message | .usage message => message

end Outside

end WordC
