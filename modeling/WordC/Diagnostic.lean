import WordC.Token
import WordC.Text.Hex

namespace WordC

inductive BackendFailure where
  | rejected (reason : String)
  | jitFailed (reason : String)
  | entryMissing (entry : String)
  | entryTakes (entry : String) (count : Nat)
  | noAddress (entry : String)
  | noResult (entry reason : String)
  | toolMissing (tool : String)
  | toolKilled (signal : Nat) (errors : String)
deriving DecidableEq, Repr

inductive Stage where
  | unspecified
  | scanning
  | parsing
  | lowering
  | backend
deriving DecidableEq, Repr

-- What is wrong with a text, a token list, a program or a module. A problem with a token can be raised to an
-- error of the program text; the line that was known before goes with it.
inductive Problem where
  | strayCharacter (c : Char)
  | literalTooLarge (digits : String)
  | unmetExpectation (wanted : String) (found : Option Token)
  | unexpectedToken (found : Token) (wanted : Option String) (advice : Option String)
  | unexpectedEnd (wanted : Option String)
  | escalated (cause : Problem) (causeLine : Option String)
  | undeclared (name : Name)
  | unknownFunction (name : Name)
  | wrongArgumentCount (function : Name) (expected actual : Int)
  | notAssignable
  | redefinition (function : Name) (first : Option Location)
  | backend (failure : BackendFailure)
  | stated (stage : Stage) (message : String) (advice : Option String)
deriving DecidableEq, Repr

def BackendFailure.message : BackendFailure → String
  | .rejected reason => s!"LLVM rejected module: {reason}"
  | .jitFailed reason => s!"JIT compilation failed: {reason}"
  | .entryMissing entry => s!"entry function '{entry}' not found"
  | .entryTakes entry count => s!"entry function '{entry}' takes {count} parameters, expected 0"
  | .noAddress entry => s!"entry function '{entry}' has no address"
  | .noResult entry reason => s!"entry function '{entry}' has no result: {reason}"
  | .toolMissing tool => s!"'{tool}' not found; install LLVM or use the JIT runner"
  | .toolKilled signal errors => s!"lli terminated by signal {signal}: {errors}"

namespace Problem

def foundText : Option Token → String
  | none => "end of input"
  | some token => token.lexeme.describe

def message : Problem → String
  | .strayCharacter c =>
    s!"unexpected character '{String.singleton c}' (0x{Text.hexUpper 2 c.toNat})"
  | .literalTooLarge digits => s!"integer literal '{digits}' does not fit in 64 bits"
  | .unmetExpectation wanted found => s!"expected {wanted}, found {foundText found}"
  | .escalated cause _ => cause.message
  | .unexpectedToken found _ _ => s!"unexpected token {found.lexeme.describe}"
  | .unexpectedEnd _ => "unexpected end of input"
  | .undeclared name => s!"undeclared identifier '{name.text}'"
  | .unknownFunction name => s!"unknown function '{name.text}'"
  | .wrongArgumentCount function expected actual =>
    let noun := if expected = 1 then "argument" else "arguments"
    s!"'{function.text}' expects {expected} {noun}, got {actual}"
  | .notAssignable => "expression is not assignable"
  | .redefinition function _ => s!"redefinition of function '{function.text}'"
  | .backend failure => failure.message
  | .stated _ message _ => message

-- What was wanted, as advice. An empty wish is none.
def wantedHint : Option String → Option String
  | none => none
  | some wanted => if wanted.isEmpty then none else some s!"expected {wanted}"

-- Advice that goes with the problem. It may be empty, and is then not shown.
def hint : Problem → Option String
  | .strayCharacter c =>
    if c = '[' || c = ']' then some "arrays are not supported"
    else if c = '-' || c = '/' then some "only '+', '*' and '=' operators are supported"
    else none
  | .literalTooLarge _ => some "the largest literal is 18446744073709551615"
  | .unexpectedToken _ wanted advice =>
    match advice with
    | some text => some text
    | none => wantedHint wanted
  | .unexpectedEnd wanted => wantedHint wanted
  | .undeclared name => some s!"declare it first with 'int {name.text};'"
  | .notAssignable => some "left side of assignment must be a declared variable"
  | .redefinition function first =>
    first.map fun place => s!"'{function.text}' was first defined at {place.text}"
  | .stated _ _ advice => advice
  | _ => none

-- What was wanted and what stood there instead, for problems with a token.
def demand? : Problem → Option (Option String × Option Token)
  | .unmetExpectation wanted found => some (some wanted, found)
  | .unexpectedToken found wanted _ => some (wanted, some found)
  | .escalated cause _ => cause.demand?
  | _ => none

end Problem

-- A problem with the place it concerns and the line of text that stands there. `led` says that a failed
-- token expectation led to it.
structure Diagnostic where
  problem : Problem
  location : Option Location
  sourceLine : Option String
  led : Bool := false
deriving DecidableEq, Repr

namespace Diagnostic

def message (d : Diagnostic) : String := d.problem.message
def hint (d : Diagnostic) : Option String := d.problem.hint

def headLine (d : Diagnostic) : String :=
  match d.location with
  | none => s!"error: {d.message}"
  | some place => s!"{place.text}: error: {d.message}"

def margin : String := "    "

-- The line of text with a caret under its column. A column before the first one gets no caret.
def excerpt (d : Diagnostic) : List String :=
  match d.location, d.sourceLine with
  | some place, some line =>
    let caret := margin ++ String.ofList (List.replicate (place.column.toNat - 1) ' ') ++ "^"
    (margin ++ line) :: (if 0 < place.column then [caret] else [])
  | _, _ => []

def hintLine (d : Diagnostic) : List String :=
  match d.hint with
  | none => []
  | some text => if text.isEmpty then [] else [s!"hint: {text}"]

def text (d : Diagnostic) : String :=
  "\n".intercalate (d.headLine :: (d.excerpt ++ d.hintLine))

def unmetExpectation (wanted : String) (found : Option Token) : Diagnostic :=
  { problem := .unmetExpectation wanted found
    location := found.map Token.location
    sourceLine := none }

-- A problem with a token, raised to an error of the program text, with the line it is on. Other problems
-- cannot be raised.
def escalate (cause : Diagnostic) (sourceLine : Option String) : Option Diagnostic :=
  cause.problem.demand?.map fun _ =>
    { problem := .escalated cause.problem cause.sourceLine, location := cause.location, sourceLine }

def cause? (d : Diagnostic) : Option Diagnostic :=
  match d.problem with
  | .escalated cause causeLine => some ⟨cause, d.location, causeLine, false⟩
  | _ => none

def mismatch (wanted : String) (found : Option Token) (sourceLine : Option String) : Diagnostic :=
  { problem := .escalated (.unmetExpectation wanted found) none
    location := found.map Token.location
    sourceLine }

def unexpectedToken (found : Token) (wanted advice sourceLine : Option String) : Diagnostic :=
  { problem := .unexpectedToken found wanted advice
    location := some found.location
    sourceLine }

def unexpectedEnd (wanted : Option String) (location : Option Location) : Diagnostic :=
  { problem := .unexpectedEnd wanted, location, sourceLine := none }

def redefinition (function : Name) (location first : Option Location) : Diagnostic :=
  { problem := .redefinition function first, location, sourceLine := none }

def ofBackend (failure : BackendFailure) : Diagnostic :=
  { problem := .backend failure, location := none, sourceLine := none }

end Diagnostic

end WordC
