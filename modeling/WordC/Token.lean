import WordC.Location
import WordC.Name
import WordC.Text.Quoted

namespace WordC

inductive Kind where
  | number
  | identifier
  | typeName
  | operator
  | bracket
  | parenthesis
  | comma
  | semicolon
  | ret
deriving DecidableEq, Repr

-- A lexical element without its place. Numbers carry a value, the others a spelling. Read from a text,
-- commas, semicolons and the return word carry none, and all others carry one.
inductive Lexeme where
  | number (value : Option Int)
  | identifier (name : Name)
  | typeName (name : Name)
  | operator (symbol : Option String)
  | bracket (symbol : Option String)
  | parenthesis (symbol : Option String)
  | comma (payload : Option String)
  | semicolon (payload : Option String)
  | ret (payload : Option String)
deriving DecidableEq, Repr

structure Token where
  lexeme : Lexeme
  location : Location
deriving DecidableEq, Repr

def Kind.all : List Kind :=
  [.number, .identifier, .typeName, .operator, .bracket, .parenthesis, .comma, .semicolon, .ret]

def Kind.label : Kind → String
  | .number => "number"
  | .identifier => "identifier"
  | .typeName => "type"
  | .operator => "operator"
  | .bracket => "bracket"
  | .parenthesis => "parenthesis"
  | .comma => "comma"
  | .semicolon => "semicolon"
  | .ret => "return"

def Kind.ofLabel? (label : String) : Option Kind :=
  Kind.all.find? fun kind => kind.label = label

namespace Lexeme

def kind : Lexeme → Kind
  | .number _ => .number
  | .identifier _ => .identifier
  | .typeName _ => .typeName
  | .operator _ => .operator
  | .bracket _ => .bracket
  | .parenthesis _ => .parenthesis
  | .comma _ => .comma
  | .semicolon _ => .semicolon
  | .ret _ => .ret

def name : Lexeme → Name
  | .number _ => none
  | .identifier s | .typeName s | .operator s | .bracket s | .parenthesis s
  | .comma s | .semicolon s | .ret s => s

def payload : Lexeme → Option String
  | .number value => value.map toString
  | other => other.name

-- The payload in the form that tells numbers and spellings apart.
def quotedPayload : Lexeme → Option String
  | .number value => value.map toString
  | other => other.name.map Text.quoted

def text (lexeme : Lexeme) : String :=
  match lexeme.payload with
  | none => lexeme.kind.label
  | some shown => s!"{lexeme.kind.label}: {shown}"

def describe (lexeme : Lexeme) : String :=
  match lexeme.payload, lexeme.kind with
  | none, kind => s!"'{kind.label}'"
  | some shown, .number => s!"number {shown}"
  | some shown, .identifier => s!"identifier '{shown}'"
  | some shown, _ => s!"'{shown}'"

-- A lexeme of the given sort from an optional payload; a number's payload is its value in digits.
def ofPayload? (kind : Kind) (payload : Option String) : Option Lexeme :=
  match kind with
  | .number =>
    match payload with
    | none => some (.number none)
    | some digits => digits.toInt?.map fun value => .number (some value)
  | .identifier => some (.identifier payload)
  | .typeName => some (.typeName payload)
  | .operator => some (.operator payload)
  | .bracket => some (.bracket payload)
  | .parenthesis => some (.parenthesis payload)
  | .comma => some (.comma payload)
  | .semicolon => some (.semicolon payload)
  | .ret => some (.ret payload)

end Lexeme

namespace Token

def kind (token : Token) : Kind := token.lexeme.kind

def place (token : Token) : String :=
  s!"{token.location.line}:{token.location.column}"

def debugText (token : Token) : String :=
  let sort := token.kind.label.map Char.toUpper
  match token.lexeme.quotedPayload with
  | none => s!"Token({sort}, {token.place})"
  | some shown => s!"Token({sort}, {shown}, {token.place})"

-- A listing has one line per token, each ended by a line feed.
def listing (tokens : List Token) : String :=
  String.join (tokens.map fun token => token.lexeme.text ++ "\n")

def placedListing (tokens : List Token) : String :=
  String.join (tokens.map fun token => token.place ++ "\t" ++ token.lexeme.text ++ "\n")

end Token

end WordC
