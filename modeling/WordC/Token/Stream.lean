import WordC.Diagnostic

namespace WordC

-- A demand on the next token: one of a sort, or a particular mark of a sort.
inductive Wanted where
  | number
  | identifier
  | typeName
  | operator (symbol : Option String)
  | bracket (symbol : Option String)
  | parenthesis (symbol : Option String)
  | comma
  | semicolon
  | ret
deriving DecidableEq, Repr

namespace Wanted

def text : Wanted → String
  | .number => "number"
  | .identifier => "identifier"
  | .typeName => "type"
  | .comma => "','"
  | .semicolon => "';'"
  | .ret => "'return'"
  | .operator none => "operator"
  | .bracket none => "bracket"
  | .parenthesis none => "parenthesis"
  | .operator (some symbol) | .bracket (some symbol) | .parenthesis (some symbol) => s!"'{symbol}'"

-- A demand without a mark is met by every token of the sort, whatever it carries.
def metBy : Wanted → Lexeme → Bool
  | .number, .number _ => true
  | .identifier, .identifier _ => true
  | .typeName, .typeName _ => true
  | .comma, .comma _ => true
  | .semicolon, .semicolon _ => true
  | .ret, .ret _ => true
  | .operator symbol, .operator found => symbol.isNone || symbol = found
  | .bracket symbol, .bracket found => symbol.isNone || symbol = found
  | .parenthesis symbol, .parenthesis found => symbol.isNone || symbol = found
  | _, _ => false

@[simp] theorem metBy_identifier : identifier.metBy lexeme ↔ ∃ name, lexeme = .identifier name := by
  cases lexeme with
  | identifier name => exact ⟨fun _ => ⟨name, rfl⟩, fun _ => rfl⟩
  | _ =>
    constructor
    · rintro ⟨⟩
    · rintro ⟨_, ⟨⟩⟩

@[simp] theorem metBy_typeName : typeName.metBy lexeme ↔ ∃ name, lexeme = .typeName name := by
  cases lexeme with
  | typeName name => exact ⟨fun _ => ⟨name, rfl⟩, fun _ => rfl⟩
  | _ =>
    constructor
    · rintro ⟨⟩
    · rintro ⟨_, ⟨⟩⟩

@[simp] theorem metBy_operator : (operator (some s)).metBy lexeme ↔ lexeme = .operator (some s) := by
  cases lexeme <;> simp [metBy, eq_comm]

@[simp] theorem metBy_bracket : (bracket (some s)).metBy lexeme ↔ lexeme = .bracket (some s) := by
  cases lexeme <;> simp [metBy, eq_comm]

@[simp] theorem metBy_parenthesis :
    (parenthesis (some s)).metBy lexeme ↔ lexeme = .parenthesis (some s) := by
  cases lexeme <;> simp [metBy, eq_comm]

@[simp] theorem metBy_comma : comma.metBy lexeme ↔ ∃ payload, lexeme = .comma payload := by
  cases lexeme with
  | comma payload => exact ⟨fun _ => ⟨payload, rfl⟩, fun _ => rfl⟩
  | _ =>
    constructor
    · rintro ⟨⟩
    · rintro ⟨_, ⟨⟩⟩

@[simp] theorem metBy_semicolon : semicolon.metBy lexeme ↔ ∃ payload, lexeme = .semicolon payload := by
  cases lexeme with
  | semicolon payload => exact ⟨fun _ => ⟨payload, rfl⟩, fun _ => rfl⟩
  | _ =>
    constructor
    · rintro ⟨⟩
    · rintro ⟨_, ⟨⟩⟩

@[simp] theorem metBy_ret : ret.metBy lexeme ↔ ∃ word, lexeme = .ret word := by
  cases lexeme with
  | ret word => exact ⟨fun _ => ⟨word, rfl⟩, fun _ => rfl⟩
  | _ =>
    constructor
    · rintro ⟨⟩
    · rintro ⟨_, ⟨⟩⟩

def sample : Wanted → Lexeme
  | .number => .number none
  | .identifier => .identifier none
  | .typeName => .typeName none
  | .operator symbol => .operator symbol
  | .bracket symbol => .bracket symbol
  | .parenthesis symbol => .parenthesis symbol
  | .comma => .comma none
  | .semicolon => .semicolon none
  | .ret => .ret none

theorem metBy_sample (wanted : Wanted) : wanted.metBy wanted.sample = true := by
  cases wanted <;> simp [metBy, sample]

end Wanted

-- Expressions start with a number or a name, and with nothing else.
def Lexeme.startsExpression : Lexeme → Bool
  | .number _ => true
  | .identifier _ => true
  | _ => false

-- A question about the next token: is it of this sort, or is it this very lexeme?
inductive Pattern where
  | ofKind (kind : Kind)
  | exactly (lexeme : Lexeme)
deriving DecidableEq, Repr

def Pattern.fits : Pattern → Lexeme → Bool
  | .ofKind kind, lexeme => lexeme.kind = kind
  | .exactly wanted, lexeme => lexeme = wanted

-- A token list with a reading place: the tokens behind it, last one first, and those still ahead.
structure Stream where
  behind : List Token
  ahead : List Token
deriving DecidableEq, Repr

inductive Request where
  | peek
  | peekSecond
  | advance
  | expect (wanted : Wanted)
  | remaining
  | atEnd
  | startsExpression
  | check (pattern : Pattern)
deriving DecidableEq, Repr

inductive Reply where
  | token (found : Option Token)
  | count (n : Nat)
  | truth (b : Bool)
  | refused (wanted : Wanted) (found : Option Token)
deriving DecidableEq, Repr

namespace Stream

def ofTokens (tokens : List Token) : Stream := ⟨[], tokens⟩

def position (stream : Stream) : Nat := stream.behind.length

def remaining (stream : Stream) : Nat := stream.ahead.length

def peek (stream : Stream) : Option Token := stream.ahead.head?

def advance (stream : Stream) : Option Token × Stream :=
  match stream.ahead with
  | [] => (none, stream)
  | token :: rest => (some token, ⟨token :: stream.behind, rest⟩)

def nextIs (stream : Stream) (test : Lexeme → Bool) : Bool :=
  stream.peek.any fun token => test token.lexeme

-- Take the next token if it meets the demand; otherwise stay and say what stands there.
def expect (stream : Stream) (wanted : Wanted) : Reply × Stream :=
  if stream.nextIs wanted.metBy then
    let (found, later) := stream.advance
    (.token found, later)
  else (.refused wanted stream.peek, stream)

def answer (stream : Stream) : Request → Reply × Stream
  | .peek => (.token stream.peek, stream)
  | .peekSecond => (.token stream.ahead[1]?, stream)
  | .advance =>
    let (found, later) := stream.advance
    (.token found, later)
  | .expect wanted => stream.expect wanted
  | .remaining => (.count stream.remaining, stream)
  | .atEnd => (.truth stream.ahead.isEmpty, stream)
  | .startsExpression => (.truth (stream.nextIs Lexeme.startsExpression), stream)
  | .check pattern => (.truth (stream.nextIs pattern.fits), stream)

def debugText (stream : Stream) : String :=
  s!"TokenCursor(pos={stream.position}, remaining={stream.remaining})"

end Stream

end WordC
