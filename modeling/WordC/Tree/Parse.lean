import WordC.Text.Lines
import WordC.Token.Stream
import WordC.Tree

namespace WordC.Parse

-- Why a token list is no program. The token that does not fit is given, or none at the end of the list.
inductive Refusal where
  | unmet (wanted : Wanted) (found : Option Token)
  | noExpression (found : Option Token)
  | pointer (found : Token)
deriving DecidableEq, Repr

-- What a reader leaves over is shorter than what it was given, so reading on always ends.
abbrev Shorter (tokens : List Token) := { rest : List Token // rest.length < tokens.length }

-- A reader that may take nothing leaves no more than it was given.
abbrev NoLonger (tokens : List Token) := { rest : List Token // rest.length ≤ tokens.length }

abbrev Reading (α : Type) (tokens : List Token) := Except Refusal (α × Shorter tokens)

abbrev ReadingMaybe (α : Type) (tokens : List Token) := Except Refusal (α × NoLonger tokens)

def here (tokens : List Token) : Option Location := tokens.head?.map Token.location

def nextMeets (wanted : Wanted) (tokens : List Token) : Bool :=
  tokens.head?.any fun token => wanted.metBy token.lexeme

def nextStartsExpression (tokens : List Token) : Bool :=
  tokens.head?.any fun token => token.lexeme.startsExpression

theorem one_shorter (token : Token) (rest : List Token) : rest.length < (token :: rest).length :=
  Nat.lt_succ_self _

theorem all_left (tokens : List Token) : tokens.length ≤ tokens.length := Nat.le_refl _

theorem shorter_twice {first rest last : List Token} (shorter : rest.length < first.length)
    (again : last.length < rest.length) : last.length < first.length :=
  Nat.lt_trans again shorter

theorem shorter_yet {first rest last : List Token} (shorter : rest.length < first.length)
    (noLonger : last.length ≤ rest.length) : last.length < first.length :=
  Nat.lt_of_le_of_lt noLonger shorter

theorem shorter_past {first rest last : List Token} {token : Token}
    (shorter : (token :: rest).length < first.length) (after : last.length < rest.length) :
    last.length < first.length :=
  Nat.lt_trans after (Nat.lt_of_succ_lt shorter)

theorem noLonger_past {token : Token} {first rest last : List Token}
    (shorter : rest.length < first.length) (noLonger : last.length ≤ rest.length) :
    last.length ≤ (token :: first).length :=
  Nat.le_of_lt (Nat.lt_succ_of_lt (Nat.lt_of_le_of_lt noLonger shorter))

theorem noLonger_yet {first rest last : List Token} (shorter : rest.length < first.length)
    (noLonger : last.length ≤ rest.length) : last.length ≤ first.length :=
  Nat.le_of_lt (Nat.lt_of_le_of_lt noLonger shorter)

theorem noLonger_of_shorter {first last : List Token} (shorter : last.length < first.length) :
    last.length ≤ first.length :=
  Nat.le_of_lt shorter

theorem call_shorter {name left : Token} {inside rest last : List Token}
    (noLonger : rest.length ≤ inside.length) (shorter : last.length < rest.length) :
    last.length < (name :: left :: inside).length := by
  simp only [List.length_cons]; omega

def expect (wanted : Wanted) (tokens : List Token) : Reading Token tokens :=
  match tokens with
  | [] => .error (.unmet wanted none)
  | token :: rest =>
    if wanted.metBy token.lexeme then .ok (token, ⟨rest, one_shorter token rest⟩)
    else .error (.unmet wanted (some token))

-- The next level of operators that bind tighter, if there is one.
def tighter : Tier → Option Tier
  | .assign => some .sum
  | .sum => some .product
  | .product => none

def looseness : Tier → Nat
  | .assign => 3
  | .sum => 2
  | .product => 1

theorem looseness_tighter {t u : Tier} (below : tighter t = some u) : looseness u < looseness t := by
  cases t <;> cases below <;> decide

theorem looseness_pos (t : Tier) : 0 < looseness t := by cases t <;> decide

theorem looseness_le (t : Tier) : looseness t ≤ 3 := by cases t <;> decide

-- What is left to do: mostly the tokens that are left, and with the same tokens the rank of the reader.
def effort (tokens : List Token) (rank : Nat) : Nat := 10 * tokens.length + rank

def opensCall (lexeme : Lexeme) : Bool := (Wanted.parenthesis (some "(")).metBy lexeme

-- One operand stands for itself; several make a chain at the place of the first.
def chained (location : Option Location) (tier : Tier) (first : Expr) (more : List Expr) : Expr :=
  match more with
  | [] => first
  | _ :: _ => .chain location tier (first :: more)

mutual

def chain (tier : Tier) (tokens : List Token) : Reading Expr tokens :=
  match operand tier tokens with
  | .error refusal => .error refusal
  | .ok (first, ⟨rest, shorter⟩) =>
    match moreOperands tier rest with
    | .error refusal => .error refusal
    | .ok (more, ⟨rest', noLonger⟩) =>
      .ok (chained (here tokens) tier first more, ⟨rest', shorter_yet shorter noLonger⟩)
termination_by effort tokens (2 * looseness tier + 1)
decreasing_by
  · simp only [effort]; omega
  · simp only [effort]; omega

-- One operand of a level is a chain of the next tighter level, and a primary at the tightest.
def operand (tier : Tier) (tokens : List Token) : Reading Expr tokens :=
  match _below : tighter tier with
  | some next => chain next tokens
  | none => primary tokens
termination_by effort tokens (2 * looseness tier)
decreasing_by
  · have looser := looseness_tighter _below
    simp only [effort]; omega
  · have positive := looseness_pos tier
    simp only [effort]; omega

def moreOperands (tier : Tier) (tokens : List Token) : ReadingMaybe (List Expr) tokens :=
  match tokens with
  | [] => .ok ([], ⟨[], all_left []⟩)
  | token :: after =>
    if (Wanted.operator (some tier.symbol)).metBy token.lexeme then
      match operand tier after with
      | .error refusal => .error refusal
      | .ok (next, ⟨rest, shorter⟩) =>
        match moreOperands tier rest with
        | .error refusal => .error refusal
        | .ok (more, ⟨rest', noLonger⟩) =>
          .ok (next :: more, ⟨rest', noLonger_past shorter noLonger⟩)
    else .ok ([], ⟨token :: after, all_left (token :: after)⟩)
termination_by effort tokens 0
decreasing_by
  · have bound := looseness_le tier
    simp only [effort, List.length_cons]; omega
  · simp only [effort, List.length_cons]; omega

def primary (tokens : List Token) : Reading Expr tokens :=
  match tokens with
  | [] => .error (.noExpression none)
  | token :: after =>
    match token.lexeme with
    | .number value => .ok (.number (some token.location) value, ⟨after, one_shorter token after⟩)
    | .identifier name =>
      match after with
      | [] => .ok (.var (some token.location) name, ⟨[], one_shorter token []⟩)
      | second :: inside =>
        if opensCall second.lexeme then
          match arguments inside with
          | .error refusal => .error refusal
          | .ok (given, ⟨rest, noLonger⟩) =>
            match expect (.parenthesis (some ")")) rest with
            | .error refusal => .error refusal
            | .ok (_, ⟨rest', shorter⟩) =>
              .ok (.call (some token.location) name given, ⟨rest', call_shorter noLonger shorter⟩)
        else
          .ok (.var (some token.location) name,
            ⟨second :: inside, one_shorter token (second :: inside)⟩)
    | _ => .error (.noExpression (some token))
termination_by effort tokens 0
decreasing_by
  simp only [effort, List.length_cons]; omega

-- The arguments of a call. There are none when no expression starts here.
def arguments (tokens : List Token) : ReadingMaybe (List Expr) tokens :=
  if nextStartsExpression tokens then
    match argumentList tokens with
    | .error refusal => .error refusal
    | .ok (given, ⟨rest, shorter⟩) => .ok (given, ⟨rest, noLonger_of_shorter shorter⟩)
  else .ok ([], ⟨tokens, all_left tokens⟩)
termination_by effort tokens 9
decreasing_by
  simp only [effort]; omega

-- Expressions between commas. After a comma another expression has to follow.
def argumentList (tokens : List Token) : Reading (List Expr) tokens :=
  match chain .assign tokens with
  | .error refusal => .error refusal
  | .ok (first, ⟨rest, shorter⟩) =>
    match rest with
    | [] => .ok ([first], ⟨[], shorter⟩)
    | token :: after =>
      if Wanted.comma.metBy token.lexeme then
        match argumentList after with
        | .error refusal => .error refusal
        | .ok (more, ⟨rest', shorter'⟩) =>
          .ok (first :: more, ⟨rest', shorter_past shorter shorter'⟩)
      else .ok ([first], ⟨token :: after, shorter⟩)
termination_by effort tokens 8
decreasing_by
  · simp only [effort, looseness]; omega
  · simp only [List.length_cons] at shorter
    simp only [effort]; omega

end

def expression (tokens : List Token) : Reading Expr tokens := chain .assign tokens

-- A star after a type would make a pointer.
def refusePointer : List Token → Except Refusal Unit
  | [] => .ok ()
  | token :: _ =>
    if (Wanted.operator (some "*")).metBy token.lexeme then .error (.pointer token) else .ok ()

def typedName (tokens : List Token) : Reading (Name × Name) tokens :=
  match expect .typeName tokens with
  | .error refusal => .error refusal
  | .ok (typeToken, ⟨rest, shorter⟩) =>
    match refusePointer rest with
    | .error refusal => .error refusal
    | .ok () =>
      match expect .identifier rest with
      | .error refusal => .error refusal
      | .ok (nameToken, ⟨rest', shorter'⟩) =>
        .ok ((typeToken.lexeme.name, nameToken.lexeme.name), ⟨rest', shorter_twice shorter shorter'⟩)

def parameter (tokens : List Token) : Reading Parameter tokens :=
  match typedName tokens with
  | .error refusal => .error refusal
  | .ok ((typeName, name), left) => .ok (⟨here tokens, name, typeName⟩, left)

def parameterList (tokens : List Token) : Reading (List Parameter) tokens :=
  match parameter tokens with
  | .error refusal => .error refusal
  | .ok (first, ⟨rest, shorter⟩) =>
    match rest with
    | [] => .ok ([first], ⟨[], shorter⟩)
    | token :: after =>
      if Wanted.comma.metBy token.lexeme then
        match parameterList after with
        | .error refusal => .error refusal
        | .ok (more, ⟨rest', shorter'⟩) =>
          .ok (first :: more, ⟨rest', shorter_past shorter shorter'⟩)
      else .ok ([first], ⟨token :: after, shorter⟩)
termination_by tokens.length
decreasing_by
  simp only [List.length_cons] at shorter; omega

-- The parameters between the parentheses. A closing parenthesis means that there are none.
def parameters (tokens : List Token) : ReadingMaybe (List Parameter) tokens :=
  if nextMeets (.parenthesis (some ")")) tokens then .ok ([], ⟨tokens, all_left tokens⟩)
  else match parameterList tokens with
  | .error refusal => .error refusal
  | .ok (found, ⟨rest, shorter⟩) => .ok (found, ⟨rest, noLonger_of_shorter shorter⟩)

def declaration (tokens : List Token) : Reading Stmt tokens :=
  match typedName tokens with
  | .error refusal => .error refusal
  | .ok ((typeName, name), ⟨rest, shorter⟩) =>
    match expect .semicolon rest with
    | .error refusal => .error refusal
    | .ok (_, ⟨rest', shorter'⟩) =>
      .ok (.declare (here tokens) typeName name, ⟨rest', shorter_twice shorter shorter'⟩)

def expressionStatement (tokens : List Token) : Reading Stmt tokens :=
  match expression tokens with
  | .error refusal => .error refusal
  | .ok (value, ⟨rest, shorter⟩) =>
    match expect .semicolon rest with
    | .error refusal => .error refusal
    | .ok (_, ⟨rest', shorter'⟩) =>
      .ok (.expression (here tokens) value, ⟨rest', shorter_twice shorter shorter'⟩)

-- A statement, if the next token starts one.
def statement? (tokens : List Token) : Option (Reading Stmt tokens) :=
  if nextMeets .typeName tokens then some (declaration tokens)
  else if nextStartsExpression tokens then some (expressionStatement tokens)
  else none

-- Statements up to the first token that starts none.
def statements (tokens : List Token) : ReadingMaybe (List Stmt) tokens :=
  match statement? tokens with
  | none => .ok ([], ⟨tokens, all_left tokens⟩)
  | some (.error refusal) => .error refusal
  | some (.ok (first, ⟨rest, shorter⟩)) =>
    match statements rest with
    | .error refusal => .error refusal
    | .ok (more, ⟨rest', noLonger⟩) => .ok (first :: more, ⟨rest', noLonger_yet shorter noLonger⟩)
termination_by tokens.length
decreasing_by exact shorter

def returnStatement (tokens : List Token) : Reading Return tokens :=
  match expect .ret tokens with
  | .error refusal => .error refusal
  | .ok (_, ⟨rest, shorter⟩) =>
    match expression rest with
    | .error refusal => .error refusal
    | .ok (value, ⟨rest', shorter'⟩) =>
      match expect .semicolon rest' with
      | .error refusal => .error refusal
      | .ok (_, ⟨rest'', shorter''⟩) =>
        .ok (⟨here tokens, value⟩, ⟨rest'', by omega⟩)

def heading (tokens : List Token) : Reading (Name × Name × List Parameter) tokens := do
  let (typeToken, ⟨t1, h1⟩) ← expect .typeName tokens
  let (nameToken, ⟨t2, h2⟩) ← expect .identifier t1
  let (_, ⟨t3, h3⟩) ← expect (.parenthesis (some "(")) t2
  let (listed, ⟨t4, h4⟩) ← parameters t3
  let (_, ⟨t5, h5⟩) ← expect (.parenthesis (some ")")) t4
  return ((typeToken.lexeme.name, nameToken.lexeme.name, listed), ⟨t5, by omega⟩)

def body (tokens : List Token) : Reading (List Stmt × Return) tokens := do
  let (_, ⟨t1, h1⟩) ← expect (.bracket (some "\x7b")) tokens
  let (listed, ⟨t2, h2⟩) ← statements t1
  let (result, ⟨t3, h3⟩) ← returnStatement t2
  let (_, ⟨t4, h4⟩) ← expect (.bracket (some "\x7d")) t3
  return ((listed, result), ⟨t4, by omega⟩)

def function (tokens : List Token) : Reading Function tokens := do
  let ((returnType, name, listed), ⟨t1, h1⟩) ← heading tokens
  let ((statements, result), ⟨t2, h2⟩) ← body t1
  let found : Function :=
    { location := here tokens
      name
      returnType
      parameters := listed
      statements
      result }
  return (found, ⟨t2, by omega⟩)

-- One function after the other, to the last token. The list holds one at least.
def functions (tokens : List Token) : Except Refusal (List Function) :=
  match function tokens with
  | .error refusal => .error refusal
  | .ok (first, ⟨[], _⟩) => .ok [first]
  | .ok (first, ⟨next :: rest, _shorter⟩) =>
    match functions (next :: rest) with
    | .error refusal => .error refusal
    | .ok more => .ok (first :: more)
termination_by tokens.length
decreasing_by exact _shorter

def program (tokens : List Token) : Except Refusal Program :=
  match functions tokens with
  | .error refusal => .error refusal
  | .ok found => .ok ⟨here tokens, found⟩

-- The refusal as a diagnostic. What is missing at the end of the list is reported at its last token.
def Refusal.diagnose (tokens : List Token) (lines : List String) : Refusal → Diagnostic
  | .unmet wanted none =>
    { Diagnostic.unexpectedEnd (some wanted.text) (tokens.getLast?.map Token.location) with led := true }
  | .unmet wanted (some token) =>
    { Diagnostic.mismatch wanted.text (some token) (Text.lineAt? lines token.location.line)
      with led := true }
  | .noExpression none =>
    .unexpectedEnd (some "expression") (tokens.getLast?.map Token.location)
  | .noExpression (some token) =>
    .unexpectedToken token (some "expression") none (Text.lineAt? lines token.location.line)
  | .pointer token =>
    .unexpectedToken token (some "identifier") (some "pointers are not supported")
      (Text.lineAt? lines token.location.line)

end WordC.Parse
