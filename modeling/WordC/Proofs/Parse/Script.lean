import WordC.Proofs.Token.Stream
import WordC.Tree.Parse

namespace WordC

def Reply.token? : Reply → Option Token
  | .token found => found
  | .count _ | .truth _ | .refused _ _ => none

def Reply.holds : Reply → Bool
  | .truth b => b
  | .token _ | .count _ | .refused _ _ => false

namespace Descent
open Parse (Refusal tighter chained opensCall)

-- The parts of a parser that asks a stream for its tokens. A loop is a part that enters itself again, with what it
-- has collected.
inductive Part where
  | program
  | functions (place : Option Location) (found : List Function)
  | function
  | parameters
  | parameterList (found : List Parameter)
  | parameter
  | statements (found : List Stmt)
  | statement
  | declaration
  | expressionStatement
  | returnStatement
  | chain (tier : Tier)
  | operand (tier : Tier)
  | moreOperands (tier : Tier) (place : Option Location) (first : Expr) (found : List Expr)
  | primary
  | invocation
  | argumentList (found : List Expr)

-- What a part makes. A statement may be missing where another list ends.
abbrev Part.Result : Part → Type
  | .program | .functions _ _ => Program
  | .function => Function
  | .parameters | .parameterList _ => List Parameter
  | .parameter => Parameter
  | .statements _ => List Stmt
  | .statement => Option Stmt
  | .declaration | .expressionStatement => Stmt
  | .returnStatement => Return
  | .chain _ | .operand _ | .moreOperands _ _ _ _ | .primary | .invocation => Expr
  | .argumentList _ => List Expr

-- What a part does: it asks the stream, enters other parts, and ends with a result or a refusal.
inductive Script (α : Type) where
  | give (found : α)
  | refuse (refusal : Refusal)
  | ask (request : Request) (next : Reply → Script α)
  | enter (part : Part) (next : part.Result → Script α)

namespace Script

def bind : Script α → (α → Script β) → Script β
  | .give found, next => next found
  | .refuse refusal, _ => .refuse refusal
  | .ask request rest, next => .ask request fun reply => (rest reply).bind next
  | .enter part rest, next => .enter part fun found => (rest found).bind next

instance : Monad Script where
  pure := give
  bind := bind

def peek : Script (Option Token) := .ask .peek fun reply => pure reply.token?

def peekSecond : Script (Option Token) := .ask .peekSecond fun reply => pure reply.token?

def place : Script (Option Location) := .ask .peek fun reply => pure (reply.token?.map Token.location)

def holds (request : Request) : Script Bool := .ask request fun reply => pure reply.holds

def skip : Script Unit := .ask .advance fun _ => pure ()

def expect (wanted : Wanted) : Script Token := .ask (.expect wanted) fun
  | .token (some token) => pure token
  | .refused wanted found => .refuse (.unmet wanted found)
  | .token none | .count _ | .truth _ => .refuse (.unmet wanted none)

def part (other : Part) : Script other.Result := .enter other pure

-- A name after a type, where a star would make a pointer.
def newName : Script Token := do
  if ← holds (.check (.exactly (.operator (some "*")))) then
    match ← peek with
    | some token => .refuse (.pointer token)
    | none => .refuse (.unmet .identifier none)
  else expect .identifier

-- The arguments of a call, if an expression starts here.
def given : Script (List Expr) := do
  if ← holds .startsExpression then part (.argumentList []) else return []

-- A primary by its first token. A name in front of a parenthesis is called.
def startedBy (token : Token) : Script Expr :=
  match token.lexeme with
  | .number value => do
    skip
    return .number (some token.location) value
  | .identifier name => do
    if (← peekSecond).any fun second => opensCall second.lexeme then part .invocation
    else
      skip
      return .var (some token.location) name
  | _ => do
    .refuse (.noExpression (← peek))

end Script

open Script

def Part.body : (part : Part) → Script part.Result
  | .program => do
    part (.functions (← place) [])
  | .functions place found => do
    let next ← part .function
    if ← holds .atEnd then return ⟨place, found ++ [next]⟩
    else part (.functions place (found ++ [next]))
  | .function => do
    let place ← place
    let returnType ← expect .typeName
    let name ← expect .identifier
    let _ ← expect (.parenthesis (some "("))
    let parameters ← part .parameters
    let _ ← expect (.parenthesis (some ")"))
    let _ ← expect (.bracket (some "\x7b"))
    let statements ← part (.statements [])
    let result ← part .returnStatement
    let _ ← expect (.bracket (some "\x7d"))
    return ⟨place, name.lexeme.name, returnType.lexeme.name, parameters, statements, result⟩
  | .parameters => do
    if ← holds (.check (.exactly (.parenthesis (some ")")))) then return []
    else part (.parameterList [])
  | .parameterList found => do
    let next ← part .parameter
    if ← holds (.check (.ofKind .comma)) then
      skip
      part (.parameterList (found ++ [next]))
    else return found ++ [next]
  | .parameter => do
    let place ← place
    let typeName ← expect .typeName
    let name ← newName
    return ⟨place, name.lexeme.name, typeName.lexeme.name⟩
  | .statements found => do
    match ← part .statement with
    | none => return found
    | some next => part (.statements (found ++ [next]))
  | .statement => do
    if ← holds (.check (.ofKind .typeName)) then return some (← part .declaration)
    else if ← holds .startsExpression then return some (← part .expressionStatement)
    else return none
  | .declaration => do
    let place ← place
    let typeName ← expect .typeName
    let name ← newName
    let _ ← expect .semicolon
    return .declare place typeName.lexeme.name name.lexeme.name
  | .expressionStatement => do
    let place ← place
    let value ← part (.chain .assign)
    let _ ← expect .semicolon
    return .expression place value
  | .returnStatement => do
    let place ← place
    let _ ← expect .ret
    let value ← part (.chain .assign)
    let _ ← expect .semicolon
    return ⟨place, value⟩
  | .chain tier => do
    let place ← place
    let first ← part (.operand tier)
    part (.moreOperands tier place first [])
  | .operand tier =>
    match tighter tier with
    | some next => part (.chain next)
    | none => part .primary
  | .moreOperands tier place first found => do
    if ← holds (.check (.exactly (.operator (some tier.symbol)))) then
      skip
      let next ← part (.operand tier)
      part (.moreOperands tier place first (found ++ [next]))
    else return chained place tier first found
  | .primary => do
    match ← peek with
    | none => .refuse (.noExpression none)
    | some token => startedBy token
  | .invocation => do
    let place ← place
    let name ← expect .identifier
    let _ ← expect (.parenthesis (some "("))
    let given ← given
    let _ ← expect (.parenthesis (some ")"))
    return .call place name.lexeme.name given
  | .argumentList found => do
    let next ← part (.chain .assign)
    if ← holds (.check (.ofKind .comma)) then
      skip
      part (.argumentList (found ++ [next]))
    else return found ++ [next]

-- A run of so many steps: requests to the stream, and entries into parts. There is no outcome when they are too few.
def Script.run : Nat → Script α → Stream → Option (Except Refusal α × Stream)
  | _, .give found, stream => some (.ok found, stream)
  | _, .refuse refusal, stream => some (.error refusal, stream)
  | 0, .ask _ _, _ | 0, .enter _ _, _ => none
  | n + 1, .ask request next, stream =>
    run n (next (stream.answer request).1) (stream.answer request).2
  | n + 1, .enter part next, stream => run n (part.body >>= next) stream

namespace Script

@[simp] theorem run_give (n : Nat) (found : α) (stream : Stream) :
    (give found).run n stream = some (.ok found, stream) := by
  cases n <;> rfl

@[simp] theorem run_refuse (n : Nat) (refusal : Refusal) (stream : Stream) :
    (refuse refusal : Script α).run n stream = some (.error refusal, stream) := by
  cases n <;> rfl

theorem run_ask (n : Nat) (request : Request) (next : Reply → Script α) (stream : Stream) :
    (ask request next).run (n + 1) stream = (next (stream.answer request).1).run n (stream.answer request).2 := rfl

theorem run_enter (n : Nat) (part : Part) (next : part.Result → Script α) (stream : Stream) :
    (enter part next).run (n + 1) stream = (part.body >>= next).run n stream := rfl

theorem bind_assoc (first : Script α) (next : α → Script β) (last : β → Script γ) :
    first >>= next >>= last = first >>= fun found => next found >>= last := by
  induction first with
  | give found | refuse refusal => rfl
  | ask request rest ih => exact congrArg (ask request) (funext ih)
  | enter part rest ih => exact congrArg (enter part) (funext ih)

-- Steps to spare change nothing.
theorem run_mono {script : Script α} (ran : script.run n stream = some outcome) (more : n ≤ m) :
    script.run m stream = some outcome := by
  induction n generalizing m script stream with
  | zero =>
    cases script with
    | give found | refuse refusal => simpa using ran
    | ask | enter => cases ran
  | succ n ih =>
    obtain ⟨spare, rfl⟩ := Nat.exists_eq_add_of_le' more
    have less : n ≤ spare + n := Nat.le_add_left n spare
    cases script with
    | give found | refuse refusal => simpa using ran
    | ask request next =>
      rw [← Nat.add_assoc, run_ask]
      rw [run_ask] at ran
      exact ih ran less
    | enter part next =>
      rw [← Nat.add_assoc, run_enter]
      rw [run_enter] at ran
      exact ih ran less

theorem run_unique {script : Script α} (ran : script.run n stream = some outcome)
    (ran' : script.run m stream = some outcome') : outcome = outcome' := by
  have one := run_mono ran (Nat.le_max_left n m)
  have other := run_mono ran' (Nat.le_max_right n m)
  exact Option.some.inj (one.symm.trans other)

theorem run_tokens {script : Script α} (ran : script.run n stream = some (outcome, later)) :
    later.tokens = stream.tokens := by
  induction n generalizing script stream with
  | zero =>
    cases script with
    | give | refuse =>
      cases ran
      rfl
    | ask | enter => cases ran
  | succ n ih =>
    cases script with
    | give | refuse =>
      cases ran
      rfl
    | ask request next => exact (ih ran).trans (stream.answer_answers request).kept
    | enter part next => exact ih ran

theorem run_bind_ok {script : Script α} {next : α → Script β} (ran : script.run n stream = some (.ok found, middle))
    (later : (next found).run m middle = some outcome) : (script >>= next).run (n + m) stream = some outcome := by
  induction n generalizing script stream with
  | zero =>
    cases script with
    | give =>
      cases ran
      exact run_mono later (by omega)
    | refuse | ask | enter => cases ran
  | succ n ih =>
    rw [Nat.succ_add]
    cases script with
    | give =>
      cases ran
      exact run_mono later (by omega)
    | refuse => cases ran
    | ask request rest => exact ih ran
    | enter part rest =>
      have joined := ih ran
      rw [bind_assoc] at joined
      exact joined

theorem run_bind_error {script : Script α} {next : α → Script β}
    (ran : script.run n stream = some (.error refusal, later)) :
    (script >>= next).run n stream = some (.error refusal, later) := by
  induction n generalizing script stream with
  | zero =>
    cases script with
    | refuse =>
      cases ran
      rfl
    | give | ask | enter => cases ran
  | succ n ih =>
    cases script with
    | give => cases ran
    | refuse =>
      cases ran
      rfl
    | ask request rest => exact ih ran
    | enter part rest =>
      have joined := ih ran
      rw [bind_assoc] at joined
      exact joined

end Script

end Descent

end WordC
