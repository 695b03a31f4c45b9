import WordC.Module.Machine
import WordC.Tree

namespace WordC.Meaning

-- The variables of one call. A variable that is declared and not yet assigned has no value.
abbrev Variables := Bindings Name (Option Word)

def assignAll (vars : Variables) (names : List Name) (word : Word) : Variables :=
  names.foldl (fun vars name => vars.bind name (some word)) vars

mutual

-- The value of an expression and the variables after it. Calls are handed to `call`.
def expression (call : Name → List Word → Outcome Word) :
    Expr → Variables → Outcome (Word × Variables)
  | .number _ none, _ => .stuck
  | .number _ (some value), vars => .value (BitVec.ofInt 64 value, vars)
  | .var _ name, vars =>
    match vars.lookup name with
    | none => .stuck
    | some none => .unassigned
    | some (some word) => .value (word, vars)
  | .call _ function arguments, vars =>
    (expressions call arguments vars).andThen fun (words, vars) =>
      (call function words).map fun word => (word, vars)
  | .chain _ .sum operands, vars => fold call (· + ·) 0 operands vars
  | .chain _ .product operands, vars => fold call (· * ·) 1 operands vars
  | .chain _ .assign operands, vars => assign call [] operands vars

-- Expressions are evaluated left to right, each in the variables that the one before leaves.
def expressions (call : Name → List Word → Outcome Word) :
    List Expr → Variables → Outcome (List Word × Variables)
  | [], vars => .value ([], vars)
  | e :: rest, vars =>
    (expression call e vars).andThen fun (word, vars) =>
      (expressions call rest vars).map fun (words, vars) => (word :: words, vars)

def fold (call : Name → List Word → Outcome Word) (join : Word → Word → Word) (reached : Word) :
    List Expr → Variables → Outcome (Word × Variables)
  | [], vars => .value (reached, vars)
  | e :: rest, vars =>
    (expression call e vars).andThen fun (word, vars) =>
      fold call join (join reached word) rest vars

-- The last operand is evaluated once and given to every variable before it.
def assign (call : Name → List Word → Outcome Word) (targets : List Name) :
    List Expr → Variables → Outcome (Word × Variables)
  | [], _ => .stuck
  | [e], vars =>
    (expression call e vars).map fun (word, vars) => (word, assignAll vars targets word)
  | target :: next :: rest, vars =>
    match target with
    | .var _ name =>
      if vars.contains name then assign call (name :: targets) (next :: rest) vars else .stuck
    | _ => .stuck

end

def statement (call : Name → List Word → Outcome Word) (vars : Variables) : Stmt → Outcome Variables
  | .declare _ _ name => .value (vars.bind name none)
  | .expression _ value => (expression call value vars).map Prod.snd

def statements (call : Name → List Word → Outcome Word) (vars : Variables) :
    List Stmt → Outcome Variables
  | [] => .value vars
  | s :: rest => (statement call vars s).andThen fun vars => statements call vars rest

-- Parameters are bound in order, so the last of several with one name is the one that counts.
def bindParameters (vars : Variables) : List (Parameter × Word) → Variables
  | [] => vars
  | (parameter, word) :: rest => bindParameters (vars.bind parameter.name (some word)) rest

def function (call : Name → List Word → Outcome Word) (f : Function) (words : List Word) :
    Outcome Word :=
  if words.length ≠ f.arity then .stuck
  else
    (statements call (bindParameters .empty (f.parameters.zip words)) f.statements).andThen fun vars =>
      (expression call f.result.value vars).map Prod.fst

def find? (p : Program) (name : Name) : Option Function :=
  p.functions.find? fun f => f.name = name

-- The value of a function of a program, at most `fuel` calls deep, read off the tree.
def value (p : Program) : (fuel : Nat) → Name → List Word → Outcome Word
  | 0, _, _ => .outOfFuel
  | fuel + 1, name, words =>
    match find? p name with
    | none => .stuck
    | some f => function (value p fuel) f words

end WordC.Meaning
