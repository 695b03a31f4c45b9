import WordC.Location
import WordC.Name

namespace WordC

-- The three levels of operators, loosest first.
inductive Tier where
  | assign
  | sum
  | product
deriving DecidableEq, Repr

-- An expression. All operands of one operator level stand in one chain.
inductive Expr where
  | number (location : Option Location) (value : Option Int)
  | var (location : Option Location) (name : Name)
  | call (location : Option Location) (function : Name) (arguments : List Expr)
  | chain (location : Option Location) (tier : Tier) (operands : List Expr)
deriving Repr

structure Return where
  location : Option Location
  value : Expr
deriving Repr

inductive Stmt where
  | declare (location : Option Location) (typeName name : Name)
  | expression (location : Option Location) (value : Expr)
deriving Repr

structure Parameter where
  location : Option Location
  name : Name
  typeName : Name
deriving DecidableEq, Repr

-- A function definition: its statements and, after all of them, its result.
structure Function where
  location : Option Location
  name : Name
  returnType : Name
  parameters : List Parameter
  statements : List Stmt
  result : Return
deriving Repr

structure Program where
  location : Option Location
  functions : List Function
deriving Repr

-- What holds of an expression whenever it holds of all its operands holds of every expression.
@[elab_as_elim, induction_eliminator]
theorem Expr.induct {motive : Expr → Prop}
    (number : ∀ location value, motive (.number location value))
    (var : ∀ location name, motive (.var location name))
    (call : ∀ location function arguments, (∀ e ∈ arguments, motive e) →
      motive (.call location function arguments))
    (chain : ∀ location tier operands, (∀ e ∈ operands, motive e) →
      motive (.chain location tier operands))
    (e : Expr) : motive e :=
  match e with
  | .number location value => number location value
  | .var location name => var location name
  | .call location function arguments =>
    call location function arguments fun e _ => Expr.induct number var call chain e
  | .chain location tier operands =>
    chain location tier operands fun e _ => Expr.induct number var call chain e
termination_by e

def Tier.symbol : Tier → String
  | .assign => "="
  | .sum => "+"
  | .product => "*"

def Function.arity (function : Function) : Nat := function.parameters.length

def Program.functionNames (program : Program) : List Name := program.functions.map Function.name

end WordC
