import WordC.Tree

namespace WordC

-- The sorts of nodes that say nothing beyond their sort.
inductive BareSort where
  | node
  | expression
  | statement
deriving DecidableEq, Repr

-- A tree put together by hand. Any node may stand anywhere in it, and any place may be left empty. Programs
-- that were read from tokens are the trees that come from a `Program`.
inductive Node where
  | absent
  | bare (location : Option Location) (sort : BareSort)
  | program (location : Option Location) (functions : List Node)
  | function (location : Option Location) (name returnType : Name) (parameters statements : List Node)
      (result : Node)
  | parameter (location : Option Location) (name typeName : Name)
  | declare (location : Option Location) (typeName name : Name)
  | expression (location : Option Location) (value : Node)
  | ret (location : Option Location) (value : Node)
  | number (location : Option Location) (value : Option Int)
  | var (location : Option Location) (name : Name)
  | call (location : Option Location) (function : Name) (arguments : List Node)
  | chain (location : Option Location) (tier : Tier) (operands : List Node)
deriving Repr

-- Ways in which a tree is no program. The tree of a `Program` has an empty assignment, an empty function name
-- or a literal without a value at most, and one that was read from a text has no defect at all.
inductive Defect where
  | absentNode
  | misplaced
  | noValue
  | outsideFunction
  | functionInside
  | undefinedFunction
  | absentValue
  | noOperands
  | secondReturn
  | emptyFunctionName
  | unnamed
deriving DecidableEq, Repr

namespace Node

def isAbsent : Node → Bool
  | .absent => true
  | _ => false

def location : Node → Option Location
  | .absent => none
  | .bare place _ | .program place _ | .function place _ _ _ _ _ | .parameter place _ _
  | .declare place _ _ | .expression place _ | .ret place _ | .number place _ | .var place _
  | .call place _ _ | .chain place _ _ => place

def name? : Node → Option Name
  | .function _ name _ _ _ _ | .parameter _ name _ | .var _ name | .call _ name _ => some name
  | _ => none

mutual

-- Whether a function or a variable that the node defines bears no name.
def definesUnnamed : Node → Bool
  | .function _ name _ parameters statements result =>
    name.isNone || parameters.any (fun parameter => parameter.name? = some none)
      || someDefineUnnamed statements || result.definesUnnamed
  | .declare _ _ name => name.isNone
  | .program _ functions => someDefineUnnamed functions
  | .expression _ value | .ret _ value => value.definesUnnamed
  | .call _ _ arguments => someDefineUnnamed arguments
  | .chain _ _ operands => someDefineUnnamed operands
  | .absent | .bare _ _ | .parameter _ _ _ | .number _ _ | .var _ _ => false

def someDefineUnnamed : List Node → Bool
  | [] => false
  | node :: rest => node.definesUnnamed || someDefineUnnamed rest

end

end Node

mutual

def Expr.node : Expr → Node
  | .number location value => .number location value
  | .var location name => .var location name
  | .call location function arguments => .call location function (Expr.nodes arguments)
  | .chain location tier operands => .chain location tier (Expr.nodes operands)

def Expr.nodes : List Expr → List Node
  | [] => []
  | e :: rest => e.node :: Expr.nodes rest

end

def Return.node (statement : Return) : Node := .ret statement.location statement.value.node

def Stmt.node : Stmt → Node
  | .declare location typeName name => .declare location typeName name
  | .expression location value => .expression location value.node

def Parameter.node (parameter : Parameter) : Node :=
  .parameter parameter.location parameter.name parameter.typeName

def Function.node (function : Function) : Node :=
  .function function.location function.name function.returnType
    (function.parameters.map Parameter.node) (function.statements.map Stmt.node) function.result.node

def Program.node (program : Program) : Node :=
  .program program.location (program.functions.map Function.node)

theorem Expr.nodes_eq_map (es : List Expr) : Expr.nodes es = es.map Expr.node := by
  induction es with
  | nil => rfl
  | cons e rest ih => simp [Expr.nodes, ih]

end WordC
