import WordC.Tree.Node

namespace WordC

-- The sorts of nodes, as walks and debug forms name them.
inductive NodeSort where
  | bare (sort : BareSort)
  | program
  | function
  | parameter
  | declaration
  | expressionStatement
  | returnStatement
  | chain (tier : Tier)
  | number
  | var
  | call
deriving DecidableEq, Repr

namespace NodeSort

def all : List NodeSort :=
  [.bare .node, .bare .expression, .bare .statement, .program, .function, .parameter, .declaration,
    .expressionStatement, .returnStatement, .chain .assign, .chain .sum, .chain .product, .number,
    .var, .call]

def label : NodeSort → String
  | .bare .node => "ASTNode"
  | .bare .expression => "Expression"
  | .bare .statement => "Statement"
  | .program => "ProgramNode"
  | .function => "FunctionNode"
  | .parameter => "ParameterNode"
  | .declaration => "DeclareStatement"
  | .expressionStatement => "ExpressionStatement"
  | .returnStatement => "ReturnStatement"
  | .chain .assign => "AssignmentExpression"
  | .chain .sum => "AdditiveExpression"
  | .chain .product => "MultiplicativeExpression"
  | .number => "NumberLiteral"
  | .var => "Identifier"
  | .call => "FunctionCall"

def ofLabel? (label : String) : Option NodeSort := all.find? fun sort => sort.label = label

end NodeSort

def Node.sort? : Node → Option NodeSort
  | .absent => none
  | .bare _ sort => some (.bare sort)
  | .program _ _ => some .program
  | .function _ _ _ _ _ _ => some .function
  | .parameter _ _ _ => some .parameter
  | .declare _ _ _ => some .declaration
  | .expression _ _ => some .expressionStatement
  | .ret _ _ => some .returnStatement
  | .number _ _ => some .number
  | .var _ _ => some .var
  | .call _ _ _ => some .call
  | .chain _ tier _ => some (.chain tier)

end WordC
