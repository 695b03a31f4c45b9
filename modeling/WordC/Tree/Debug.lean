import WordC.Text.Quoted
import WordC.Tree.Outline
import WordC.Tree.Sort

namespace WordC

-- The form of a tree that shows every field but the locations, on one line.

def debugName (name : Name) : String :=
  match name with
  | none => "None"
  | some text => Text.quoted text

def debugList (items : List String) : String := "[" ++ ", ".intercalate items ++ "]"

def debugNode (sort : NodeSort) (fields : List (String × String)) : String :=
  sort.label ++ "(" ++ ", ".intercalate (fields.map fun (field, shown) => field ++ "=" ++ shown) ++ ")"

mutual

def Node.debugText : Node → String
  | .absent => "None"
  | .bare _ sort => debugNode (.bare sort) []
  | .program _ functions => debugNode .program [("functions", debugList (Node.debugTexts functions))]
  | .function _ name returnType parameters statements result =>
    debugNode .function
      [("name", debugName name), ("return_type", debugName returnType),
        ("parameters", debugList (Node.debugTexts parameters)),
        ("statements", debugList (Node.debugTexts statements)),
        ("return_statement", result.debugText)]
  | .parameter _ name typeName =>
    debugNode .parameter [("name", debugName name), ("type_name", debugName typeName)]
  | .declare _ typeName name =>
    debugNode .declaration [("type_name", debugName typeName), ("identifier", debugName name)]
  | .expression _ value => debugNode .expressionStatement [("expression", value.debugText)]
  | .ret _ value => debugNode .returnStatement [("expression", value.debugText)]
  | .number _ value => debugNode .number [("value", valueText value)]
  | .var _ name => debugNode .var [("name", debugName name)]
  | .call _ callee arguments =>
    debugNode .call
      [("name", debugName callee), ("arguments", debugList (Node.debugTexts arguments))]
  | .chain _ tier operands =>
    debugNode (.chain tier) [("operands", debugList (Node.debugTexts operands))]

def Node.debugTexts : List Node → List String
  | [] => []
  | node :: rest => node.debugText :: Node.debugTexts rest

end

end WordC
