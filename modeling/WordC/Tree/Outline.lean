import WordC.Tree.Node

namespace WordC

-- An outline has one line per node, indented by its depth in the tree. A node that is absent where one has
-- to be shown leaves no outline at all.
structure OutlineLine where
  depth : Nat
  content : String
deriving DecidableEq, Repr

abbrev Outline := List OutlineLine

def OutlineLine.text (line : OutlineLine) : String :=
  String.join (List.replicate line.depth "| ") ++ line.content

def Outline.text (outline : Outline) : String :=
  "\n".intercalate (outline.map OutlineLine.text)

def valueText (value : Option Int) : String :=
  match value with
  | none => "None"
  | some n => toString n

-- A line, and below it what could be shown there.
def headed (depth : Nat) (content : String) (below : Option Outline) : Option Outline :=
  below.map (⟨depth, content⟩ :: ·)

-- One outline after the other, if both could be made.
def followed (first later : Option Outline) : Option Outline :=
  match first, later with
  | some first, some later => some (first ++ later)
  | _, _ => none

mutual

-- Bare nodes take no line. A function may lack its result and then shows none.
def Node.outline (depth : Nat) : Node → Option Outline
  | .absent => none
  | .bare _ _ => some []
  | .program _ functions => headed depth "program" (Node.outlineList (depth + 1) functions)
  | .function _ name returnType parameters statements result =>
    headed depth s!"function: {name.text}"
      (headed (depth + 1) s!"return_type: {returnType.text}"
        (followed
          (headed (depth + 1) "parameters:" (Node.outlineList (depth + 2) parameters))
          (followed
            (headed (depth + 1) "statements:" (Node.outlineList (depth + 2) statements))
            (if result.isAbsent then some [] else result.outline (depth + 1)))))
  | .parameter _ name typeName => some [⟨depth, s!"{typeName.text} {name.text}"⟩]
  | .declare _ typeName name => some [⟨depth, s!"declare: {typeName.text} {name.text}"⟩]
  | .expression _ value => headed depth "expression_statement:" (value.outline (depth + 1))
  | .ret _ value => headed depth "return:" (value.outline (depth + 1))
  | .number _ value => some [⟨depth, s!"number: {valueText value}"⟩]
  | .var _ name => some [⟨depth, s!"identifier: {name.text}"⟩]
  | .call _ callee arguments =>
    headed depth s!"function_call: {callee.text}" (Node.outlineList (depth + 1) arguments)
  | .chain _ tier operands =>
    headed depth s!"operator: {tier.symbol}" (Node.outlineList (depth + 1) operands)

def Node.outlineList (depth : Nat) : List Node → Option Outline
  | [] => some []
  | node :: rest => followed (node.outline depth) (Node.outlineList depth rest)

end

def Program.outline (program : Program) : Option Outline := program.node.outline 0

def Program.outlineText (program : Program) : String := (program.outline.map Outline.text).getD ""

end WordC
