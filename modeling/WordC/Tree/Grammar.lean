import WordC.Token
import WordC.Tree

namespace WordC.Grammar

-- The language as rules: which token lists spell which trees. Nothing here says how a list is read; the
-- place of a tree is that of the first token that spells it.

def place (tokens : List Token) : Option Location := tokens.head?.map Token.location

def IsMark (mark : Lexeme) (token : Token) : Prop := token.lexeme = mark

def joins (tier : Tier) : Lexeme := .operator (some tier.symbol)
def opens : Lexeme := .parenthesis (some "(")
def closes : Lexeme := .parenthesis (some ")")
def opensBody : Lexeme := .bracket (some "\x7b")
def closesBody : Lexeme := .bracket (some "\x7d")

mutual

-- An expression of a level: one operand alone, or a chain of two or more.
inductive Level : Tier → List Token → Expr → Prop where
  | single : Operand tier tokens e → Level tier tokens e
  | several : Operands tier tokens (e :: f :: rest) →
      Level tier tokens (.chain (place tokens) tier (e :: f :: rest))

inductive Operands : Tier → List Token → List Expr → Prop where
  | last : Operand tier tokens e → Operands tier tokens [e]
  | next : Operand tier left e → IsMark (joins tier) mark → Operands tier right rest →
      Operands tier (left ++ mark :: right) (e :: rest)

-- Products are the operands of sums, and sums those of assignments.
inductive Operand : Tier → List Token → Expr → Prop where
  | ofSum : Level .sum tokens e → Operand .assign tokens e
  | ofProduct : Level .product tokens e → Operand .sum tokens e
  | ofPrimary : Primary tokens e → Operand .product tokens e

inductive Primary : List Token → Expr → Prop where
  | number : token.lexeme = .number value → Primary [token] (.number (some token.location) value)
  | var : token.lexeme = .identifier name → Primary [token] (.var (some token.location) name)
  | call : token.lexeme = .identifier name → IsMark opens left → Arguments inside given →
      IsMark closes right →
      Primary (token :: left :: inside ++ [right]) (.call (some token.location) name given)

inductive Arguments : List Token → List Expr → Prop where
  | none : Arguments [] []
  | some : ArgumentList tokens given → Arguments tokens given

inductive ArgumentList : List Token → List Expr → Prop where
  | last : Level .assign tokens e → ArgumentList tokens [e]
  | next : Level .assign left e → mark.lexeme = .comma payload → ArgumentList right rest →
      ArgumentList (left ++ mark :: right) (e :: rest)

end

abbrev Expression (tokens : List Token) (e : Expr) : Prop := Level .assign tokens e

inductive IsParameter : List Token → Parameter → Prop where
  | typed : first.lexeme = .typeName typeName → second.lexeme = .identifier name →
      IsParameter [first, second] ⟨some first.location, name, typeName⟩

inductive ParameterList : List Token → List Parameter → Prop where
  | last : IsParameter tokens p → ParameterList tokens [p]
  | next : IsParameter left p → mark.lexeme = .comma payload → ParameterList right rest →
      ParameterList (left ++ mark :: right) (p :: rest)

inductive Parameters : List Token → List Parameter → Prop where
  | none : Parameters [] []
  | some : ParameterList tokens listed → Parameters tokens listed

inductive IsStatement : List Token → Stmt → Prop where
  | declaration : first.lexeme = .typeName typeName → second.lexeme = .identifier name →
      third.lexeme = .semicolon payload →
      IsStatement [first, second, third] (.declare (some first.location) typeName name)
  | expression : Expression tokens e → last.lexeme = .semicolon payload →
      IsStatement (tokens ++ [last]) (.expression (place tokens) e)

inductive Statements : List Token → List Stmt → Prop where
  | none : Statements [] []
  | next : IsStatement left s → Statements right rest → Statements (left ++ right) (s :: rest)

inductive IsReturn : List Token → Return → Prop where
  | value : first.lexeme = .ret word → Expression tokens e → last.lexeme = .semicolon payload →
      IsReturn (first :: tokens ++ [last]) ⟨some first.location, e⟩

-- A function has statements and, after all of them, one return.
inductive IsFunction : List Token → Function → Prop where
  | definition : typeToken.lexeme = .typeName returnType → nameToken.lexeme = .identifier name →
      IsMark opens left → Parameters inside parameters → IsMark closes right →
      IsMark opensBody start → Statements body statements → IsReturn final result →
      IsMark closesBody stop →
      IsFunction
        (typeToken :: nameToken :: left :: inside ++ right :: start :: body ++ final ++ [stop])
        { location := some typeToken.location
          name
          returnType
          parameters
          statements
          result }

inductive Functions : List Token → List Function → Prop where
  | last : IsFunction tokens f → Functions tokens [f]
  | next : IsFunction left f → Functions right rest → Functions (left ++ right) (f :: rest)

inductive IsProgram : List Token → Program → Prop where
  | functions : Functions tokens listed → IsProgram tokens ⟨place tokens, listed⟩

-- A token list that can be continued to a program.
def Viable (tokens : List Token) : Prop := ∃ rest p, IsProgram (tokens ++ rest) p

end WordC.Grammar
