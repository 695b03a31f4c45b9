import WordC.Proofs.Lower.Breach
import WordC.Proofs.Parse.Derivation

namespace WordC

mutual

-- The lexemes that write an expression, as flat as the tree is.
def Expr.lexemes : Expr → List Lexeme
  | .number _ value => [.number value]
  | .var _ name => [.identifier name]
  | .call _ function arguments =>
    .identifier function :: Grammar.opens :: [.comma none].intercalate (Expr.allLexemes arguments) ++ [Grammar.closes]
  | .chain _ tier operands => [Grammar.joins tier].intercalate (Expr.allLexemes operands)

def Expr.allLexemes : List Expr → List (List Lexeme)
  | [] => []
  | e :: rest => e.lexemes :: Expr.allLexemes rest

end

def Parameter.lexemes (parameter : Parameter) : List Lexeme :=
  [.typeName parameter.typeName, .identifier parameter.name]

def Stmt.lexemes : Stmt → List Lexeme
  | .declare _ typeName name => [.typeName typeName, .identifier name, .semicolon none]
  | .expression _ value => value.lexemes ++ [.semicolon none]

def Return.lexemes (statement : Return) : List Lexeme :=
  .ret none :: statement.value.lexemes ++ [.semicolon none]

def Function.lexemes (function : Function) : List Lexeme :=
  .typeName function.returnType :: .identifier function.name :: Grammar.opens ::
    [.comma none].intercalate (function.parameters.map Parameter.lexemes) ++
    Grammar.closes :: Grammar.opensBody :: function.statements.flatMap Stmt.lexemes ++
    function.result.lexemes ++ [Grammar.closesBody]

-- The source of a program.
def Program.lexemes (program : Program) : List Lexeme := program.functions.flatMap Function.lexemes

-- A name that can be written: letters and digits, a letter first, and no word of the language.
def isName : Name → Bool
  | none => false
  | some name =>
    name.toList.all Char.isAlphanum && name.toList.head?.any Char.isAlpha && name ≠ "int" && name ≠ "return"

-- How loosely the outermost operator binds.
def Expr.looseness : Expr → Nat
  | .chain _ tier _ => Parse.looseness tier
  | _ => 0

-- What an expression must be like to be written, the expressions inside it aside. There are no parentheses for
-- grouping, so only a tighter chain can stand as an operand.
def Expr.isTidy : Expr → Bool
  | .number _ none => false
  | .number _ (some value) => 0 ≤ value && value ≤ 18446744073709551615
  | .var _ name => isName name
  | .call _ function _ => isName function
  | .chain _ tier operands => 2 ≤ operands.length && operands.all fun e => e.looseness < Parse.looseness tier

def Expr.Canonical (e : Expr) : Prop := ∀ part ∈ Lower.parts e, part.isTidy

def Stmt.Canonical : Stmt → Prop
  | .declare _ typeName name => typeName = some "int" ∧ isName name
  | .expression _ value => value.Canonical

structure Function.Canonical (function : Function) : Prop where
  named : isName function.name
  typed : function.returnType = some "int"
  parameters : ∀ parameter ∈ function.parameters, parameter.typeName = some "int" ∧ isName parameter.name
  statements : ∀ statement ∈ function.statements, statement.Canonical
  result : function.result.value.Canonical

-- A program that has a source.
structure Program.Canonical (program : Program) : Prop where
  filled : program.functions ≠ []
  functions : ∀ function ∈ program.functions, function.Canonical

theorem Expr.allLexemes_eq_map (es : List Expr) : Expr.allLexemes es = es.map Expr.lexemes := by
  induction es with
  | nil => rfl
  | cons e rest ih => simp [Expr.allLexemes, ih]

theorem Expr.Canonical.tidy {e : Expr} (canonical : e.Canonical) : e.isTidy :=
  canonical e (Lower.mem_parts_self e)

theorem Expr.Canonical.inside {e : Expr} (canonical : e.Canonical) (inside : part ∈ Lower.parts e) :
    part.Canonical := fun inner deeper =>
  canonical inner (Lower.parts_subset_of_mem e inside deeper)

theorem Expr.Canonical.tighter {e : Expr} (canonical : (Expr.chain location tier operands).Canonical)
    (member : e ∈ operands) : e.looseness < Parse.looseness tier := by
  have tidy := canonical.tidy
  simp only [Expr.isTidy, Bool.and_eq_true, List.all_eq_true, decide_eq_true_eq] at tidy
  exact tidy.2 e member

theorem Expr.looseness_le_assign (e : Expr) : e.looseness ≤ Parse.looseness .assign := by
  cases e with
  | chain location tier operands => exact Parse.looseness_le tier
  | number | var | call => exact Nat.zero_le _

namespace Grammar

-- A token that stands nowhere in particular.
def loose (lexeme : Lexeme) : Token := ⟨lexeme, ⟨"", 1, 1⟩⟩

section

variable {α β : Type} {write : α → List Lexeme} {look : α → β} {Item : List Token → α → Prop}

-- Something that the rules derive from the lexemes that write it, up to what is looked at.
def Spelt (write : α → List Lexeme) (look : α → β) (Item : List Token → α → Prop) (a : α) : Prop :=
  ∃ used b, Item used b ∧ used.map Token.lexeme = write a ∧ look b = look a

theorem Spelt.imp {Other : List Token → α → Prop} (spelt : Spelt write look Item a)
    (implies : ∀ used b, Item used b → Other used b) : Spelt write look Other a := by
  obtain ⟨used, b, item, written, same⟩ := spelt
  exact ⟨used, b, implies used b item, written, same⟩

-- Items with a mark between any two.
theorem separated_spelt {Items : List Token → List α → Prop} {mark : Lexeme}
    (last : ∀ {used a}, Item used a → Items used [a])
    (next : ∀ {left a token right rest}, Item left a → token.lexeme = mark → Items right rest →
      Items (left ++ token :: right) (a :: rest))
    (filled : items ≠ []) (each : ∀ a ∈ items, Spelt write look Item a) :
    Spelt (fun items => [mark].intercalate (items.map write)) (List.map look) Items items := by
  induction items with
  | nil => exact absurd rfl filled
  | cons a rest ih =>
    obtain ⟨left, b, item, written, same⟩ := each a List.mem_cons_self
    cases rest with
    | nil => exact ⟨left, [b], last item, by simp [written], by simp [same]⟩
    | cons c later =>
      obtain ⟨right, bs, listed, writtenRest, sameRest⟩ :=
        ih (List.cons_ne_nil _ _) fun d member => each d (List.mem_cons_of_mem _ member)
      refine ⟨left ++ loose mark :: right, b :: bs, next item rfl listed, ?_, by simp [same, sameRest]⟩
      simp [written, writtenRest, loose, List.intercalate_cons_cons]

end

-- What stands on a level stands on the looser ones, too.
theorem level_loosens (level : Level tier used e) (within : Parse.looseness tier ≤ Parse.looseness tier') :
    Level tier' used e :=
  match tier, tier' with
  | .product, .product | .sum, .sum | .assign, .assign => level
  | .product, .sum => .single (.ofProduct level)
  | .product, .assign => .single (.ofSum (.single (.ofProduct level)))
  | .sum, .assign => .single (.ofSum level)
  | .sum, .product | .assign, .product | .assign, .sum => absurd within (by decide)

-- An expression can stand alone if nothing joins it, and on every level that is loose enough.
def Stands (e : Expr) : Prop :=
  (e.looseness = 0 → Spelt Expr.lexemes shape Primary e) ∧
    ∀ tier, e.looseness ≤ Parse.looseness tier → Spelt Expr.lexemes shape (Level tier) e

theorem stands_of_primary (primary : Spelt Expr.lexemes shape Primary e) : Stands e :=
  ⟨fun _ => primary, fun tier _ => primary.imp fun _ _ found => .single (Parse.operand_of_primary found tier)⟩

theorem Stands.operand (stands : Stands e) (tight : e.looseness < Parse.looseness tier) :
    Spelt Expr.lexemes shape (Operand tier) e := by
  cases tier with
  | product => exact (stands.1 (Nat.lt_one_iff.mp tight)).imp fun _ _ => .ofPrimary
  | sum => exact (stands.2 .product (Nat.le_of_lt_succ tight)).imp fun _ _ => .ofProduct
  | assign => exact (stands.2 .sum (Nat.le_of_lt_succ tight)).imp fun _ _ => .ofSum

theorem arguments_spelt (each : ∀ e ∈ given, Stands e) :
    Spelt (fun es => [.comma none].intercalate (es.map Expr.lexemes)) (List.map shape) Arguments given := by
  cases given with
  | nil => exact ⟨[], [], .none, rfl, rfl⟩
  | cons e rest =>
    refine (separated_spelt .last .next (List.cons_ne_nil _ _) ?_).imp fun _ _ => .some
    exact fun f member => (each f member).2 .assign (f.looseness_le_assign)

-- The rules derive a canonical expression from its own lexemes.
theorem canonical_stands (e : Expr) (canonical : e.Canonical) : Stands e := by
  induction e with
  | number location value =>
    exact stands_of_primary ⟨[loose (.number value)], _, .number rfl, rfl, rfl⟩
  | var location name =>
    exact stands_of_primary ⟨[loose (.identifier name)], _, .var rfl, rfl, rfl⟩
  | call location name arguments ih =>
    obtain ⟨inside, given, found, written, same⟩ :=
      arguments_spelt fun e member => ih e member (canonical.inside (Lower.mem_parts_call member))
    refine stands_of_primary
      ⟨loose (.identifier name) :: loose opens :: inside ++ [loose closes], _, .call rfl rfl found rfl, ?_, ?_⟩
    · simp [loose, Expr.lexemes, Expr.allLexemes_eq_map, written]
    · simp only [shape_call, same]
  | chain location tier operands ih =>
    have several : 2 ≤ operands.length := by
      have tidy := canonical.tidy
      simp only [Expr.isTidy, Bool.and_eq_true, decide_eq_true_eq] at tidy
      exact tidy.1
    have each : ∀ e ∈ operands, Spelt Expr.lexemes shape (Operand tier) e := fun e member =>
      (ih e member (canonical.inside (Lower.mem_parts_chain member))).operand (canonical.tighter member)
    have filled : operands ≠ [] := List.length_pos_iff.mp (Nat.lt_of_lt_of_le Nat.zero_lt_two several)
    have listed : Spelt (fun es => [joins tier].intercalate (es.map Expr.lexemes)) (List.map shape) (Operands tier)
        operands := separated_spelt .last .next filled each
    obtain ⟨used, es, found, written, same⟩ := listed
    have count : es.length = operands.length := by simpa using congrArg List.length same
    refine ⟨fun alone => absurd alone (Nat.ne_of_gt (Parse.looseness_pos tier)), fun tier' within => ?_⟩
    match es with
    | [] | [_] => simp at count; omega
    | e :: f :: rest =>
      refine ⟨used, _, level_loosens (.several found) within, ?_, ?_⟩
      · rw [Expr.lexemes, Expr.allLexemes_eq_map, written]
      · simp only [shape_chain, same]

theorem expression_spelt (canonical : e.Canonical) : Spelt Expr.lexemes shape Expression e :=
  (canonical_stands e canonical).2 .assign (e.looseness_le_assign)

theorem parameters_spelt (listed : List Parameter) :
    Spelt (fun ps => [.comma none].intercalate (ps.map Parameter.lexemes)) (List.map (Node.unplaced ∘ Parameter.node))
      Parameters listed := by
  cases listed with
  | nil => exact ⟨[], [], .none, rfl, rfl⟩
  | cons p rest =>
    refine (separated_spelt .last .next (List.cons_ne_nil _ _) ?_).imp fun _ _ => .some
    exact fun p _ => ⟨[loose (.typeName p.typeName), loose (.identifier p.name)], _, .typed rfl rfl, rfl, rfl⟩

theorem statement_spelt (s : Stmt) (canonical : s.Canonical) :
    Spelt Stmt.lexemes (Node.unplaced ∘ Stmt.node) IsStatement s := by
  cases s with
  | declare location typeName name =>
    exact ⟨[loose (.typeName typeName), loose (.identifier name), loose (.semicolon none)], _,
      .declaration rfl rfl rfl, rfl, rfl⟩
  | expression location value =>
    obtain ⟨used, e, found, written, same⟩ := expression_spelt canonical
    refine ⟨used ++ [loose (.semicolon none)], _, .expression found rfl, ?_, congrArg (Node.expression none) same⟩
    simp [Stmt.lexemes, written, loose]

theorem statements_spelt (canonical : ∀ s ∈ listed, s.Canonical) :
    Spelt (List.flatMap Stmt.lexemes) (List.map (Node.unplaced ∘ Stmt.node)) Statements listed := by
  induction listed with
  | nil => exact ⟨[], [], .none, rfl, rfl⟩
  | cons s rest ih =>
    obtain ⟨here, later⟩ := List.forall_mem_cons.mp canonical
    obtain ⟨left, t, statement, written, same⟩ := statement_spelt s here
    obtain ⟨right, ts, statements, writtenRest, sameRest⟩ := ih later
    refine ⟨left ++ right, t :: ts, .next statement statements, ?_, ?_⟩
    · rw [List.map_append, List.flatMap_cons, written, writtenRest]
    · rw [List.map_cons, List.map_cons, same, sameRest]

theorem return_spelt (r : Return) (canonical : r.value.Canonical) :
    Spelt Return.lexemes (Node.unplaced ∘ Return.node) IsReturn r := by
  obtain ⟨used, e, found, written, same⟩ := expression_spelt canonical
  refine ⟨loose (.ret none) :: used ++ [loose (.semicolon none)], _, .value rfl found rfl, ?_,
    congrArg (Node.ret none) same⟩
  simp [Return.lexemes, written, loose]

theorem function_spelt (f : Function) (canonical : f.Canonical) :
    Spelt Function.lexemes (Node.unplaced ∘ Function.node) IsFunction f := by
  obtain ⟨inside, ps, parameters, writtenInside, sameParameters⟩ := parameters_spelt f.parameters
  obtain ⟨body, ss, statements, writtenBody, sameStatements⟩ := statements_spelt canonical.statements
  obtain ⟨final, r, returned, writtenFinal, sameResult⟩ := return_spelt f.result canonical.result
  refine ⟨loose (.typeName f.returnType) :: loose (.identifier f.name) :: loose opens :: inside ++
    loose closes :: loose opensBody :: body ++ final ++ [loose closesBody], _,
    .definition rfl rfl rfl parameters rfl rfl statements returned rfl, ?_, ?_⟩
  · simp [Function.lexemes, writtenInside, writtenBody, writtenFinal, loose]
  · simp only [Function.comp] at sameResult
    simp only [Function.comp, Function.node, Node.unplaced, Node.allUnplaced_eq_map, List.map_map, sameParameters,
      sameStatements, sameResult]

theorem functions_spelt (filled : listed ≠ []) (canonical : ∀ f ∈ listed, f.Canonical) :
    Spelt (List.flatMap Function.lexemes) (List.map (Node.unplaced ∘ Function.node)) Functions listed := by
  induction listed with
  | nil => exact absurd rfl filled
  | cons f rest ih =>
    obtain ⟨here, later⟩ := List.forall_mem_cons.mp canonical
    obtain ⟨left, g, function, written, same⟩ := function_spelt f here
    cases rest with
    | nil => exact ⟨left, [g], .last function, by simp [written], by simpa using same⟩
    | cons f' others =>
      obtain ⟨right, gs, functions, writtenRest, sameRest⟩ := ih (List.cons_ne_nil _ _) later
      refine ⟨left ++ right, g :: gs, .next function functions, ?_, ?_⟩
      · rw [List.map_append, List.flatMap_cons, written, writtenRest]
      · rw [List.map_cons, List.map_cons, same, sameRest]

-- The source of a canonical program spells it.
theorem canonical_derives (canonical : p.Canonical) : Derives p.lexemes p := by
  obtain ⟨tokens, fs, functions, written, same⟩ := functions_spelt canonical.filled canonical.functions
  refine ⟨tokens, _, written, .functions functions, Program.same_iff.mpr ?_⟩
  simp only [Program.node, Node.unplaced, Node.allUnplaced_eq_map, List.map_map, same]

end Grammar

end WordC
