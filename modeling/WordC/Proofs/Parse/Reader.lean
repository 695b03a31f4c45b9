import WordC.Proofs.Except
import WordC.Tree.Parse

namespace WordC.Parse

-- A reader without the bound on what it leaves over.
abbrev Reader (α : Type) := List Token → Except Refusal (α × List Token)

-- The same reading, with the bound forgotten.
def plain {keeps : List Token → List Token → Prop}
    (read : (tokens : List Token) → Except Refusal (α × { rest : List Token // keeps tokens rest })) :
    Reader α :=
  fun tokens => (read tokens).map fun (found, rest) => (found, rest.1)

namespace Reader

def give (found : α) : Reader α := fun tokens => .ok (found, tokens)

def andThen (first : Reader α) (next : α → Reader β) : Reader β := fun tokens =>
  match first tokens with
  | .error refusal => .error refusal
  | .ok (found, rest) => next found rest

-- One of two readers, by the next token.
def choose (test : Option Token → Bool) (yes no : Reader α) : Reader α := fun tokens =>
  if test tokens.head? then yes tokens else no tokens

-- What a reader finds, with the place where it started.
def placed (read : Reader α) : Reader (Option Location × α) := fun tokens =>
  (read tokens).map fun (found, rest) => ((here tokens, found), rest)

-- The next token if it passes a test.
def take (test : Lexeme → Bool) (refusal : Option Token → Refusal) : Reader Token
  | [] => .error (refusal none)
  | token :: rest => if test token.lexeme then .ok (token, rest) else .error (refusal (some token))

end Reader

open Reader

def meets (wanted : Wanted) (next : Option Token) : Bool := next.any fun token => wanted.metBy token.lexeme

def starts (next : Option Token) : Bool := next.any fun token => token.lexeme.startsExpression

def demand (wanted : Wanted) : Reader Token := take wanted.metBy (.unmet wanted)

-- What a reader finds in front of a token that only ends it.
def Reader.closedBy (read : Reader α) (wanted : Wanted) : Reader α :=
  read.andThen fun found => (demand wanted).andThen fun _ => give found

theorem andThen_eq_ok {first : Reader α} {next : α → Reader β} :
    first.andThen next tokens = .ok (found, rest) ↔
      ∃ middle between, first tokens = .ok (middle, between) ∧ next middle between = .ok (found, rest) := by
  unfold andThen
  cases first tokens with
  | error refusal => simp
  | ok result => simp [Prod.ext_iff, and_assoc]

theorem placed_eq_ok {read : Reader α} :
    read.placed tokens = .ok (found, rest) ↔ found.1 = here tokens ∧ read tokens = .ok (found.2, rest) := by
  unfold placed
  rw [map_eq_ok]
  constructor
  · intro made
    obtain ⟨result, run, made⟩ := made
    cases made
    exact ⟨rfl, run⟩
  · intro made
    obtain ⟨here, run⟩ := made
    exact ⟨_, run, by rw [← here]⟩

theorem take_eq_ok {test : Lexeme → Bool} {refusal : Option Token → Refusal} :
    take test refusal tokens = .ok (token, rest) ↔ tokens = token :: rest ∧ test token.lexeme := by
  cases tokens with
  | nil => simp [take]
  | cons first after =>
    simp only [take]
    split
    · rename_i passed
      simp only [Except.ok.injEq, Prod.mk.injEq, List.cons.injEq]
      constructor
      · intro same
        obtain ⟨rfl, rfl⟩ := same
        exact ⟨⟨rfl, rfl⟩, passed⟩
      · exact And.left
    · rename_i failed
      simp only [reduceCtorEq, List.cons.injEq, false_iff]
      intro same
      obtain ⟨⟨rfl, rfl⟩, passed⟩ := same
      exact failed passed

theorem demand_eq_ok {wanted : Wanted} :
    demand wanted tokens = .ok (token, rest) ↔ tokens = token :: rest ∧ wanted.metBy token.lexeme :=
  take_eq_ok

theorem closedBy_eq_ok {read : Reader α} {wanted : Wanted} :
    read.closedBy wanted tokens = .ok (found, rest) ↔
      ∃ mark, read tokens = .ok (found, mark :: rest) ∧ wanted.metBy mark.lexeme := by
  simp only [closedBy, andThen_eq_ok, demand_eq_ok, give, Except.ok.injEq, Prod.mk.injEq]
  constructor
  · intro run
    obtain ⟨_, _, run, mark, _, ⟨rfl, met⟩, rfl, rfl⟩ := run
    exact ⟨mark, run, met⟩
  · intro run
    obtain ⟨mark, run, met⟩ := run
    exact ⟨found, _, run, mark, rest, ⟨rfl, met⟩, rfl, rfl⟩

theorem plain_expect (wanted : Wanted) : plain (expect wanted) = demand wanted := by
  funext tokens
  cases tokens with
  | nil => rfl
  | cons token rest =>
    simp only [plain, expect, demand, take]
    split <;> rfl

theorem plain_chain (tier : Tier) :
    plain (chain tier) = (plain (operand tier)).placed.andThen fun (place, first) =>
      (plain (moreOperands tier)).andThen fun more => give (chained place tier first more) := by
  funext tokens
  rw [plain, chain]
  simp only [andThen, placed, plain]
  cases operand tier tokens with
  | error refusal => rfl
  | ok found =>
    obtain ⟨first, rest, shorter⟩ := found
    simp only [Except.map]
    cases moreOperands tier rest <;> rfl

theorem plain_operand (below : tighter tier = some next) : plain (operand tier) = plain (chain next) := by
  funext tokens
  rw [plain, operand]
  split
  · rename_i other found
    obtain rfl : other = next := by simpa [below] using found.symm
    rfl
  · rename_i found
    simp [below] at found

theorem plain_operand_product : plain (operand .product) = plain primary := by
  funext tokens
  rw [plain, operand]
  rfl

theorem plain_moreOperands (tier : Tier) :
    plain (moreOperands tier) = choose (meets (.operator (some tier.symbol)))
      ((demand (.operator (some tier.symbol))).andThen fun _ =>
        (plain (operand tier)).andThen fun next =>
          (plain (moreOperands tier)).andThen fun more => give (next :: more))
      (give []) := by
  funext tokens
  cases tokens with
  | nil =>
    rw [plain, moreOperands]
    rfl
  | cons token after =>
    rw [plain, moreOperands]
    simp only [choose, meets, List.head?_cons, Option.any_some, demand, andThen, take]
    by_cases joined : (Wanted.operator (some tier.symbol)).metBy token.lexeme
    · simp only [joined, if_true, plain]
      cases operand tier after with
      | error refusal => rfl
      | ok found =>
        obtain ⟨next, rest, shorter⟩ := found
        simp only [Except.map]
        cases moreOperands tier rest <;> rfl
    · simp [joined, give, Except.map]

-- What follows the first token of a primary.
def primaryAfter (token : Token) : Reader Expr :=
  match token.lexeme with
  | .number value => give (.number (some token.location) value)
  | .identifier name =>
    choose (meets (.parenthesis (some "(")))
      (((demand (.parenthesis (some "("))).andThen fun _ =>
        (plain arguments).closedBy (.parenthesis (some ")"))).andThen fun given =>
          give (.call (some token.location) name given))
      (give (.var (some token.location) name))
  | _ => fun _ => .error (.noExpression (some token))

theorem plain_primary :
    plain primary = (take Lexeme.startsExpression .noExpression).andThen primaryAfter := by
  funext tokens
  cases tokens with
  | nil =>
    rw [plain, primary]
    rfl
  | cons token after =>
    rw [plain, primary.eq_def]
    simp only [andThen, take, primaryAfter]
    cases spelled : token.lexeme with
    | number value => simp [Lexeme.startsExpression, spelled, Except.map, give]
    | identifier name =>
      simp only [Lexeme.startsExpression, spelled, if_true]
      cases after with
      | nil => rfl
      | cons second inside =>
        simp only [choose, meets, List.head?_cons, Option.any_some, demand, andThen, take, opensCall]
        by_cases opened : (Wanted.parenthesis (some "(")).metBy second.lexeme
        · simp only [opened, if_true, closedBy, ← plain_expect, andThen, plain]
          cases arguments inside with
          | error refusal => rfl
          | ok found =>
            obtain ⟨given, rest, noLonger⟩ := found
            simp only [Except.map]
            cases expect (.parenthesis (some ")")) rest <;> rfl
        · simp [opened, give, Except.map]
    | typeName | operator | bracket | parenthesis | comma | semicolon | ret =>
      simp [Lexeme.startsExpression, Except.map]

theorem plain_arguments : plain arguments = choose starts (plain argumentList) (give []) := by
  funext tokens
  rw [plain, arguments]
  simp only [choose, starts, nextStartsExpression, plain]
  by_cases started : tokens.head?.any fun token => token.lexeme.startsExpression
  · simp only [started, if_true]
    cases argumentList tokens <;> rfl
  · simp [started, give, Except.map]

theorem plain_argumentList :
    plain argumentList = (plain (chain .assign)).andThen fun first =>
      choose (meets .comma)
        ((demand .comma).andThen fun _ =>
          (plain argumentList).andThen fun more => give (first :: more))
        (give [first]) := by
  funext tokens
  rw [plain, argumentList]
  simp only [andThen, plain]
  cases chain .assign tokens with
  | error refusal => rfl
  | ok found =>
    obtain ⟨first, rest, shorter⟩ := found
    cases rest with
    | nil => rfl
    | cons token after =>
      simp only [Except.map, choose, meets, List.head?_cons, Option.any_some, demand]
      by_cases comma : Wanted.comma.metBy token.lexeme
      · simp only [comma, if_true, andThen, take, plain]
        cases argumentList after <;> rfl
      · simp [comma, give]

-- A name after a type. A star that stands there instead is called a pointer.
def nameRefusal : Option Token → Refusal
  | none => .unmet .identifier none
  | some token =>
    if (Wanted.operator (some "*")).metBy token.lexeme then .pointer token
    else .unmet .identifier (some token)

theorem plain_typedName :
    plain typedName = (demand .typeName).andThen fun first =>
      (take Wanted.identifier.metBy nameRefusal).andThen fun second =>
        give (first.lexeme.name, second.lexeme.name) := by
  rw [← plain_expect]
  funext tokens
  simp only [plain, typedName, andThen]
  cases expect .typeName tokens with
  | error refusal => rfl
  | ok found =>
    obtain ⟨first, rest, shorter⟩ := found
    cases rest with
    | nil => rfl
    | cons second after =>
      simp only [refusePointer, Except.map, take, nameRefusal, expect]
      by_cases star : (Wanted.operator (some "*")).metBy second.lexeme
      · have unnamed : Wanted.identifier.metBy second.lexeme = false := by
          cases spelled : second.lexeme <;> simp [spelled, Wanted.metBy] at star ⊢
        simp [star, unnamed]
      · by_cases named : Wanted.identifier.metBy second.lexeme <;> simp [star, named, give]

theorem plain_parameter :
    plain parameter = (plain typedName).placed.andThen fun (place, typeName, name) =>
      give ⟨place, name, typeName⟩ := by
  funext tokens
  simp only [plain, parameter, placed, andThen]
  cases typedName tokens <;> rfl

theorem plain_parameterList :
    plain parameterList = (plain parameter).andThen fun first =>
      choose (meets .comma)
        ((demand .comma).andThen fun _ =>
          (plain parameterList).andThen fun more => give (first :: more))
        (give [first]) := by
  funext tokens
  rw [plain, parameterList]
  simp only [andThen, plain]
  cases parameter tokens with
  | error refusal => rfl
  | ok found =>
    obtain ⟨first, rest, shorter⟩ := found
    cases rest with
    | nil => rfl
    | cons token after =>
      simp only [Except.map, choose, meets, List.head?_cons, Option.any_some, demand]
      by_cases comma : Wanted.comma.metBy token.lexeme
      · simp only [comma, if_true, andThen, take, plain]
        cases parameterList after <;> rfl
      · simp [comma, give]

theorem plain_parameters :
    plain parameters =
      choose (meets (.parenthesis (some ")"))) (give []) (plain parameterList) := by
  funext tokens
  simp only [plain, parameters, nextMeets, choose, meets]
  by_cases closed : tokens.head?.any fun token => (Wanted.parenthesis (some ")")).metBy token.lexeme
  · simp [closed, give, Except.map]
  · simp only [closed]
    cases parameterList tokens <;> rfl

theorem plain_declaration :
    plain declaration = ((plain typedName).closedBy .semicolon).placed.andThen
      fun (place, typeName, name) => give (.declare place typeName name) := by
  funext tokens
  simp only [closedBy, ← plain_expect, plain, declaration, placed, andThen]
  cases typedName tokens with
  | error refusal => rfl
  | ok found =>
    obtain ⟨_, rest, shorter⟩ := found
    simp only [Except.map]
    cases expect .semicolon rest <;> rfl

theorem plain_expressionStatement :
    plain expressionStatement = ((plain expression).closedBy .semicolon).placed.andThen
      fun (place, value) => give (.expression place value) := by
  funext tokens
  simp only [closedBy, ← plain_expect, plain, expressionStatement, placed, andThen]
  cases expression tokens with
  | error refusal => rfl
  | ok found =>
    obtain ⟨_, rest, shorter⟩ := found
    simp only [Except.map]
    cases expect .semicolon rest <;> rfl

-- A statement once started, and the statements after it.
theorem plain_statements_of_some {found : Reading Stmt tokens} (started : statement? tokens = some found) :
    plain statements tokens =
      andThen (fun _ => found.map fun (first, rest) => (first, rest.1))
        (fun first => (plain statements).andThen fun more => give (first :: more)) tokens := by
  rw [plain, statements, started]
  cases found with
  | error refusal => rfl
  | ok found =>
    obtain ⟨first, rest, shorter⟩ := found
    simp only [andThen, Except.map, plain]
    cases statements rest <;> rfl

theorem plain_statements :
    plain statements = choose (fun next => meets .typeName next || starts next)
      ((choose (meets .typeName) (plain declaration) (plain expressionStatement)).andThen fun first =>
        (plain statements).andThen fun more => give (first :: more))
      (give []) := by
  funext tokens
  by_cases typed : meets .typeName tokens.head? = true
  · have started : statement? tokens = some (declaration tokens) := if_pos typed
    rw [plain_statements_of_some started]
    simp only [choose, typed, Bool.true_or, if_true, andThen, plain]
  · by_cases begun : starts tokens.head? = true
    · have started : statement? tokens = some (expressionStatement tokens) :=
        (if_neg typed).trans (if_pos begun)
      rw [plain_statements_of_some started]
      simp only [choose, typed, begun, Bool.or_true, if_true, andThen, plain]
      rfl
    · have nothing : statement? tokens = none := (if_neg typed).trans (if_neg begun)
      rw [plain, statements, nothing]
      simp [choose, typed, begun, give, Except.map]

theorem plain_returnStatement :
    plain returnStatement =
      ((demand .ret).andThen fun _ => (plain expression).closedBy .semicolon).placed.andThen
        fun (place, value) => give ⟨place, value⟩ := by
  funext tokens
  simp only [closedBy, ← plain_expect, plain, returnStatement, placed, andThen]
  cases expect .ret tokens with
  | error refusal => rfl
  | ok found =>
    obtain ⟨_, rest, shorter⟩ := found
    simp only [Except.map]
    cases expression rest with
    | error refusal => rfl
    | ok found =>
      obtain ⟨_, rest', shorter'⟩ := found
      simp only
      cases expect .semicolon rest' <;> rfl

theorem plain_heading :
    plain heading = (demand .typeName).andThen fun first =>
      (demand .identifier).andThen fun second =>
        ((demand (.parenthesis (some "("))).andThen fun _ =>
          (plain parameters).closedBy (.parenthesis (some ")"))).andThen fun listed =>
            give (first.lexeme.name, second.lexeme.name, listed) := by
  funext tokens
  simp only [closedBy, ← plain_expect, plain, heading, andThen, bind, Except.bind]
  cases expect .typeName tokens with
  | error refusal => rfl
  | ok found =>
    obtain ⟨_, t1, h1⟩ := found
    simp only [Except.map]
    cases expect .identifier t1 with
    | error refusal => rfl
    | ok found =>
      obtain ⟨_, t2, h2⟩ := found
      simp only
      cases expect (.parenthesis (some "(")) t2 with
      | error refusal => rfl
      | ok found =>
        obtain ⟨_, t3, h3⟩ := found
        simp only
        cases parameters t3 with
        | error refusal => rfl
        | ok found =>
          obtain ⟨_, t4, h4⟩ := found
          simp only
          cases expect (.parenthesis (some ")")) t4 <;> rfl

theorem plain_body :
    plain body = (demand (.bracket (some "\x7b"))).andThen fun _ =>
      ((plain statements).andThen fun listed =>
        (plain returnStatement).andThen fun result => give (listed, result)).closedBy
          (.bracket (some "\x7d")) := by
  funext tokens
  simp only [closedBy, ← plain_expect, plain, body, andThen, bind, Except.bind]
  cases expect (.bracket (some "\x7b")) tokens with
  | error refusal => rfl
  | ok found =>
    obtain ⟨_, t1, h1⟩ := found
    simp only [Except.map]
    cases statements t1 with
    | error refusal => rfl
    | ok found =>
      obtain ⟨_, t2, h2⟩ := found
      simp only
      cases returnStatement t2 with
      | error refusal => rfl
      | ok found =>
        obtain ⟨_, t3, h3⟩ := found
        simp only [give]
        cases expect (.bracket (some "\x7d")) t3 <;> rfl

theorem plain_function :
    plain function = ((plain heading).andThen fun heading =>
      (plain body).andThen fun body => give (heading, body)).placed.andThen
        fun (place, (returnType, name, parameters), (statements, result)) =>
          give ⟨place, name, returnType, parameters, statements, result⟩ := by
  funext tokens
  simp only [plain, function, placed, andThen, bind, Except.bind]
  cases heading tokens with
  | error refusal => rfl
  | ok found =>
    obtain ⟨_, rest, shorter⟩ := found
    simp only [Except.map]
    cases body rest <;> rfl

-- Functions to the last token, as a reader that leaves nothing over.
def wholeFunctions : Reader (List Function) := fun tokens => (functions tokens).map fun found => (found, [])

theorem wholeFunctions_eq :
    wholeFunctions = (plain function).andThen fun first =>
      choose Option.isNone (give [first])
        (wholeFunctions.andThen fun more => give (first :: more)) := by
  funext tokens
  rw [wholeFunctions, functions]
  simp only [andThen, plain]
  cases function tokens with
  | error refusal => rfl
  | ok found =>
    obtain ⟨first, rest, shorter⟩ := found
    cases rest with
    | nil => rfl
    | cons next after =>
      simp only [Except.map, choose, List.head?_cons, Option.isNone_some]
      cases read : functions (next :: after) <;> simp [andThen, wholeFunctions, read, Except.map, give]

end WordC.Parse
