import WordC.Proofs.Parse.Cost

namespace WordC.Descent
open Parse Parse.Reader Script

-- A statement, if one starts here.
def oneStatement : Reader (Option Stmt) :=
  choose (meets .typeName) ((plain declaration).andThen fun s => Reader.give (some s))
    (choose starts ((plain expressionStatement).andThen fun s => Reader.give (some s)) (Reader.give none))

def statementsAfter (found : List Stmt) : Option Stmt → Reader (List Stmt)
  | none => Reader.give found
  | some next => (plain statements).andThen fun more => Reader.give (found ++ [next] ++ more)

-- What a part reads.
def Part.reader : (part : Part) → Reader part.Result
  | .program => Reader.sited fun place => wholeFunctions.andThen fun found => Reader.give ⟨place, found⟩
  | .functions place found => wholeFunctions.andThen fun more => Reader.give ⟨place, found ++ more⟩
  | .function => plain Parse.function
  | .parameters => plain Parse.parameters
  | .parameterList found => (plain Parse.parameterList).andThen fun more => Reader.give (found ++ more)
  | .parameter => plain Parse.parameter
  | .statements found => (plain Parse.statements).andThen fun more => Reader.give (found ++ more)
  | .statement => oneStatement
  | .declaration => plain Parse.declaration
  | .expressionStatement => plain Parse.expressionStatement
  | .returnStatement => plain Parse.returnStatement
  | .chain tier => plain (Parse.chain tier)
  | .operand tier => plain (Parse.operand tier)
  | .moreOperands tier place first found =>
    (plain (Parse.moreOperands tier)).andThen fun more => Reader.give (chained place tier first (found ++ more))
  | .primary => plain Parse.primary
  | .invocation => Reader.sited fun place => (demand .identifier).andThen fun name =>
      (demand (.parenthesis (some "("))).andThen fun _ => (plain Parse.arguments).andThen fun given =>
        (demand (.parenthesis (some ")"))).andThen fun _ => Reader.give (.call place name.lexeme.name given)
  | .argumentList found => (plain Parse.argumentList).andThen fun more => Reader.give (found ++ more)

-- The tokens that a part takes at least.
def Part.least : (part : Part) → part.Result → Nat
  | .parameters, _ | .statements _, _ | .moreOperands _ _ _ _, _ => 0
  | .statement, found => if found.isSome then 1 else 0
  | .program, _ | .functions _ _, _ | .function, _ | .parameterList _, _ | .parameter, _ | .declaration, _
  | .expressionStatement, _ | .returnStatement, _ | .chain _, _ | .operand _, _ | .primary, _ | .invocation, _
  | .argumentList _, _ => 1

-- What a part costs beyond the worth of the tokens it took. It is negative where these pay for more steps than it made.
def Part.price : (part : Part) → part.Result → Int
  | .program, _ => 2
  | .functions _ _, _ => 0
  | .parameters, _ | .moreOperands _ _ _ _, _ => 1
  | .statements _, _ => 3
  | .statement, found => if found.isSome then -24 else 2
  | .chain tier, _ => 5 * looseness tier - 21
  | .operand tier, _ => 5 * looseness tier - 25
  | .argumentList _, _ => -4
  | .primary, _ => -21
  | .parameterList _, _ => -25
  | .function, _ | .parameter, _ | .declaration, _ | .expressionStatement, _
  | .returnStatement, _ | .invocation, _ => -27

-- What it costs beyond the worth of all tokens when it refuses.
def Part.loss : Part → Int
  | .moreOperands _ _ _ _ => 0
  | .function | .parameter | .declaration | .returnStatement | .invocation => 2
  | .functions _ _ | .parameterList _ => 3
  | .program | .parameters | .primary => 5
  | .operand tier => 3 * looseness tier + 3
  | .chain tier => 3 * looseness tier + 5
  | .argumentList _ => 15
  | .expressionStatement => 16
  | .statement => 19
  | .statements _ => 20

-- A part that enters others before it has taken a token ranks above them.
def Part.rank : Part → Nat
  | .function | .parameter | .declaration | .returnStatement | .moreOperands _ _ _ _ | .invocation => 0
  | .functions _ _ | .parameterList _ | .primary => 1
  | .program | .parameters => 2
  | .operand tier => 2 * looseness tier
  | .chain tier => 2 * looseness tier + 1
  | .argumentList _ | .expressionStatement => 8
  | .statement => 9
  | .statements _ => 10

theorem takes_plain (read : (tokens : List Token) → Reading α tokens) : Takes (fun _ => 1) (plain read) := by
  intro tokens found rest run
  obtain ⟨⟨_, left, shorter⟩, _, made⟩ := map_eq_ok.mp run
  cases made
  exact shorter

theorem takes_plain_maybe (read : (tokens : List Token) → ReadingMaybe α tokens) :
    Takes (fun _ => 0) (plain read) := by
  intro tokens found rest run
  obtain ⟨⟨_, left, noLonger⟩, _, made⟩ := map_eq_ok.mp run
  cases made
  exact noLonger

theorem takes_made {read : Reader α} {make : α → β} (takes : Takes (fun _ => least) read) :
    Takes (fun _ => least) (read.andThen fun found => Reader.give (make found)) := by
  intro tokens found rest run
  obtain ⟨_, _, run, made⟩ := andThen_eq_ok.mp run
  cases made
  exact takes run

theorem takes_sited {read : Option Location → Reader α} (takes : ∀ place, Takes least (read place)) :
    Takes least (Reader.sited read) :=
  fun tokens _ _ run => takes (here tokens) run

theorem takes_wholeFunctions : Takes (fun _ => 1) wholeFunctions := by
  intro tokens found rest run
  rw [wholeFunctions_eq, andThen_eq_ok] at run
  obtain ⟨first, after, read, run⟩ := run
  have shorter := takes_plain _ read
  unfold Reader.choose at run
  split at run
  · cases run
    exact shorter
  · obtain ⟨more, _, reads, made⟩ := andThen_eq_ok.mp run
    cases made
    obtain ⟨_, _, made⟩ := map_eq_ok.mp reads
    cases made
    exact Nat.le_trans (by simp) shorter

theorem takes_oneStatement : Takes Part.statement.least oneStatement := by
  intro tokens found rest run
  simp only [oneStatement, choose] at run
  split at run
  · obtain ⟨s, _, read, made⟩ := andThen_eq_ok.mp run
    cases made
    exact takes_plain _ read
  · split at run
    · obtain ⟨s, _, read, made⟩ := andThen_eq_ok.mp run
      cases made
      exact takes_plain _ read
    · cases run
      exact Nat.le_refl _

theorem takes_invocation : Takes (fun _ => 1) Part.invocation.reader := by
  rw [Part.reader]
  apply takes_sited
  intro place tokens found rest run
  simp only [andThen_eq_ok, demand_eq_ok] at run
  obtain ⟨name, _, ⟨rfl, -⟩, opening, inside, ⟨rfl, -⟩, given, _, reads, closing, _, ⟨rfl, -⟩, made⟩ := run
  cases made
  have noLonger := takes_plain_maybe _ reads
  simp only [List.length_cons] at noLonger ⊢
  omega

theorem reader_takes (part : Part) : Takes part.least part.reader := by
  cases part with
  | program => exact takes_sited fun _ => takes_made takes_wholeFunctions
  | functions => exact takes_made takes_wholeFunctions
  | parameterList | argumentList => exact takes_made (takes_plain _)
  | statements | moreOperands => exact takes_made (takes_plain_maybe _)
  | parameters => exact takes_plain_maybe _
  | statement => exact takes_oneStatement
  | invocation => exact takes_invocation
  | function | parameter | declaration | expressionStatement | returnStatement | chain | operand | primary =>
    exact takes_plain _

-- Readings between commas, collected one by one.
theorem listed_collects {read : Reader α} {list : Reader (List α)}
    (list_eq : list = read.andThen fun first =>
      choose (meets .comma)
        ((demand .comma).andThen fun _ => list.andThen fun more => Reader.give (first :: more)) (Reader.give [first]))
    (found : List α) :
    (list.andThen fun more => Reader.give (found ++ more)) = read.andThen fun next =>
      choose (meets .comma)
        ((demand .comma).andThen fun _ => list.andThen fun more => Reader.give (found ++ [next] ++ more))
        (Reader.give (found ++ [next])) := by
  conv_lhs => rw [list_eq]
  simp only [andThen_assoc, choose_andThen, give_andThen, List.append_assoc, List.cons_append, List.nil_append]

-- A loop reads one more and goes on with it.
theorem reader_parameterList (found : List Parameter) :
    (Part.parameterList found).reader = Part.parameter.reader.andThen fun next =>
      choose (meets .comma) ((demand .comma).andThen fun _ => (Part.parameterList (found ++ [next])).reader)
        (Reader.give (found ++ [next])) :=
  listed_collects plain_parameterList found

theorem reader_argumentList (found : List Expr) :
    (Part.argumentList found).reader = (Part.chain .assign).reader.andThen fun next =>
      choose (meets .comma) ((demand .comma).andThen fun _ => (Part.argumentList (found ++ [next])).reader)
        (Reader.give (found ++ [next])) :=
  listed_collects plain_argumentList found

theorem reader_functions (place : Option Location) (found : List Function) :
    (Part.functions place found).reader = Part.function.reader.andThen fun next =>
      choose Option.isNone (Reader.give ⟨place, found ++ [next]⟩) (Part.functions place (found ++ [next])).reader := by
  conv_lhs => rw [Part.reader, wholeFunctions_eq]
  simp only [andThen_assoc, choose_andThen, give_andThen, Part.reader, List.append_assoc, List.cons_append,
    List.nil_append]

theorem reader_parameterList_nil : (Part.parameterList []).reader = plain parameterList := by
  simp only [Part.reader, List.nil_append, andThen_give]

theorem reader_argumentList_nil : (Part.argumentList []).reader = plain argumentList := by
  simp only [Part.reader, List.nil_append, andThen_give]

theorem reader_moreOperands (tier : Tier) (place : Option Location) (first : Expr) (found : List Expr) :
    (Part.moreOperands tier place first found).reader =
      choose (meets (.operator (some tier.symbol)))
        ((demand (.operator (some tier.symbol))).andThen fun _ => (Part.operand tier).reader.andThen fun next =>
          (Part.moreOperands tier place first (found ++ [next])).reader)
        (Reader.give (chained place tier first found)) := by
  conv_lhs => rw [Part.reader, plain_moreOperands]
  simp only [andThen_assoc, choose_andThen, give_andThen, Part.reader, List.append_assoc, List.cons_append,
    List.nil_append, List.append_nil]

theorem reader_statements (found : List Stmt) :
    (Part.statements found).reader = Part.statement.reader.andThen (statementsAfter found) := by
  conv_lhs => rw [Part.reader, plain_statements]
  funext tokens
  simp only [choose_andThen, andThen_assoc, give_andThen, Part.reader, oneStatement, statementsAfter,
    List.append_assoc, List.cons_append, List.nil_append, List.append_nil, choose]
  by_cases typed : meets .typeName tokens.head? = true <;> by_cases begun : starts tokens.head? = true <;>
    simp [typed, begun]

theorem reader_function :
    Part.function.reader = sited fun place => (demand .typeName).andThen fun returnType =>
      (demand .identifier).andThen fun name => (demand (.parenthesis (some "("))).andThen fun _ =>
      Part.parameters.reader.andThen fun parameters => (demand (.parenthesis (some ")"))).andThen fun _ =>
      (demand (.bracket (some "\x7b"))).andThen fun _ => (Part.statements []).reader.andThen fun statements =>
      Part.returnStatement.reader.andThen fun result => (demand (.bracket (some "\x7d"))).andThen fun _ =>
        Reader.give ⟨place, name.lexeme.name, returnType.lexeme.name, parameters, statements, result⟩ := by
  simp only [Part.reader, plain_function, plain_heading, plain_body, closedBy, placed_andThen, andThen_assoc,
    give_andThen, List.nil_append]

theorem reader_parameter :
    Part.parameter.reader = sited fun place => (demand .typeName).andThen fun typeName =>
      (take Wanted.identifier.metBy nameRefusal).andThen fun name =>
        Reader.give ⟨place, name.lexeme.name, typeName.lexeme.name⟩ := by
  simp only [Part.reader, plain_parameter, plain_typedName, placed_andThen, andThen_assoc, give_andThen]

theorem reader_declaration :
    Part.declaration.reader = sited fun place => (demand .typeName).andThen fun typeName =>
      (take Wanted.identifier.metBy nameRefusal).andThen fun name => (demand .semicolon).andThen fun _ =>
        Reader.give (.declare place typeName.lexeme.name name.lexeme.name) := by
  simp only [Part.reader, plain_declaration, plain_typedName, closedBy, placed_andThen, andThen_assoc, give_andThen]

theorem reader_expressionStatement :
    Part.expressionStatement.reader = sited fun place => (Part.chain .assign).reader.andThen fun value =>
      (demand .semicolon).andThen fun _ => Reader.give (.expression place value) := by
  simp only [Part.reader, plain_expressionStatement, closedBy, placed_andThen, andThen_assoc, give_andThen]
  rfl

theorem reader_returnStatement :
    Part.returnStatement.reader = sited fun place => (demand .ret).andThen fun _ =>
      (Part.chain .assign).reader.andThen fun value => (demand .semicolon).andThen fun _ =>
        Reader.give ⟨place, value⟩ := by
  simp only [Part.reader, plain_returnStatement, closedBy, placed_andThen, andThen_assoc, give_andThen]
  rfl

theorem primary_cons (token : Token) (rest : List Token) :
    plain primary (token :: rest) =
      if token.lexeme.startsExpression then primaryAfter token rest else .error (.noExpression (some token)) := by
  rw [plain_primary, andThen, take]
  by_cases begun : token.lexeme.startsExpression = true <;> simp [begun]

theorem invocation_cons (spelled : token.lexeme = .identifier name) (rest : List Token) :
    Part.invocation.reader (token :: rest) =
      ((demand (.parenthesis (some "("))).andThen fun _ => (plain arguments).closedBy (.parenthesis (some ")"))).andThen
        (fun given => Reader.give (.call (some token.location) name given)) rest := by
  have named : demand .identifier (token :: rest) = .ok (token, rest) :=
    demand_eq_ok.mpr ⟨rfl, by simp [spelled]⟩
  simp only [Part.reader, sited, closedBy, andThen_assoc, give_andThen]
  rw [andThen, named]
  simp only [spelled, Lexeme.name, here, List.head?_cons, Option.map_some]

theorem primary_call (spelled : token.lexeme = .identifier name)
    (opened : (rest.head?.any fun second => opensCall second.lexeme) = true) :
    plain primary (token :: rest) = Part.invocation.reader (token :: rest) := by
  rw [primary_cons, invocation_cons spelled, spelled]
  simp only [Lexeme.startsExpression, if_true, primaryAfter, spelled]
  exact if_pos opened

theorem primary_var (spelled : token.lexeme = .identifier name)
    (alone : (rest.head?.any fun second => opensCall second.lexeme) = false) :
    plain primary (token :: rest) = Reader.give (.var (some token.location) name) rest := by
  rw [primary_cons, spelled]
  simp only [Lexeme.startsExpression, if_true, primaryAfter, spelled]
  exact if_neg (ne_true_of_eq_false alone)

theorem reader_chain (tier : Tier) :
    (Part.chain tier).reader = sited fun place => (Part.operand tier).reader.andThen fun first =>
      (Part.moreOperands tier place first []).reader := by
  simp only [Part.reader, plain_chain, placed_andThen, List.nil_append]

-- A part that does what its reader does, at the price and the loss that stand for it.
def Fulfils (stream : Stream) (part : Part) : Prop := Does stream part.price part.loss part.body part.reader

section

variable {stream : Stream}

theorem Fulfils.enter {part : Part} {price : part.Result → Int} (fulfils : Fulfils stream part)
    (dearer : ∀ found, part.price found + 1 ≤ price found) (more : part.loss + 1 ≤ loss) :
    Does stream price loss (Script.part part) part.reader :=
  (Does.enter fulfils).mono dearer more

theorem Fulfils.bind {part : Part} {next : part.Result → Script α} {nextRead : part.Result → Reader α} {price : α → Int}
    (fulfils : Fulfils stream part) (covered : part.loss + 1 ≤ loss)
    (onward : ∀ found later, later.remaining + part.least found ≤ stream.remaining →
      Does later (fun result => price result - (part.price found + 1)) (loss - (part.price found + 1))
        (next found) (nextRead found)) :
    Does stream price loss (Script.part part >>= next) (part.reader.andThen nextRead) :=
  (Does.enter fulfils).bind (reader_takes part) covered onward

theorem fulfils_program (lower : ∀ place, Fulfils stream (.functions place [])) : Fulfils stream .program := by
  rw [Fulfils, Part.body, Part.reader]
  apply Does.sited
  exact (lower _).enter (by simp [Part.price]) (by simp [Part.loss])

theorem fulfils_parameters (lower : Fulfils stream (.parameterList [])) : Fulfils stream .parameters := by
  rw [Fulfils, Part.body, Part.reader, plain_parameters]
  refine .choose (answer_check stream (.parenthesis (some ")"))) (fun _ => .give (by simp [Part.price])) ?_
  rw [← reader_parameterList_nil]
  exact lower.enter (by simp [Part.price]) (by simp [Part.loss])

theorem fulfils_statement (typed : Fulfils stream .declaration) (begun : Fulfils stream .expressionStatement) :
    Fulfils stream .statement := by
  rw [Fulfils, Part.body, Part.reader]
  refine .choose (answer_check stream .typeName) (fun _ => ?_) (.choose rfl (fun _ => ?_) (.give (by simp [Part.price])))
  · exact typed.bind (by simp [Part.loss]) fun s later _ => .give (by simp [Part.price])
  · exact begun.bind (by simp [Part.loss]) fun s later _ => .give (by simp [Part.price])

theorem fulfils_operand (tier : Tier) (lower : ∀ next, tighter tier = some next → Fulfils stream (.chain next))
    (lowest : Fulfils stream .primary) : Fulfils stream (.operand tier) := by
  rw [Fulfils, Part.body, Part.reader]
  cases below : tighter tier with
  | some next =>
    have looser := looseness_tighter below
    rw [plain_operand below]
    exact (lower next below).enter (fun _ => by simp only [Part.price]; omega) (by simp only [Part.loss]; omega)
  | none =>
    obtain rfl : tier = .product := by cases tier <;> cases below; rfl
    rw [plain_operand_product]
    exact lowest.enter (by simp [Part.price, looseness]) (by simp [Part.loss, looseness])

theorem fulfils_parameter : Fulfils stream .parameter := by
  rw [Fulfils, Part.body, reader_parameter]
  apply Does.sited
  refine .demanded (by simp [Part.loss]) fun typeName t1 h1 => ?_
  refine does_newName.bind takes_take (by simp [Part.loss]) fun name t2 h2 => ?_
  exact .give (by simp [Part.price])

theorem fulfils_declaration : Fulfils stream .declaration := by
  rw [Fulfils, Part.body, reader_declaration]
  apply Does.sited
  refine .demanded (by simp [Part.loss]) fun typeName t1 h1 => ?_
  refine does_newName.bind takes_take (by simp [Part.loss]) fun name t2 h2 => ?_
  refine .demanded (by simp [Part.loss]) fun _ t3 h3 => ?_
  exact .give (by simp [Part.price])

theorem fulfils_expressionStatement (first : Fulfils stream (.chain .assign)) :
    Fulfils stream .expressionStatement := by
  rw [Fulfils, Part.body, reader_expressionStatement]
  apply Does.sited
  refine first.bind (by simp [Part.loss, looseness]) fun value t1 h1 => ?_
  refine .demanded (by simp [Part.loss, Part.price, looseness]) fun _ t2 h2 => ?_
  exact .give (by simp [Part.price, looseness])

theorem does_given (first : Fulfils stream (.argumentList [])) :
    Does stream (fun _ => 1) 17 given (plain arguments) := by
  rw [given, plain_arguments, ← reader_argumentList_nil]
  refine .choose rfl (fun _ => ?_) (.give (by decide))
  exact first.enter (by simp [Part.price]) (by simp [Part.loss])

theorem does_startedBy (next : stream.ahead = token :: rest) (called : Fulfils stream .invocation) :
    Does stream (fun _ => -22) 4 (startedBy token) (plain primary) := by
  cases spelled : token.lexeme with
  | number value =>
    have same : plain primary stream.ahead = Reader.give (.number (some token.location) value) rest := by
      simp [next, primary_cons, spelled, Lexeme.startsExpression, primaryAfter]
    simp only [startedBy, spelled]
    exact .skip next same (.give (by decide))
  | identifier name =>
    have looked : stream.answer .peekSecond = (.token rest.head?, stream) := by
      simp [Stream.answer, next, List.head?_eq_getElem?]
    simp only [startedBy, spelled]
    cases opened : rest.head?.any fun second => opensCall second.lexeme with
    | true =>
      have same : plain primary stream.ahead = Part.invocation.reader stream.ahead := by
        rw [next, primary_call spelled opened]
      refine .look looked same ?_
      change Does stream _ _ (if (rest.head?.any fun second => opensCall second.lexeme) then part .invocation else _) _
      rw [if_pos opened]
      exact called.enter (by simp [Part.price]) (by simp [Part.loss])
    | false =>
      have same : plain primary stream.ahead = Reader.give (.var (some token.location) name) rest := by
        rw [next, primary_var spelled opened]
      refine .look looked rfl ?_
      change Does stream _ _ (if (rest.head?.any fun second => opensCall second.lexeme) then part .invocation else _) _
      rw [if_neg (ne_true_of_eq_false opened)]
      exact .skip next same (.give (by decide))
  | typeName | operator | bracket | parenthesis | comma | semicolon | ret =>
    have refused : plain primary stream.ahead = .error (.noExpression (some token)) := by
      simp [next, primary_cons, spelled, Lexeme.startsExpression]
    simp only [startedBy, spelled]
    exact .look (answer_peek next) rfl (.refuse refused (by decide))

theorem fulfils_primary (lower : Fulfils stream .invocation) : Fulfils stream .primary := by
  rw [Fulfils, Part.body, Part.reader]
  cases next : stream.ahead with
  | nil =>
    have refused : plain primary stream.ahead = .error (.noExpression none) := by
      rw [next, plain_primary]
      rfl
    exact .look (answer_peek_nil next) rfl (.refuse refused (by simp [Part.loss]))
  | cons token rest => exact .look (answer_peek next) rfl (does_startedBy next lower)

variable (fewer : ∀ other later, later.remaining < stream.remaining → Fulfils later other)
include fewer

theorem fulfils_functions (place : Option Location) (found : List Function) (first : Fulfils stream .function) :
    Fulfils stream (.functions place found) := by
  rw [Fulfils, Part.body, reader_functions]
  refine first.bind (by simp [Part.loss]) fun next later less => ?_
  refine .choose (answer_atEnd later) (fun _ => .give (by simp [Part.price])) ?_
  exact (fewer (.functions place (found ++ [next])) later less).enter (by simp [Part.price])
    (by simp [Part.loss, Part.price])

theorem fulfils_function : Fulfils stream .function := by
  rw [Fulfils, Part.body, reader_function]
  apply Does.sited
  refine .demanded (by simp [Part.loss]) fun returnType t1 h1 => ?_
  refine .demanded (by simp [Part.loss]) fun name t2 h2 => ?_
  refine .demanded (by simp [Part.loss]) fun _ t3 h3 => ?_
  refine (fewer .parameters t3 (by omega)).bind (by simp [Part.loss]) fun parameters t4 h4 => ?_
  refine .demanded (by simp [Part.loss, Part.price]) fun _ t5 h5 => ?_
  refine .demanded (by simp [Part.loss, Part.price]) fun _ t6 h6 => ?_
  refine (fewer (.statements []) t6 (by omega)).bind (by simp [Part.loss, Part.price]) fun statements t7 h7 => ?_
  refine (fewer .returnStatement t7 (by omega)).bind (by simp [Part.loss, Part.price]) fun result t8 h8 => ?_
  refine .demanded (by simp [Part.loss, Part.price]) fun _ t9 h9 => ?_
  exact .give (by simp [Part.price])

theorem fulfils_parameterList (found : List Parameter) (first : Fulfils stream .parameter) :
    Fulfils stream (.parameterList found) := by
  rw [Fulfils, Part.body, reader_parameterList]
  refine first.bind (by simp [Part.loss]) fun next later less => ?_
  refine .joined .comma (fun later' less' => ?_) (.give (by simp [Part.price]))
  exact (fewer (.parameterList (found ++ [next])) later' (by omega)).enter (by simp [Part.price])
    (by simp [Part.loss, Part.price])

theorem fulfils_statements (found : List Stmt) (first : Fulfils stream .statement) :
    Fulfils stream (.statements found) := by
  rw [Fulfils, Part.body, reader_statements]
  refine first.bind (by simp [Part.loss]) fun next later less => ?_
  cases next with
  | none => exact .give (by simp [Part.price])
  | some s =>
    exact (fewer (.statements (found ++ [s])) later less).enter (by simp [Part.price])
      (by simp [Part.loss, Part.price])

theorem fulfils_returnStatement : Fulfils stream .returnStatement := by
  rw [Fulfils, Part.body, reader_returnStatement]
  apply Does.sited
  refine .demanded (by simp [Part.loss]) fun _ t1 h1 => ?_
  refine (fewer (.chain .assign) t1 h1).bind (by simp [Part.loss, looseness]) fun value t2 h2 => ?_
  refine .demanded (by simp [Part.loss, Part.price, looseness]) fun _ t3 h3 => ?_
  exact .give (by simp [Part.price, looseness])

theorem fulfils_chain (tier : Tier) (first : Fulfils stream (.operand tier)) : Fulfils stream (.chain tier) := by
  have bounded := looseness_le tier
  rw [Fulfils, Part.body, reader_chain]
  apply Does.sited
  refine first.bind (by simp only [Part.loss]; omega) fun found later less => ?_
  exact (fewer (.moreOperands tier _ found []) later less).enter (fun _ => by simp only [Part.price]; omega)
    (by simp only [Part.loss, Part.price]; omega)

theorem fulfils_moreOperands (tier : Tier) (place : Option Location) (first : Expr) (found : List Expr) :
    Fulfils stream (.moreOperands tier place first found) := by
  have bounded := looseness_le tier
  rw [Fulfils, Part.body, reader_moreOperands]
  refine .joined (.operator (some tier.symbol)) (fun t1 h1 => ?_) (.give (by simp [Part.price]))
  refine (fewer (.operand tier) t1 h1).bind (by simp only [Part.loss]; omega) fun next t2 h2 => ?_
  exact (fewer (.moreOperands tier place first (found ++ [next])) t2 (by omega)).enter
    (fun _ => by simp only [Part.price]; omega) (by simp only [Part.loss, Part.price]; omega)

theorem fulfils_argumentList (found : List Expr) (first : Fulfils stream (.chain .assign)) :
    Fulfils stream (.argumentList found) := by
  rw [Fulfils, Part.body, reader_argumentList]
  refine first.bind (by simp [Part.loss, looseness]) fun next later less => ?_
  refine .joined .comma (fun later' less' => ?_) (.give (by simp [Part.price, looseness]))
  exact (fewer (.argumentList (found ++ [next])) later' (by omega)).enter (by simp [Part.price, looseness])
    (by simp [Part.loss, Part.price, looseness])

theorem fulfils_invocation : Fulfils stream .invocation := by
  rw [Fulfils, Part.body, Part.reader]
  apply Does.sited
  refine .demanded (by simp [Part.loss]) fun name t1 h1 => ?_
  refine .demanded (by simp [Part.loss]) fun _ t2 h2 => ?_
  have listed := does_given (fewer (.argumentList []) t2 (by omega))
  refine listed.bind (takes_plain_maybe _) (by simp [Part.loss]) fun given t3 h3 => ?_
  refine .demanded (by simp [Part.loss]) fun _ t4 h4 => ?_
  exact .give (by simp [Part.price])

end

-- Every part ends. The recursion goes to fewer tokens, or with the same tokens to a part of lower rank.
theorem fulfils (part : Part) (stream : Stream) : Fulfils stream part := by
  have fewer : ∀ other later, later.remaining < stream.remaining → Fulfils later other :=
    fun other later _less => fulfils other later
  have lower : ∀ other : Part, other.rank < part.rank → Fulfils stream other :=
    fun other _less => fulfils other stream
  cases part with
  | program => exact fulfils_program fun place => lower (.functions place []) (by simp [Part.rank])
  | functions place found => exact fulfils_functions fewer place found (lower _ (by simp [Part.rank]))
  | function => exact fulfils_function fewer
  | parameters => exact fulfils_parameters (lower _ (by simp [Part.rank]))
  | parameterList found => exact fulfils_parameterList fewer found (lower _ (by simp [Part.rank]))
  | parameter => exact fulfils_parameter
  | statements found => exact fulfils_statements fewer found (lower _ (by simp [Part.rank]))
  | statement => exact fulfils_statement (lower _ (by simp [Part.rank])) (lower _ (by simp [Part.rank]))
  | declaration => exact fulfils_declaration
  | expressionStatement => exact fulfils_expressionStatement (lower _ (by simp [Part.rank, looseness]))
  | returnStatement => exact fulfils_returnStatement fewer
  | chain tier => exact fulfils_chain fewer tier (lower _ (by simp [Part.rank]))
  | operand tier =>
    have positive := looseness_pos tier
    refine fulfils_operand tier (fun next below => lower _ ?_) (lower _ ?_)
    · have looser := looseness_tighter below
      simp only [Part.rank]
      omega
    · simp only [Part.rank]
      omega
  | moreOperands tier place first found => exact fulfils_moreOperands fewer tier place first found
  | primary => exact fulfils_primary (lower _ (by simp [Part.rank]))
  | invocation => exact fulfils_invocation fewer
  | argumentList found => exact fulfils_argumentList fewer found (lower _ (by simp [Part.rank, looseness]))
termination_by (stream.remaining, part.rank)
decreasing_by
  · exact .left _ _ _less
  · exact .right _ _less

end WordC.Descent
