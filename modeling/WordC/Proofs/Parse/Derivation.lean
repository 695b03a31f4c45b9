import WordC.Compile
import WordC.Proofs.Parse.Program
import WordC.Proofs.Tree.Unplaced

namespace WordC.Grammar

-- Lists of tokens that differ in their places at most.
def Alike (tokens tokens' : List Token) : Prop := tokens'.map Token.lexeme = tokens.map Token.lexeme

theorem alike_append (alike : Alike (left ++ right) tokens) :
    ∃ left' right', tokens = left' ++ right' ∧ Alike left left' ∧ Alike right right' := by
  simp only [Alike, List.map_append] at alike
  exact List.map_eq_append_iff.mp alike

theorem alike_cons (alike : Alike (token :: rest) tokens) :
    ∃ token' rest', tokens = token' :: rest' ∧ token'.lexeme = token.lexeme ∧ Alike rest rest' := by
  simp only [Alike, List.map_cons] at alike
  exact List.map_eq_cons_iff.mp alike

theorem alike_nil (alike : Alike [] tokens) : tokens = [] :=
  List.map_eq_nil_iff.mp alike

theorem alike_singleton (alike : Alike [token] tokens) :
    ∃ token', tokens = [token'] ∧ token'.lexeme = token.lexeme := by
  obtain ⟨token', rest', rfl, same, rest⟩ := alike_cons alike
  rw [alike_nil rest]
  exact ⟨token', rfl, same⟩

def shape (e : Expr) : Node := e.node.unplaced

theorem shape_chain (location : Option Location) (tier : Tier) (operands : List Expr) :
    shape (.chain location tier operands) = .chain none tier (operands.map shape) := by
  simp only [shape, Expr.node, Node.unplaced, Node.allUnplaced_eq_map, Expr.nodes_eq_map, List.map_map]
  rfl

theorem shape_call (location : Option Location) (name : Name) (given : List Expr) :
    shape (.call location name given) = .call none name (given.map shape) := by
  simp only [shape, Expr.node, Node.unplaced, Node.allUnplaced_eq_map, Expr.nodes_eq_map, List.map_map]
  rfl

mutual

-- What spells an expression spells the same one wherever it stands.
theorem level_moves (level : Level tier used e) (alike : Alike used used') :
    ∃ e', Level tier used' e' ∧ shape e' = shape e := by
  match level with
  | .single operand =>
    obtain ⟨e', operand', same⟩ := operand_moves operand alike
    exact ⟨e', .single operand', same⟩
  | .several operands =>
    obtain ⟨es, operands', same⟩ := operands_moves operands alike
    match es with
    | [] | [_] => simp at same
    | e :: f :: rest => exact ⟨_, .several operands', by simp only [shape_chain, same]⟩

theorem operands_moves (operands : Operands tier used es) (alike : Alike used used') :
    ∃ es', Operands tier used' es' ∧ es'.map shape = es.map shape := by
  match operands with
  | .last operand =>
    obtain ⟨e', operand', same⟩ := operand_moves operand alike
    exact ⟨[e'], .last operand', by simp [same]⟩
  | .next operand joined rest =>
    obtain ⟨left, later, rfl, first, others⟩ := alike_append alike
    obtain ⟨mark, right, rfl, marked, others⟩ := alike_cons others
    obtain ⟨e', operand', same⟩ := operand_moves operand first
    obtain ⟨es', operands', same'⟩ := operands_moves rest others
    exact ⟨e' :: es', .next operand' (marked.trans joined) operands', by simp [same, same']⟩

theorem operand_moves (operand : Operand tier used e) (alike : Alike used used') :
    ∃ e', Operand tier used' e' ∧ shape e' = shape e := by
  match operand with
  | .ofSum level =>
    obtain ⟨e', level', same⟩ := level_moves level alike
    exact ⟨e', .ofSum level', same⟩
  | .ofProduct level =>
    obtain ⟨e', level', same⟩ := level_moves level alike
    exact ⟨e', .ofProduct level', same⟩
  | .ofPrimary primary =>
    obtain ⟨e', primary', same⟩ := primary_moves primary alike
    exact ⟨e', .ofPrimary primary', same⟩

theorem primary_moves (primary : Primary used e) (alike : Alike used used') :
    ∃ e', Primary used' e' ∧ shape e' = shape e := by
  match primary with
  | .number spelled =>
    obtain ⟨token, rfl, same⟩ := alike_singleton alike
    exact ⟨_, .number (same.trans spelled), rfl⟩
  | .var spelled =>
    obtain ⟨token, rfl, same⟩ := alike_singleton alike
    exact ⟨_, .var (same.trans spelled), rfl⟩
  | .call spelled opened arguments closed =>
    obtain ⟨front, last, rfl, called, ended⟩ := alike_append alike
    obtain ⟨right, rfl, closing⟩ := alike_singleton ended
    obtain ⟨token, front, rfl, named, called⟩ := alike_cons called
    obtain ⟨left, inside, rfl, opening, called⟩ := alike_cons called
    obtain ⟨given, arguments', same⟩ := arguments_moves arguments called
    exact ⟨_, .call (named.trans spelled) (opening.trans opened) arguments' (closing.trans closed),
      by simp only [shape_call, same]⟩

theorem arguments_moves (arguments : Arguments used es) (alike : Alike used used') :
    ∃ es', Arguments used' es' ∧ es'.map shape = es.map shape := by
  match arguments with
  | .none => exact ⟨[], alike_nil alike ▸ .none, rfl⟩
  | .some listed =>
    obtain ⟨es', listed', same⟩ := argumentList_moves listed alike
    exact ⟨es', .some listed', same⟩

theorem argumentList_moves (listed : ArgumentList used es) (alike : Alike used used') :
    ∃ es', ArgumentList used' es' ∧ es'.map shape = es.map shape := by
  match listed with
  | .last level =>
    obtain ⟨e', level', same⟩ := level_moves level alike
    exact ⟨[e'], .last level', by simp [same]⟩
  | .next level comma more =>
    obtain ⟨left, later, rfl, first, others⟩ := alike_append alike
    obtain ⟨mark, right, rfl, marked, others⟩ := alike_cons others
    obtain ⟨e', level', same⟩ := level_moves level first
    obtain ⟨es', listed', same'⟩ := argumentList_moves more others
    exact ⟨e' :: es', .next level' (marked.trans comma) listed', by simp [same, same']⟩

end

theorem parameter_moves (parameter : IsParameter used p) (alike : Alike used used') :
    ∃ p', IsParameter used' p' ∧ p'.node.unplaced = p.node.unplaced := by
  cases parameter with
  | typed typed named =>
    obtain ⟨first, later, rfl, typing, later_alike⟩ := alike_cons alike
    obtain ⟨second, rfl, naming⟩ := alike_singleton later_alike
    exact ⟨_, .typed (typing.trans typed) (naming.trans named), rfl⟩

theorem parameterList_moves (listed : ParameterList used ps) (alike : Alike used used') :
    ∃ ps', ParameterList used' ps' ∧
      ps'.map (Node.unplaced ∘ Parameter.node) = ps.map (Node.unplaced ∘ Parameter.node) := by
  induction listed generalizing used' with
  | last parameter =>
    obtain ⟨p', parameter', same⟩ := parameter_moves parameter alike
    exact ⟨[p'], .last parameter', by simp [same]⟩
  | next parameter comma more ih =>
    obtain ⟨left, later, rfl, first, others⟩ := alike_append alike
    obtain ⟨mark, right, rfl, marked, others⟩ := alike_cons others
    obtain ⟨p', parameter', same⟩ := parameter_moves parameter first
    obtain ⟨ps', listed', same'⟩ := ih others
    exact ⟨p' :: ps', .next parameter' (marked.trans comma) listed', by simp [same, same']⟩

theorem parameters_moves (listed : Parameters used ps) (alike : Alike used used') :
    ∃ ps', Parameters used' ps' ∧
      ps'.map (Node.unplaced ∘ Parameter.node) = ps.map (Node.unplaced ∘ Parameter.node) := by
  cases listed with
  | none => exact ⟨[], alike_nil alike ▸ .none, rfl⟩
  | some listed =>
    obtain ⟨ps', listed', same⟩ := parameterList_moves listed alike
    exact ⟨ps', .some listed', same⟩

theorem statement_moves (statement : IsStatement used s) (alike : Alike used used') :
    ∃ s', IsStatement used' s' ∧ s'.node.unplaced = s.node.unplaced := by
  cases statement with
  | declaration typed named closed =>
    obtain ⟨first, later, rfl, typing, others⟩ := alike_cons alike
    obtain ⟨second, later, rfl, naming, others⟩ := alike_cons others
    obtain ⟨third, rfl, closing⟩ := alike_singleton others
    exact ⟨_, .declaration (typing.trans typed) (naming.trans named) (closing.trans closed), rfl⟩
  | expression level closed =>
    obtain ⟨left, later, rfl, first, others⟩ := alike_append alike
    obtain ⟨last, rfl, closing⟩ := alike_singleton others
    obtain ⟨e', level', same⟩ := level_moves level first
    exact ⟨_, .expression level' (closing.trans closed), congrArg (Node.expression none) same⟩

theorem statements_moves (listed : Statements used ss) (alike : Alike used used') :
    ∃ ss', Statements used' ss' ∧
      ss'.map (Node.unplaced ∘ Stmt.node) = ss.map (Node.unplaced ∘ Stmt.node) := by
  induction listed generalizing used' with
  | none => exact ⟨[], alike_nil alike ▸ .none, rfl⟩
  | next statement more ih =>
    obtain ⟨left, right, rfl, first, others⟩ := alike_append alike
    obtain ⟨s', statement', same⟩ := statement_moves statement first
    obtain ⟨ss', listed', same'⟩ := ih others
    exact ⟨s' :: ss', .next statement' listed', by simp [same, same']⟩

theorem return_moves (returned : IsReturn used r) (alike : Alike used used') :
    ∃ r', IsReturn used' r' ∧ r'.node.unplaced = r.node.unplaced := by
  cases returned with
  | value word level closed =>
    obtain ⟨front, later, rfl, first, others⟩ := alike_append alike
    obtain ⟨last, rfl, closing⟩ := alike_singleton others
    obtain ⟨token, inner, rfl, wording, first⟩ := alike_cons first
    obtain ⟨e', level', same⟩ := level_moves level first
    exact ⟨_, .value (wording.trans word) level' (closing.trans closed), congrArg (Node.ret none) same⟩

theorem function_moves (defined : IsFunction used f) (alike : Alike used used') :
    ∃ f', IsFunction used' f' ∧ f'.node.unplaced = f.node.unplaced := by
  cases defined with
  | definition typed named opened listed closed started filled returned stopped =>
    obtain ⟨front, last, rfl, alike_front, alike_last⟩ := alike_append alike
    obtain ⟨stop, rfl, stopping⟩ := alike_singleton alike_last
    obtain ⟨front, final, rfl, alike_front, alike_final⟩ := alike_append alike_front
    obtain ⟨heading, block, rfl, alike_heading, alike_block⟩ := alike_append alike_front
    obtain ⟨typeToken, heading, rfl, typing, alike_heading⟩ := alike_cons alike_heading
    obtain ⟨nameToken, heading, rfl, naming, alike_heading⟩ := alike_cons alike_heading
    obtain ⟨left, inside, rfl, opening, alike_inside⟩ := alike_cons alike_heading
    obtain ⟨right, block, rfl, closing, alike_block⟩ := alike_cons alike_block
    obtain ⟨start, block, rfl, starting, alike_block⟩ := alike_cons alike_block
    obtain ⟨ps, listed', sameParameters⟩ := parameters_moves listed alike_inside
    obtain ⟨ss, filled', sameStatements⟩ := statements_moves filled alike_block
    obtain ⟨r, returned', sameResult⟩ := return_moves returned alike_final
    refine ⟨_, .definition (typing.trans typed) (naming.trans named) (opening.trans opened) listed'
      (closing.trans closed) (starting.trans started) filled' returned' (stopping.trans stopped), ?_⟩
    simp only [Function.node, Node.unplaced, Node.allUnplaced_eq_map, List.map_map, sameParameters,
      sameStatements, sameResult]

theorem functions_moves (listed : Functions used fs) (alike : Alike used used') :
    ∃ fs', Functions used' fs' ∧
      fs'.map (Node.unplaced ∘ Function.node) = fs.map (Node.unplaced ∘ Function.node) := by
  induction listed generalizing used' with
  | last defined =>
    obtain ⟨f', defined', same⟩ := function_moves defined alike
    exact ⟨[f'], .last defined', by simp [same]⟩
  | next defined more ih =>
    obtain ⟨left, right, rfl, first, others⟩ := alike_append alike
    obtain ⟨f', defined', same⟩ := function_moves defined first
    obtain ⟨fs', listed', same'⟩ := ih others
    exact ⟨f' :: fs', .next defined' listed', by simp [same, same']⟩

theorem program_moves (spelled : IsProgram tokens p) (alike : Alike tokens tokens') :
    ∃ p', IsProgram tokens' p' ∧ p'.same p := by
  cases spelled with
  | functions listed =>
    obtain ⟨fs', listed', same⟩ := functions_moves listed alike
    refine ⟨_, .functions listed', Program.same_iff.mpr ?_⟩
    simp only [Program.node, Node.unplaced, Node.allUnplaced_eq_map, List.map_map, same]

-- A list of lexemes spells a program, whatever the places of both.
def Derives (lexemes : List Lexeme) (p : Program) : Prop :=
  ∃ tokens q, tokens.map Token.lexeme = lexemes ∧ IsProgram tokens q ∧ q.same p

end WordC.Grammar

namespace WordC.Parse
open Grammar

-- Reading a whole list and spelling a program are the same.
theorem program_eq_ok_iff : program tokens = .ok p ↔ IsProgram tokens p := by
  have reads : Reads (tokens.length + 1) Functions (· = none) wholeFunctions := wholeFunctions_reads
  constructor
  · intro run
    unfold program at run
    cases read : functions tokens with
    | error refusal => simp [read] at run
    | ok found =>
      simp only [read, Except.ok.injEq] at run
      have whole : wholeFunctions tokens = .ok (found, []) := by simp [wholeFunctions, read, Except.map]
      obtain ⟨used, split, listed, -⟩ := reads.sound (Nat.lt_succ_self _) whole
      rw [List.append_nil] at split
      subst split run
      exact .functions listed
  · intro spelled
    cases spelled with
    | functions listed =>
      have whole : wholeFunctions (tokens ++ []) = .ok (_, []) := reads.complete listed rfl (by simp)
      rw [List.append_nil, wholeFunctions] at whole
      obtain ⟨found, read, made⟩ := map_eq_ok.mp whole
      cases made
      simp only [program, read]
      rfl

theorem parseTokens_eq_ok_iff : parseTokens lines tokens = .ok p ↔ IsProgram tokens p := by
  rw [← program_eq_ok_iff, parseTokens]
  cases program tokens <;> simp [Except.mapError]

-- Two spellings of one list of lexemes give one tree.
theorem derives_unique (spelled : Derives lexemes p) (spelled' : Derives lexemes q) : p.same q := by
  obtain ⟨tokens, p', listed, program, same⟩ := spelled
  obtain ⟨tokens', q', listed', program', same'⟩ := spelled'
  obtain ⟨moved, program'', same''⟩ := program_moves program (listed'.trans listed.symm)
  have equal : moved = q' := by
    have read := program_eq_ok_iff.mpr program''
    rw [program_eq_ok_iff.mpr program'] at read
    exact (Except.ok.inj read).symm
  subst equal
  rw [Program.same_iff] at same same' same'' ⊢
  exact same.symm.trans (same''.symm.trans same')

theorem exists_parsed_iff_derives :
    (∃ q, parseTokens lines tokens = .ok q ∧ q.same p) ↔ Derives (tokens.map Token.lexeme) p := by
  constructor
  · intro parsed
    obtain ⟨q, read, same⟩ := parsed
    exact ⟨tokens, q, rfl, parseTokens_eq_ok_iff.mp read, same⟩
  · intro spelled
    obtain ⟨tokens', q', listed, program, same⟩ := spelled
    obtain ⟨q, program', same'⟩ := program_moves program listed.symm
    rw [Program.same_iff] at same same'
    exact ⟨q, parseTokens_eq_ok_iff.mpr program', Program.same_iff.mpr (same'.trans same)⟩

-- A list of tokens is read as a tree exactly when it spells it. Apart from places that depends on the lexemes
-- alone: they spell at most one tree, and a list that spells none is refused.
theorem parsed_exactly_as_spelled (lines : List String) (tokens : List Token) :
    (∀ p, parseTokens lines tokens = .ok p ↔ IsProgram tokens p) ∧
    (∀ p, (∃ q, parseTokens lines tokens = .ok q ∧ q.same p) ↔ Derives (tokens.map Token.lexeme) p) ∧
    (∀ p q, Derives (tokens.map Token.lexeme) p → Derives (tokens.map Token.lexeme) q → p.same q) ∧
    ((∀ p, ¬Derives (tokens.map Token.lexeme) p) → ∃ failure, parseTokens lines tokens = .error failure) := by
  refine ⟨fun p => parseTokens_eq_ok_iff, fun p => exists_parsed_iff_derives,
    fun p q spelled spelled' => derives_unique spelled spelled', fun unspelled => ?_⟩
  cases run : parseTokens lines tokens with
  | error failure => exact ⟨failure, rfl⟩
  | ok p =>
    have same : p.same p := Program.same_iff.mpr rfl
    exact absurd (exists_parsed_iff_derives.mp ⟨p, run, same⟩) (unspelled p)

-- Tokens of a text, as they are read without a file.
def sampleTokens (text : String) : List Token := (tokenize "" text).toOption.getD []

-- The same text as a tree: one flat chain per level, and a call where a name stands before a parenthesis.
def callInAssignment : Program :=
  ⟨none, [⟨none, some "f", some "int", [⟨none, some "a", some "int"⟩], [.declare none (some "int") (some "b")],
    ⟨none, .chain none .assign [.var none (some "a"), .var none (some "b"),
      .chain none .sum [.call none (some "f") [.var none (some "a"), .number none (some 1)],
        .chain none .product [.number none (some 2), .var none (some "b"), .number none (some 3)],
        .number none (some 4)]]⟩⟩]⟩

theorem callInAssignment_spelled :
    Derives ((sampleTokens "int f(int a)\x7bint b;return a=b=f(a,1)+2*b*3+4;\x7d").map Token.lexeme)
      callInAssignment := by
  refine ((parsed_exactly_as_spelled [] _).2.1 callInAssignment).mp ?_
  have read : (parseTokens [] (sampleTokens "int f(int a)\x7bint b;return a=b=f(a,1)+2*b*3+4;\x7d")).toOption.any
      (·.same callInAssignment) = true := by decide +kernel
  cases run : parseTokens [] (sampleTokens "int f(int a)\x7bint b;return a=b=f(a,1)+2*b*3+4;\x7d") with
  | error failure => simp [run, Except.toOption] at read
  | ok q => exact ⟨q, rfl, by simpa [run, Except.toOption] using read⟩

end WordC.Parse
