import WordC.Proofs.Parse.Reader
import WordC.Proofs.Tree.Walk

namespace WordC.Parse
open Reader

-- A node as the reader of its sort finds it at the front of tokens, with what that reader leaves over.
inductive Finds : List Token → Node → List Token → Prop where
  | program : Parse.program tokens = .ok p → Finds tokens p.node []
  | function : plain function tokens = .ok (f, rest) → Finds tokens f.node rest
  | parameter : plain parameter tokens = .ok (p, rest) → Finds tokens p.node rest
  | declaration : plain declaration tokens = .ok (s, rest) → Finds tokens s.node rest
  | expressionStatement : plain expressionStatement tokens = .ok (s, rest) → Finds tokens s.node rest
  | returnStatement : plain returnStatement tokens = .ok (r, rest) → Finds tokens r.node rest
  | chain : plain (chain tier) tokens = .ok (.chain location tier operands, rest) →
      Finds tokens (Expr.node (.chain location tier operands)) rest
  | primary : plain primary tokens = .ok (e, rest) → Finds tokens e.node rest

mutual

-- A node that was found there, stands where the first of its tokens does, and has its children among its tokens.
inductive Lies : List Token → Node → List Token → Prop where
  | node : Finds tokens node rest → node.location = here tokens → rest.length < tokens.length →
      LieBetween tokens node.children rest → Lies tokens node rest

-- Nodes one after the other, with other tokens in front of them, between them and behind them.
inductive LieBetween : List Token → List Node → List Token → Prop where
  | none : rest <:+ tokens → LieBetween tokens [] rest
  | next : start <:+ tokens → Lies start node middle → LieBetween middle nodes rest →
      LieBetween tokens (node :: nodes) rest

end

mutual

theorem Lies.suffix (lies : Lies tokens node rest) : rest <:+ tokens := by
  match lies with
  | .node _ _ _ below => exact below.suffix

theorem LieBetween.suffix (lie : LieBetween tokens nodes rest) : rest <:+ tokens := by
  match lie with
  | .none shorter => exact shorter
  | .next started first later => exact later.suffix.trans (first.suffix.trans started)

end

theorem Lies.shorter (lies : Lies tokens top rest) : rest.length < tokens.length := by
  cases lies with
  | node _ _ shorter _ => exact shorter

theorem LieBetween.earlier (lie : LieBetween tokens nodes rest) (earlier : tokens <:+ tokens') :
    LieBetween tokens' nodes rest := by
  cases lie with
  | none shorter => exact .none (shorter.trans earlier)
  | next started first later => exact .next (started.trans earlier) first later

theorem LieBetween.append (lie : LieBetween tokens nodes middle) (later : LieBetween middle more rest) :
    LieBetween tokens (nodes ++ more) rest := by
  match lie with
  | .none shorter => exact later.earlier shorter
  | .next started first others => exact .next started first (others.append later)

theorem LieBetween.later (lie : LieBetween tokens nodes middle) (later : rest <:+ middle) :
    LieBetween tokens nodes rest := by
  have more := lie.append (.none later)
  rwa [List.append_nil] at more

theorem Lies.between (lies : Lies tokens top rest) : LieBetween tokens [top] rest :=
  .next List.suffix_rfl lies (.none List.suffix_rfl)

-- A reader of nodes, and one of lists of them, on lists of tokens shorter than a bound.
def Lays (bound : Nat) (node : α → Node) (read : Reader α) : Prop :=
  ∀ ⦃tokens found rest⦄, tokens.length < bound → read tokens = .ok (found, rest) → Lies tokens (node found) rest

def LaysAll (bound : Nat) (node : α → Node) (read : Reader (List α)) : Prop :=
  ∀ ⦃tokens found rest⦄, tokens.length < bound → read tokens = .ok (found, rest) →
    LieBetween tokens (found.map node) rest

theorem Lays.none_shorter {read : Reader α} : Lays 0 node read := by
  intro tokens found rest short
  exact absurd short (Nat.not_lt_zero _)

theorem LaysAll.none_shorter {read : Reader (List α)} : LaysAll 0 node read := by
  intro tokens found rest short
  exact absurd short (Nat.not_lt_zero _)

theorem Lays.fewer {read : Reader α} (lays : Lays (bound + 1) node read) : Lays bound node read := by
  intro tokens found rest short
  exact lays (Nat.lt_succ_of_lt short)

theorem laysAll_give_nil (node : α → Node) : LaysAll bound node (give []) := by
  intro tokens found rest _ run
  cases run
  exact .none List.suffix_rfl

theorem LaysAll.choose {test : Option Token → Bool} {yes no : Reader (List α)} (lays : LaysAll bound node yes)
    (lays' : LaysAll bound node no) : LaysAll bound node (Reader.choose test yes no) := by
  intro tokens found rest short run
  unfold Reader.choose at run
  split at run
  · exact lays short run
  · exact lays' short run

-- One after the other, with commas between them.
theorem LaysAll.listed {read : Reader α} {list : Reader (List α)}
    (list_eq : list = read.andThen fun first =>
      Reader.choose (meets .comma)
        ((Parse.demand .comma).andThen fun _ => list.andThen fun more => Reader.give (first :: more))
        (Reader.give [first]))
    (each : Lays bound node read) : LaysAll bound node list := by
  induction bound with
  | zero => exact .none_shorter
  | succ bound ih =>
    intro tokens found rest short run
    rw [list_eq, andThen_eq_ok] at run
    obtain ⟨first, after, read, run⟩ := run
    have lies := each short read
    have shorter := lies.suffix.length_le
    unfold Reader.choose at run
    split at run
    · simp only [andThen_eq_ok, demand_eq_ok] at run
      obtain ⟨comma, later, ⟨rfl, -⟩, more, _, reads, made⟩ := run
      cases made
      simp only [List.length_cons] at shorter
      have others := ih each.fewer (by omega) reads
      exact .next List.suffix_rfl lies (others.earlier (List.suffix_cons _ _))
    · cases run
      exact lies.between

section

variable {bound : Nat} {tier : Tier}

theorem moreOperands_lays (operands : Lays bound Expr.node (plain (operand tier))) :
    LaysAll bound Expr.node (plain (moreOperands tier)) := by
  induction bound with
  | zero => exact .none_shorter
  | succ bound ih =>
    rw [plain_moreOperands]
    refine LaysAll.choose (fun tokens found rest short run => ?_) (laysAll_give_nil _)
    simp only [andThen_eq_ok, demand_eq_ok] at run
    obtain ⟨mark, after, ⟨rfl, -⟩, next, middle, read, more, _, reads, made⟩ := run
    cases made
    simp only [List.length_cons] at short
    have lies := operands (by omega) read
    have shorter := lies.suffix.length_le
    have others := ih operands.fewer (by omega) reads
    exact .next (List.suffix_cons _ _) lies others

-- A lone operand is the reading itself, with the extent it had below.
theorem chain_lays (operands : Lays bound Expr.node (plain (operand tier))) :
    Lays bound Expr.node (plain (chain tier)) := by
  intro tokens found rest short run
  have whole := run
  simp only [plain_chain, andThen_eq_ok, placed_eq_ok, Prod.exists] at run
  obtain ⟨place, first, middle, ⟨rfl, read⟩, more, _, reads, made⟩ := run
  cases made
  have lies := operands short read
  have shorter := lies.shorter
  have others := moreOperands_lays operands (by omega) reads
  have left := others.suffix.length_le
  cases more with
  | nil =>
    rw [plain_moreOperands, Reader.choose] at reads
    split at reads
    · simp only [andThen_eq_ok] at reads
      obtain ⟨_, _, _, _, _, _, _, _, _, made⟩ := reads
      cases made
    · cases reads
      exact lies
  | cons second more =>
    refine .node (.chain whole) rfl (by omega) ?_
    simp only [chained, Expr.node, Expr.nodes_eq_map, Node.children]
    exact .next List.suffix_rfl lies others

theorem arguments_lays (expressions : Lays bound Expr.node (plain (chain .assign))) :
    LaysAll bound Expr.node (plain arguments) := by
  rw [plain_arguments]
  exact .choose (.listed plain_argumentList expressions) (laysAll_give_nil _)

theorem primary_lays (arguments : LaysAll bound Expr.node (plain arguments)) :
    Lays (bound + 1) Expr.node (plain primary) := by
  intro tokens found rest short run
  have whole := run
  simp only [plain_primary, andThen_eq_ok, take_eq_ok] at run
  obtain ⟨token, after, ⟨rfl, -⟩, run⟩ := run
  simp only [List.length_cons, Nat.add_lt_add_iff_right] at short
  have alone : LieBetween (token :: after) [] after := .none (List.suffix_cons _ _)
  cases spelled : token.lexeme with
  | number value =>
    simp only [primaryAfter, spelled] at run
    cases run
    exact .node (.primary whole) rfl (Nat.lt_succ_self _) alone
  | identifier name =>
    simp only [primaryAfter, spelled, Reader.choose] at run
    split at run
    · simp only [andThen_eq_ok, demand_eq_ok, closedBy_eq_ok] at run
      obtain ⟨given, _, ⟨opening, inside, ⟨rfl, -⟩, closing, reads, -⟩, made⟩ := run
      cases made
      simp only [List.length_cons] at short
      have listed := arguments (by omega) reads
      have left := listed.suffix.length_le
      simp only [List.length_cons] at left
      refine .node (.primary whole) rfl (by simp only [List.length_cons]; omega) ?_
      simp only [Expr.node, Expr.nodes_eq_map, Node.children]
      exact (listed.later (List.suffix_cons _ _)).earlier ⟨[token, opening], rfl⟩
    · cases run
      exact .node (.primary whole) rfl (Nat.lt_succ_self _) alone
  | typeName | operator | bracket | parenthesis | comma | semicolon | ret =>
    simp [primaryAfter, spelled] at run

theorem expression_lays : Lays bound Expr.node (plain (chain .assign)) := by
  induction bound with
  | zero => exact .none_shorter
  | succ bound ih =>
    have primaries : Lays (bound + 1) Expr.node (plain (operand .product)) := by
      rw [plain_operand_product]
      exact primary_lays (arguments_lays ih)
    have products : Lays (bound + 1) Expr.node (plain (operand .sum)) := by
      rw [plain_operand rfl]
      exact chain_lays primaries
    have sums : Lays (bound + 1) Expr.node (plain (operand .assign)) := by
      rw [plain_operand rfl]
      exact chain_lays products
    exact chain_lays sums

end

theorem expression_lies (run : plain expression tokens = .ok (e, rest)) : Lies tokens e.node rest :=
  expression_lays (Nat.lt_succ_self _) run

theorem typedName_eq_ok (run : plain typedName tokens = .ok (found, rest)) :
    ∃ first second, tokens = first :: second :: rest := by
  simp only [plain_typedName, andThen_eq_ok, demand_eq_ok, take_eq_ok] at run
  obtain ⟨first, _, ⟨rfl, -⟩, second, _, ⟨rfl, -⟩, made⟩ := run
  cases made
  exact ⟨first, second, rfl⟩

theorem parameter_lays : Lays bound Parameter.node (plain parameter) := by
  intro tokens found rest _ run
  have whole := run
  simp only [plain_parameter, andThen_eq_ok, placed_eq_ok, Prod.exists] at run
  obtain ⟨place, typeName, name, _, ⟨rfl, read⟩, made⟩ := run
  cases made
  obtain ⟨first, second, rfl⟩ := typedName_eq_ok read
  exact .node (.parameter whole) rfl (by simp only [List.length_cons]; omega) (.none ⟨[first, second], rfl⟩)

theorem parameters_lie (run : plain parameters tokens = .ok (listed, rest)) :
    LieBetween tokens (listed.map Parameter.node) rest := by
  rw [plain_parameters] at run
  exact LaysAll.choose (laysAll_give_nil _) (.listed plain_parameterList parameter_lays)
    (Nat.lt_succ_self _) run

theorem declaration_lies (run : plain declaration tokens = .ok (s, rest)) : Lies tokens s.node rest := by
  have whole := run
  simp only [plain_declaration, andThen_eq_ok, placed_eq_ok, closedBy_eq_ok, Prod.exists] at run
  obtain ⟨place, typeName, name, _, ⟨rfl, mark, read, -⟩, made⟩ := run
  cases made
  obtain ⟨first, second, rfl⟩ := typedName_eq_ok read
  exact .node (.declaration whole) rfl (by simp only [List.length_cons]; omega) (.none ⟨[first, second, mark], rfl⟩)

theorem expressionStatement_lies (run : plain expressionStatement tokens = .ok (s, rest)) :
    Lies tokens s.node rest := by
  have whole := run
  simp only [plain_expressionStatement, andThen_eq_ok, placed_eq_ok, closedBy_eq_ok, Prod.exists] at run
  obtain ⟨place, value, _, ⟨rfl, mark, read, -⟩, made⟩ := run
  cases made
  have lies := expression_lies read
  have shorter := lies.shorter
  simp only [List.length_cons] at shorter
  exact .node (.expressionStatement whole) rfl (by omega) (lies.between.later (List.suffix_cons _ _))

theorem statements_lay : LaysAll bound Stmt.node (plain statements) := by
  induction bound with
  | zero => exact .none_shorter
  | succ bound ih =>
    rw [plain_statements]
    refine LaysAll.choose (fun tokens found rest short run => ?_) (laysAll_give_nil _)
    simp only [andThen_eq_ok] at run
    obtain ⟨first, middle, read, more, _, reads, made⟩ := run
    cases made
    have lies : Lies tokens first.node middle := by
      unfold Reader.choose at read
      split at read
      · exact declaration_lies read
      · exact expressionStatement_lies read
    have shorter := lies.shorter
    exact .next List.suffix_rfl lies (ih (by omega) reads)

theorem returnStatement_lies (run : plain returnStatement tokens = .ok (r, rest)) : Lies tokens r.node rest := by
  have whole := run
  simp only [plain_returnStatement, andThen_eq_ok, placed_eq_ok, demand_eq_ok, closedBy_eq_ok, Prod.exists] at run
  obtain ⟨place, value, _, ⟨rfl, word, after, ⟨rfl, -⟩, mark, read, -⟩, made⟩ := run
  cases made
  have lies := expression_lies read
  have shorter := lies.shorter
  simp only [List.length_cons] at shorter
  refine .node (.returnStatement whole) rfl (by simp only [List.length_cons]; omega) ?_
  exact (lies.between.later (List.suffix_cons _ _)).earlier (List.suffix_cons _ _)

theorem heading_lies (run : plain heading tokens = .ok ((returnType, name, listed), rest)) :
    LieBetween tokens (listed.map Parameter.node) rest := by
  simp only [plain_heading, andThen_eq_ok, demand_eq_ok, closedBy_eq_ok] at run
  obtain ⟨first, _, ⟨rfl, -⟩, second, _, ⟨rfl, -⟩, _, _, ⟨opening, inside, ⟨rfl, -⟩, closing, reads, -⟩, made⟩ := run
  cases made
  exact ((parameters_lie reads).later (List.suffix_cons _ _)).earlier ⟨[first, second, opening], rfl⟩

theorem body_lies (run : plain body tokens = .ok ((listed, result), rest)) :
    LieBetween tokens (listed.map Stmt.node ++ [result.node]) rest ∧ rest.length < tokens.length := by
  simp only [plain_body, andThen_eq_ok, demand_eq_ok, closedBy_eq_ok] at run
  obtain ⟨opening, inside, ⟨rfl, -⟩, closing, ⟨_, middle, reads, _, _, read, made⟩, -⟩ := run
  cases made
  have lies := returnStatement_lies read
  have lie := (statements_lay (Nat.lt_succ_self _) reads).append lies.between
  refine ⟨(lie.later (List.suffix_cons _ _)).earlier (List.suffix_cons _ _), ?_⟩
  have shorter := lie.suffix.length_le
  simp only [List.length_cons] at shorter ⊢
  omega

theorem function_lies (run : plain function tokens = .ok (f, rest)) : Lies tokens f.node rest := by
  have whole := run
  simp only [plain_function, andThen_eq_ok, placed_eq_ok, Prod.exists] at run
  obtain ⟨place, returnType, name, parameters, statements, result, _,
    ⟨rfl, _, _, _, middle, readHeading, _, _, _, readBody, made⟩, made'⟩ := run
  cases made
  cases made'
  have listed := heading_lies readHeading
  obtain ⟨lie, shorter⟩ := body_lies readBody
  refine .node (.function whole) rfl (Nat.lt_of_lt_of_le shorter listed.suffix.length_le) ?_
  simp only [Function.node, Node.children, List.append_assoc]
  exact listed.append lie

theorem wholeFunctions_lie (short : tokens.length < bound) (run : wholeFunctions tokens = .ok (found, rest)) :
    LieBetween tokens (found.map Function.node) rest ∧ rest.length < tokens.length := by
  induction bound generalizing tokens found with
  | zero => exact absurd short (Nat.not_lt_zero _)
  | succ bound ih =>
    rw [wholeFunctions_eq, andThen_eq_ok] at run
    obtain ⟨first, after, read, run⟩ := run
    have lies := function_lies read
    have shorter := lies.shorter
    unfold Reader.choose at run
    split at run
    · cases run
      exact ⟨lies.between, shorter⟩
    · obtain ⟨more, _, reads, made⟩ := andThen_eq_ok.mp run
      cases made
      obtain ⟨lie, shorter'⟩ := ih (by omega) reads
      exact ⟨.next List.suffix_rfl lies lie, shorter'.trans shorter⟩

-- A program has all tokens, and every node in it has its own.
theorem program_lies (run : Parse.program tokens = .ok p) : Lies tokens p.node [] := by
  have whole := run
  unfold Parse.program at run
  split at run
  · cases run
  · rename_i found reads
    cases run
    have run : wholeFunctions tokens = .ok (found, []) := by
      rw [wholeFunctions, reads]
      rfl
    obtain ⟨lie, shorter⟩ := wholeFunctions_lie (Nat.lt_succ_self _) run
    exact .node (.program whole) rfl shorter lie

end WordC.Parse
