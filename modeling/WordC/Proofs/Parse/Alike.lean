import WordC.Proofs.Parse.Viable

namespace WordC

def Token.unplaced (token : Token) : Token := { token with location := ⟨"", 1, 1⟩ }

theorem Token.unplaced_congr {token token' : Token} (same : token'.lexeme = token.lexeme) :
    token'.unplaced = token.unplaced := by
  unfold Token.unplaced
  rw [same]

namespace Parse
open Grammar

-- The refusal without the place of the token it is about.
def Refusal.unplaced : Refusal → Refusal
  | .unmet wanted found => .unmet wanted (found.map Token.unplaced)
  | .noExpression found => .noExpression (found.map Token.unplaced)
  | .pointer found => .pointer found.unplaced

-- Two readings that come to the same. They take alike tokens, and at least as many as are said, or they refuse for
-- the same reason.
inductive Together (least : Nat) (tokens : List Token) :
    Except Refusal (α × List Token) → Except Refusal (α × List Token) → Prop where
  | read (alike : Alike rest rest') (used : rest.length + least ≤ tokens.length) :
      Together least tokens (.ok (found, rest)) (.ok (found', rest'))
  | refused (same : refusal'.unplaced = refusal.unplaced) :
      Together least tokens (.error refusal) (.error refusal')

theorem Together.mono {one other : Except Refusal (α × List Token)} (together : Together least rest one other)
    (enough : rest.length + least' ≤ tokens.length + least) : Together least' tokens one other := by
  cases together with
  | read alike used => exact .read alike (by omega)
  | refused same => exact .refused same

-- Readers that come to the same on alike tokens, fewer than a bound.
structure Parallel (bound least : Nat) (read read' : Reader α) : Prop where
  together : ∀ {tokens tokens' : List Token}, tokens.length < bound → Alike tokens tokens' →
    Together least tokens (read tokens) (read' tokens')

-- A test of the next token that does not look at its place.
def Blind (test : Option Token → Bool) : Prop :=
  ∀ next next' : Option Token, next'.map Token.lexeme = next.map Token.lexeme → test next' = test next

theorem blind_meets (wanted : Wanted) : Blind (meets wanted) := by
  intro next next' same
  unfold meets
  cases next <;> cases next' <;> simp_all

theorem blind_starts : Blind starts := by
  intro next next' same
  unfold starts
  cases next <;> cases next' <;> simp_all

theorem head?_alike (alike : Alike tokens tokens') :
    tokens'.head?.map Token.lexeme = tokens.head?.map Token.lexeme := by
  rw [← List.head?_map, ← List.head?_map, alike]

namespace Parallel

variable {read read' : Reader α}

theorem none_shorter : Parallel 0 least read read' := by
  constructor
  intro tokens tokens' short
  omega

theorem mono (parallel : Parallel bound least read read') (less : bound' ≤ bound) (least' : fewer ≤ least) :
    Parallel bound' fewer read read' := by
  constructor
  intro tokens tokens' short alike
  exact (parallel.together (by omega) alike).mono (by omega)

theorem weaken (parallel : Parallel bound least read read') : Parallel bound 0 read read' :=
  parallel.mono (Nat.le_refl _) (Nat.zero_le _)

theorem earlier (parallel : Parallel bound least read read') (less : Nat) : Parallel (bound - less) least read read' :=
  parallel.mono (Nat.sub_le _ _) (Nat.le_refl _)

theorem give {found found' : α} : Parallel bound 0 (Reader.give found) (Reader.give found') := by
  constructor
  intro tokens tokens' short alike
  exact .read alike (Nat.le_refl _)

theorem andThen {next next' : α → Reader β} (first : Parallel bound least read read')
    (later : ∀ found found', Parallel (bound - least) least' (next found) (next' found')) :
    Parallel bound (least + least') (read.andThen next) (read'.andThen next') := by
  constructor
  intro tokens tokens' short alike
  have together := first.together short alike
  unfold Reader.andThen
  generalize read tokens = one, read' tokens' = other at together
  cases together with
  | refused same => exact .refused same
  | read alike used => exact ((later _ _).together (by omega) alike).mono (by omega)

theorem choose {test : Option Token → Bool} {no no' : Reader α} (blind : Blind test)
    (yes : Parallel bound least read read') (other : Parallel bound least no no') :
    Parallel bound least (Reader.choose test read no) (Reader.choose test read' no') := by
  constructor
  intro tokens tokens' short alike
  unfold Reader.choose
  rw [blind _ _ (head?_alike alike)]
  split
  · exact yes.together short alike
  · exact other.together short alike

theorem placed (parallel : Parallel bound least read read') : Parallel bound least read.placed read'.placed := by
  constructor
  intro tokens tokens' short alike
  have together := parallel.together short alike
  unfold Reader.placed
  generalize read tokens = one, read' tokens' = other at together
  cases together with
  | refused same => exact .refused same
  | read alike used => exact .read alike used

theorem take {test : Lexeme → Bool} {refusal : Option Token → Refusal}
    (blind : ∀ token token' : Token, token'.lexeme = token.lexeme →
      (refusal (some token')).unplaced = (refusal (some token)).unplaced) :
    Parallel bound 1 (Reader.take test refusal) (Reader.take test refusal) := by
  constructor
  intro tokens tokens' short alike
  cases tokens with
  | nil =>
    rw [alike_nil alike]
    exact .refused rfl
  | cons token rest =>
    obtain ⟨token', rest', rfl, same, alike⟩ := alike_cons alike
    simp only [Reader.take, same]
    split
    · exact .read alike (Nat.le_refl _)
    · exact .refused (blind token token' same)

theorem demand (wanted : Wanted) : Parallel bound 1 (Parse.demand wanted) (Parse.demand wanted) := by
  apply take
  intro token token' same
  simp only [Refusal.unplaced, Option.map_some, Token.unplaced_congr same]

theorem closedBy (parallel : Parallel bound least read read') (wanted : Wanted) :
    Parallel bound least (read.closedBy wanted) (read'.closedBy wanted) :=
  (parallel.andThen fun _ _ => (demand wanted).andThen fun _ _ => give).mono (Nat.le_refl _) (Nat.le_add_right _ _)

end Parallel

section

variable {bound : Nat}

theorem moreOperands_parallel {tier : Tier}
    (operands : Parallel bound 1 (plain (operand tier)) (plain (operand tier))) :
    Parallel bound 0 (plain (moreOperands tier)) (plain (moreOperands tier)) := by
  induction bound with
  | zero => exact .none_shorter
  | succ bound ih =>
    have operands : Parallel bound 1 (plain (operand tier)) (plain (operand tier)) := operands.earlier 1
    have more := (ih operands).earlier 1
    rw [plain_moreOperands]
    apply Parallel.choose (blind_meets _)
    · apply Parallel.weaken
      exact (Parallel.demand _).andThen fun _ _ => operands.andThen fun _ _ => more.andThen fun _ _ => .give
    · exact .give

theorem chain_parallel {tier : Tier}
    (operands : Parallel bound 1 (plain (operand tier)) (plain (operand tier))) :
    Parallel bound 1 (plain (chain tier)) (plain (chain tier)) := by
  have more := (moreOperands_parallel operands).earlier 1
  rw [plain_chain]
  exact operands.placed.andThen fun _ _ => more.andThen fun _ _ => .give

-- One or more, with commas between them.
theorem Parallel.listed {read : Reader α} {list : Reader (List α)}
    (list_eq : list = read.andThen fun first =>
      Reader.choose (meets .comma)
        ((Parse.demand .comma).andThen fun _ => list.andThen fun more => Reader.give (first :: more))
        (Reader.give [first]))
    (each : Parallel bound 1 read read) : Parallel bound 1 list list := by
  induction bound with
  | zero => exact .none_shorter
  | succ bound ih =>
    have more := (ih (each.earlier 1)).earlier 1
    rw [list_eq]
    refine each.andThen fun _ _ => Parallel.choose (blind_meets _) ?_ .give
    apply Parallel.weaken
    exact (Parallel.demand _).andThen fun _ _ => more.andThen fun _ _ => .give

theorem arguments_parallel (levels : Parallel bound 1 (plain (chain .assign)) (plain (chain .assign))) :
    Parallel bound 0 (plain arguments) (plain arguments) := by
  rw [plain_arguments]
  exact .choose blind_starts (Parallel.listed plain_argumentList levels).weaken .give

theorem primaryAfter_parallel (given : Parallel bound 0 (plain arguments) (plain arguments))
    (same : token'.lexeme = token.lexeme) : Parallel bound 0 (primaryAfter token) (primaryAfter token') := by
  unfold primaryAfter
  rw [same]
  split
  · exact .give
  · apply Parallel.choose (blind_meets _)
    · apply Parallel.weaken
      exact ((Parallel.demand _).andThen fun _ _ => (given.earlier 1).closedBy _).andThen fun _ _ => .give
    · exact .give
  · constructor
    intro tokens tokens' short alike
    apply Together.refused
    simp only [Refusal.unplaced, Option.map_some, Token.unplaced_congr same]

-- What follows the first token of a primary depends on its lexeme, so this one is not any reader after another.
theorem primary_parallel (given : Parallel bound 0 (plain arguments) (plain arguments)) :
    Parallel (bound + 1) 1 (plain primary) (plain primary) := by
  rw [plain_primary]
  constructor
  intro tokens tokens' short alike
  cases tokens with
  | nil =>
    rw [alike_nil alike]
    exact .refused rfl
  | cons token rest =>
    obtain ⟨token', rest', rfl, same, alike⟩ := alike_cons alike
    simp only [Reader.andThen, Reader.take, same]
    by_cases begun : token.lexeme.startsExpression
    · simp only [begun, if_true]
      exact ((primaryAfter_parallel given same).together (Nat.lt_of_succ_lt_succ short) alike).mono (Nat.le_refl _)
    · simp only [begun]
      apply Together.refused
      simp only [Refusal.unplaced, Option.map_some, Token.unplaced_congr same]

theorem expression_parallel : Parallel bound 1 (plain (chain .assign)) (plain (chain .assign)) := by
  induction bound with
  | zero => exact .none_shorter
  | succ bound ih =>
    have primaries : Parallel (bound + 1) 1 (plain (operand .product)) (plain (operand .product)) := by
      rw [plain_operand_product]
      exact primary_parallel (arguments_parallel ih)
    have products : Parallel (bound + 1) 1 (plain (operand .sum)) (plain (operand .sum)) := by
      rw [plain_operand rfl]
      exact chain_parallel primaries
    have sums : Parallel (bound + 1) 1 (plain (operand .assign)) (plain (operand .assign)) := by
      rw [plain_operand rfl]
      exact chain_parallel products
    exact chain_parallel sums

theorem nameRefusal_blind {token token' : Token} (same : token'.lexeme = token.lexeme) :
    (nameRefusal (some token')).unplaced = (nameRefusal (some token)).unplaced := by
  unfold nameRefusal
  simp only [same]
  split <;> simp [Refusal.unplaced, Token.unplaced_congr same]

theorem typedName_parallel : Parallel bound 1 (plain typedName) (plain typedName) := by
  rw [plain_typedName]
  refine ((Parallel.demand _).andThen fun _ _ => ?_).mono (Nat.le_refl _) (Nat.le_add_right 1 1)
  exact (Parallel.take fun _ _ => nameRefusal_blind).andThen fun _ _ => .give

theorem parameter_parallel : Parallel bound 1 (plain parameter) (plain parameter) := by
  rw [plain_parameter]
  exact typedName_parallel.placed.andThen fun _ _ => .give

theorem parameters_parallel : Parallel bound 0 (plain parameters) (plain parameters) := by
  rw [plain_parameters]
  exact .choose (blind_meets _) .give (Parallel.listed plain_parameterList parameter_parallel).weaken

theorem statement_parallel :
    Parallel bound 1 (Reader.choose (meets .typeName) (plain declaration) (plain expressionStatement))
      (Reader.choose (meets .typeName) (plain declaration) (plain expressionStatement)) := by
  rw [plain_declaration, plain_expressionStatement]
  apply Parallel.choose (blind_meets _)
  · exact (typedName_parallel.closedBy _).placed.andThen fun _ _ => .give
  · exact (expression_parallel.closedBy _).placed.andThen fun _ _ => .give

theorem statements_parallel : Parallel bound 0 (plain statements) (plain statements) := by
  induction bound with
  | zero => exact .none_shorter
  | succ bound ih =>
    rw [plain_statements]
    refine .choose ?_ ?_ .give
    · intro next next' same
      simp only [blind_meets _ _ _ same, blind_starts _ _ same]
    · apply Parallel.weaken
      exact statement_parallel.andThen fun _ _ => ih.andThen fun _ _ => .give

theorem returnStatement_parallel : Parallel bound 1 (plain returnStatement) (plain returnStatement) := by
  rw [plain_returnStatement]
  refine Parallel.andThen (Parallel.placed ?_) fun _ _ => .give
  exact ((Parallel.demand _).andThen fun _ _ => (expression_parallel.weaken.closedBy _))

theorem heading_parallel : Parallel bound 1 (plain heading) (plain heading) := by
  rw [plain_heading]
  exact (Parallel.demand _).andThen fun _ _ => Parallel.weaken <| (Parallel.demand _).andThen fun _ _ =>
    ((Parallel.demand _).andThen fun _ _ => parameters_parallel.closedBy _).andThen fun _ _ => .give

theorem body_parallel : Parallel bound 1 (plain body) (plain body) := by
  rw [plain_body]
  exact (Parallel.demand _).andThen fun _ _ => Parallel.weaken <| Parallel.closedBy
    (statements_parallel.andThen fun _ _ => returnStatement_parallel.andThen fun _ _ => .give) _

theorem function_parallel : Parallel bound 1 (plain function) (plain function) := by
  rw [plain_function]
  refine Parallel.andThen (Parallel.placed ?_) fun _ _ => .give
  exact heading_parallel.andThen fun _ _ => (body_parallel.andThen fun _ _ => .give).weaken

theorem wholeFunctions_parallel : Parallel bound 0 wholeFunctions wholeFunctions := by
  induction bound with
  | zero => exact .none_shorter
  | succ bound ih =>
    rw [wholeFunctions_eq]
    apply Parallel.weaken
    refine function_parallel.andThen fun _ _ => .choose ?_ .give (ih.andThen fun _ _ => .give)
    intro next next' same
    rw [← Option.isNone_map, same, Option.isNone_map]

end

-- Where tokens are refused depends on their lexemes alone, and so does the reason.
theorem program_refused_alike (alike : Alike tokens tokens') (refused : program tokens = .error refusal) :
    ∃ refusal', program tokens' = .error refusal' ∧ refusal'.unplaced = refusal.unplaced := by
  rw [program_eq_error_iff] at refused
  have together := wholeFunctions_parallel.together (Nat.lt_succ_self tokens.length) alike
  rw [refused] at together
  generalize read : wholeFunctions tokens' = other at together
  cases together with
  | refused same => exact ⟨_, program_eq_error_iff.mpr read, same⟩

end Parse

end WordC
