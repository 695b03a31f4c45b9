import WordC.Proofs.Parse.Exact

namespace WordC.Parse
open Grammar Spelling

-- What may follow an expression: no opening parenthesis, and no operator of the levels that it covers.
def Ends (rank : Nat) (next : Option Token) : Prop :=
  meets (.parenthesis (some "(")) next = false ∧
    ∀ tier, looseness tier ≤ rank → meets (.operator (some tier.symbol)) next = false

theorem Ends.mono (ended : Ends rank next) (less : rank' ≤ rank) : Ends rank' next :=
  ⟨ended.1, fun tier within => ended.2 tier (Nat.le_trans within less)⟩

theorem meets_some_eq_false {wanted : Wanted} :
    meets wanted (some token) = false ↔ ¬wanted.metBy token.lexeme := by
  simp [meets]

-- The operator of a level ends its operands.
theorem ends_joins (joined : IsMark (joins tier) mark) : Ends (looseness tier - 1) (some mark) := by
  have spelled : mark.lexeme = joins tier := joined
  refine ⟨?_, fun other within => ?_⟩
  · simp [meets_some_eq_false, spelled, joins]
  · rw [meets_some_eq_false, Wanted.metBy_operator, spelled]
    cases tier <;> cases other <;> simp_all [joins, looseness, Tier.symbol]

theorem ends_of_lexeme {token : Token} (unopened : token.lexeme ≠ .parenthesis (some "("))
    (unjoined : token.lexeme.kind ≠ .operator) : Ends rank (some token) := by
  refine ⟨?_, fun tier _ => ?_⟩
  · rw [meets_some_eq_false, Wanted.metBy_parenthesis]
    exact unopened
  · rw [meets_some_eq_false, Wanted.metBy_operator]
    intro joined
    rw [joined] at unjoined
    exact unjoined rfl

theorem ends_comma (token : Token) (comma : Wanted.comma.metBy token.lexeme) : Ends rank (some token) := by
  obtain ⟨payload, spelled⟩ := Wanted.metBy_comma.mp comma
  exact ends_of_lexeme (by simp [spelled]) (by simp [spelled, Lexeme.kind])

theorem ends_semicolon (token : Token) (closed : Wanted.semicolon.metBy token.lexeme) :
    Ends rank (some token) := by
  obtain ⟨payload, spelled⟩ := Wanted.metBy_semicolon.mp closed
  exact ends_of_lexeme (by simp [spelled]) (by simp [spelled, Lexeme.kind])

-- A list in parentheses can only be followed by the closing one.
def Closes (next : Option Token) : Prop := meets (.parenthesis (some ")")) next = true

theorem closes_iff : Closes next ↔ ∃ token, next = some token ∧ token.lexeme = closes := by
  cases next <;> simp [Closes, meets, closes]

section

variable {tier : Tier}

-- The operands after the first one, with the operator in front of each.
def Further (tier : Tier) : Spelling (List Expr) :=
  (after (.operator (some tier.symbol)) (Operands tier)).either (nothing [])

theorem operands_iff :
    Operands tier used found ↔
      (Spelling.join (Grammar.Operand tier) fun first => (Further tier).image (first :: ·)) used found := by
  constructor
  · intro operands
    cases operands with
    | last first => exact ⟨used, [], _, by simp, first, [], .inr ⟨rfl, rfl⟩, rfl⟩
    | @next _ left first mark right more operand joined rest =>
      exact ⟨left, _, first, rfl, operand, more,
        .inl ⟨mark, right, rfl, Wanted.metBy_operator.mpr joined, rest⟩, rfl⟩
  · intro spelled
    obtain ⟨left, right, first, rfl, operand, more, further, rfl⟩ := spelled
    rcases further with ⟨mark, later, rfl, joined, rest⟩ | ⟨rfl, rfl⟩
    · exact .next operand (Wanted.metBy_operator.mp joined) rest
    · simpa using Operands.last operand

-- An expression begins with a number or a name.
def Begins (used : List Token) : Prop := starts used.head? = true

theorem Begins.filled (begun : Begins used) : used ≠ [] := by
  rintro rfl
  cases begun

theorem Begins.append (begun : Begins left) (right : List Token) : Begins (left ++ right) := by
  cases left with
  | nil => cases begun
  | cons => exact begun

theorem place_append (begun : Begins left) (right : List Token) : place (left ++ right) = place left :=
  Reads.here_append begun.filled right

theorem level_iff (begins : ∀ used e, Grammar.Operand tier used e → Begins used) :
    Level tier used found ↔ (Spelling.join (Spelling.placed (Grammar.Operand tier)) fun placed =>
      (Further tier).image (chained placed.1 tier placed.2)) used found := by
  constructor
  · intro level
    cases level with
    | single operand =>
      exact ⟨used, [], (place used, found), by simp, ⟨rfl, operand⟩, [], .inr ⟨rfl, rfl⟩, rfl⟩
    | several operands =>
      obtain ⟨left, right, first, rfl, operand, more, further, made⟩ := operands_iff.mp operands
      cases made
      rw [place_append (begins _ _ operand)]
      exact ⟨left, right, (place left, _), rfl, ⟨rfl, operand⟩, _, further, rfl⟩
  · intro spelled
    obtain ⟨left, right, ⟨located, first⟩, rfl, ⟨rfl, operand⟩, more, further, rfl⟩ := spelled
    cases more with
    | nil =>
      rcases further with ⟨mark, later, rfl, joined, rest⟩ | ⟨rfl, -⟩
      · cases rest
      · simpa [chained] using Level.single operand
    | cons second others =>
      have operands : Operands tier (left ++ right) (first :: second :: others) :=
        operands_iff.mpr ⟨left, right, first, rfl, operand, _, further, rfl⟩
      have level := Level.several operands
      rw [place_append (begins _ _ operand)] at level
      exact level

theorem level_begins (begins : ∀ used e, Grammar.Operand tier used e → Begins used)
    (level : Level tier used found) : Begins used := by
  obtain ⟨left, right, placed, rfl, ⟨-, operand⟩, -⟩ := (level_iff begins).mp level
  exact (begins _ _ operand).append right

end

theorem primary_begins (primary : Primary used e) : Begins used := by
  cases primary with
  | number spelled | var spelled | call spelled =>
    simp [Begins, starts, spelled, Lexeme.startsExpression]

theorem operand_begins (tier : Tier) (used : List Token) (e : Expr) (operand : Grammar.Operand tier used e) :
    Begins used := by
  have product : ∀ used e, Grammar.Operand .product used e → Begins used := by
    intro used e operand
    cases operand with
    | ofPrimary spelled => exact primary_begins spelled
  have sum : ∀ used e, Grammar.Operand .sum used e → Begins used := by
    intro used e operand
    cases operand with
    | ofProduct level => exact level_begins product level
  cases operand with
  | ofPrimary spelled => exact primary_begins spelled
  | ofProduct level => exact level_begins product level
  | ofSum level => exact level_begins sum level

theorem expression_begins (level : Level tier used e) : Begins used :=
  level_begins (operand_begins tier) level

theorem primary_inhabited : ∃ used e, Primary used e :=
  ⟨[⟨.number none, ⟨"", 1, 1⟩⟩], _, .number rfl⟩

theorem operand_of_primary (primary : Primary used e) : ∀ tier, Grammar.Operand tier used e
  | .product => .ofPrimary primary
  | .sum => .ofProduct (.single (.ofPrimary primary))
  | .assign => .ofSum (.single (.ofProduct (.single (.ofPrimary primary))))

theorem operand_inhabited (tier : Tier) : ∃ used e, Grammar.Operand tier used e :=
  let ⟨used, e, primary⟩ := primary_inhabited
  ⟨used, e, operand_of_primary primary tier⟩

theorem expression_inhabited (tier : Tier) : ∃ used e, Level tier used e :=
  let ⟨used, e, operand⟩ := operand_inhabited tier
  ⟨used, e, .single operand⟩

theorem further_seam (further : Further tier right found) (ended : Ends (looseness tier) rest.head?) :
    Ends (looseness tier - 1) (right ++ rest).head? := by
  rcases further with ⟨mark, later, rfl, joined, -⟩ | ⟨rfl, -⟩
  · exact ends_joins (Wanted.metBy_operator.mp joined)
  · exact ended.mono (Nat.sub_le ..)

-- Behind each operator the reader calls itself on fewer tokens.
theorem moreOperands_reads
    (operands : Reads n (Grammar.Operand tier) (Ends (looseness tier - 1)) (plain (operand tier))) :
    Reads n (Further tier) (Ends (looseness tier)) (plain (moreOperands tier)) := by
  have upTo (m : Nat) (less : m ≤ n) :
      Reads m (Further tier) (Ends (looseness tier)) (plain (moreOperands tier)) := by
    induction m with
    | zero => exact .none_shorter
    | succ m ih =>
      have more := ih (by omega)
      have one : Reads m (Operands tier) (Ends (looseness tier))
          ((plain (operand tier)).andThen fun next =>
            (plain (moreOperands tier)).andThen fun more => Reader.give (next :: more)) := by
        refine ((operands.mono (by omega)).andThen (fun _ first _ => more.map (first :: ·))
          (fun _ _ _ => Nat.le_add_left ..) ?_ ?_).congr (fun _ _ => operands_iff.symm) fun _ => id
        · intro left first right found rest _ spelled ended
          obtain ⟨inner, further, -⟩ := spelled
          exact further_seam further ended
        · exact fun _ first _ => ⟨[], [first], [], .inr ⟨rfl, rfl⟩, rfl⟩
      rw [plain_moreOperands]
      refine (one.after _ ?_).choose (.give []) ?_ ?_
      · obtain ⟨used, e, operand⟩ := operand_inhabited tier
        exact ⟨used, [e], .last operand⟩
      · intro used found rest spelled _
        obtain ⟨mark, later, rfl, joined, -⟩ := spelled
        exact joined
      · intro used found rest spelled ended
        obtain ⟨rfl, -⟩ := spelled
        exact ended.2 tier (Nat.le_refl _)
  exact upTo n (Nat.le_refl n)

theorem chain_reads
    (operands : Reads n (Grammar.Operand tier) (Ends (looseness tier - 1)) (plain (operand tier))) :
    Reads n (Level tier) (Ends (looseness tier)) (plain (chain tier)) := by
  rw [plain_chain]
  refine ((operands.placed fun _ _ operand => (operand_begins _ _ _ operand).filled).andThen
    (fun _ placed _ => (moreOperands_reads operands).map (chained placed.1 tier placed.2))
    (fun _ _ _ => Nat.le_add_left ..) ?_ ?_).congr (fun _ _ => (level_iff (operand_begins tier)).symm)
    fun _ => id
  · intro left first right found rest _ spelled ended
    obtain ⟨inner, further, -⟩ := spelled
    exact further_seam further ended
  · exact fun _ placed _ => ⟨[], _, [], .inr ⟨rfl, rfl⟩, rfl⟩

theorem argumentList_iff : ArgumentList used found ↔ Listed (Level .assign) used found := by
  constructor
  · intro listed
    induction found generalizing used with
    | nil => cases listed
    | cons e rest ih =>
      cases listed with
      | last level => exact .last level
      | next level comma more => exact .next level (Wanted.metBy_comma.mpr ⟨_, comma⟩) (ih more)
  · intro listed
    induction listed with
    | last level => exact .last level
    | next level comma more ih =>
      obtain ⟨payload, spelled⟩ := Wanted.metBy_comma.mp comma
      exact .next level spelled ih

theorem argumentList_begins (listed : ArgumentList used found) : Begins used := by
  cases listed with
  | last level => exact expression_begins level
  | next level => exact (expression_begins level).append _

theorem arguments_iff : Arguments used found ↔ (Spelling.either ArgumentList (nothing [])) used found := by
  constructor
  · intro given
    cases given with
    | none => exact .inr ⟨rfl, rfl⟩
    | some listed => exact .inl listed
  · intro spelled
    rcases spelled with listed | ⟨rfl, rfl⟩
    · exact .some listed
    · exact .none

theorem Closes.ends (closed : Closes next) : Ends rank next := by
  obtain ⟨token, rfl, spelled⟩ := closes_iff.mp closed
  exact ends_of_lexeme (by simp [spelled, closes]) (by simp [spelled, closes, Lexeme.kind])

theorem Closes.not_comma (closed : Closes next) : meets .comma next = false := by
  obtain ⟨token, rfl, spelled⟩ := closes_iff.mp closed
  simp [meets_some_eq_false, spelled, closes]

theorem Closes.not_starts (closed : Closes next) : starts next = false := by
  obtain ⟨token, rfl, spelled⟩ := closes_iff.mp closed
  simp [starts, spelled, closes, Lexeme.startsExpression]

theorem arguments_reads (levels : Reads n (Level .assign) (Ends 3) (plain (chain .assign))) :
    Reads n Arguments Closes (plain arguments) := by
  have listed : Reads n ArgumentList Closes (plain argumentList) :=
    (Reads.listed plain_argumentList levels (expression_inhabited .assign) ends_comma).congr
      (fun _ _ => argumentList_iff.symm) fun _ closed => ⟨closed.ends, closed.not_comma⟩
  rw [plain_arguments]
  refine (listed.choose (.give []) ?_ ?_).congr (fun _ _ => arguments_iff.symm) fun _ => id
  · intro used found rest listed _
    exact (argumentList_begins listed).append rest
  · intro used found rest spelled closed
    obtain ⟨rfl, -⟩ := spelled
    exact closed.not_starts

theorem primary_cons_iff : Primary (token :: used) e ↔
    (∃ value, token.lexeme = .number value ∧ nothing (.number (some token.location) value) used e) ∨
    ∃ name, token.lexeme = .identifier name ∧
      ((after (.parenthesis (some "(")) (closedBy Arguments (.parenthesis (some ")")))).image
        (.call (some token.location) name)).either (nothing (.var (some token.location) name)) used e := by
  constructor
  · generalize all : token :: used = tokens
    intro primary
    cases primary with
    | number spelled =>
      cases all
      exact .inl ⟨_, spelled, rfl, rfl⟩
    | var spelled =>
      cases all
      exact .inr ⟨_, spelled, .inr ⟨rfl, rfl⟩⟩
    | call spelled opened arguments closed =>
      cases all
      exact .inr ⟨_, spelled, .inl ⟨_, ⟨_, _, rfl, Wanted.metBy_parenthesis.mpr opened, _, _, rfl,
        Wanted.metBy_parenthesis.mpr closed, arguments⟩, rfl⟩⟩
  · intro spelling
    rcases spelling with ⟨value, spelled, rfl, rfl⟩ | ⟨name, spelled, called | ⟨rfl, rfl⟩⟩
    · exact .number spelled
    · obtain ⟨given, ⟨left, later, rfl, opened, inside, right, rfl, closed, arguments⟩, rfl⟩ := called
      exact .call spelled (Wanted.metBy_parenthesis.mp opened) arguments (Wanted.metBy_parenthesis.mp closed)
    · exact .var spelled

theorem arguments_inhabited : ∃ used found, Arguments used found := ⟨[], [], .none⟩

theorem primaryAfter_reads (reads : Reads n Arguments Closes (plain arguments))
    (started : token.lexeme.startsExpression = true) :
    Reads n (fun used e => Primary (token :: used) e) (Ends 0) (primaryAfter token) := by
  unfold primaryAfter
  split
  · rename_i value spelled
    refine (Reads.give _).congr (fun used e => ?_) fun _ => id
    simp [primary_cons_iff, spelled]
  · rename_i name spelled
    have closed : Reads n (closedBy Arguments (.parenthesis (some ")"))) (Ends 0)
        ((plain arguments).closedBy (.parenthesis (some ")"))) := reads.closedBy fun _ => id
    have called := (closed.after (.parenthesis (some "("))
      (Reads.closedBy_inhabited _ arguments_inhabited)).map (Expr.call (some token.location) name)
    refine ((called.mono (Nat.le_succ n)).choose (.give _) ?_ ?_).congr (fun used e => ?_) fun _ => id
    · intro used found rest spelled _
      obtain ⟨given, ⟨mark, later, rfl, opened, -⟩, -⟩ := spelled
      exact opened
    · intro used found rest spelled ended
      obtain ⟨rfl, -⟩ := spelled
      exact ended.1
    · simp [primary_cons_iff, spelled]
  · rename_i unnumbered unnamed
    cases spelled : token.lexeme <;> simp_all [Lexeme.startsExpression]

theorem primary_reads (reads : Reads n Arguments Closes (plain arguments)) :
    Reads (n + 1) Primary (Ends 0) (plain primary) := by
  have first : Reads (n + 1) (.one Lexeme.startsExpression) Always
      (Reader.take Lexeme.startsExpression .noExpression) := by
    refine .take (fun _ => rfl) (fun _ => ⟨.number none, .number⟩) fun _ lexeme fits => ?_
    generalize said : Refusal.expected _ = expected at fits
    cases fits <;> simp [Refusal.expected, Lexeme.startsExpression] at said ⊢
  rw [plain_primary]
  refine (first.andThen (fun _ token started => primaryAfter_reads reads started.2) ?_
    (fun _ _ _ _ _ _ _ _ => trivial) ?_).congr (fun used e => ⟨?_, fun primary => ?_⟩) fun _ => id
  · intro used token spelled
    obtain ⟨rfl, -⟩ := spelled
    simp only [List.length_singleton]
    omega
  · intro used token spelled
    obtain ⟨rfl, started⟩ := spelled
    cases spelled : token.lexeme with
    | number value => exact ⟨[], _, .number spelled⟩
    | identifier name => exact ⟨[], _, .var spelled⟩
    | typeName | operator | bracket | parenthesis | comma | semicolon | ret =>
      simp [spelled, Lexeme.startsExpression] at started
  · intro spelled
    obtain ⟨left, right, token, rfl, ⟨rfl, started⟩, primary⟩ := spelled
    exact primary
  · have begun := primary_begins primary
    cases used with
    | nil => cases begun
    | cons token right => exact ⟨[token], right, token, rfl, ⟨rfl, begun⟩, primary⟩

theorem operand_product_iff : Grammar.Operand .product used e ↔ Primary used e :=
  ⟨fun operand => by cases operand with | ofPrimary primary => exact primary, .ofPrimary⟩

theorem operand_sum_iff : Grammar.Operand .sum used e ↔ Level .product used e :=
  ⟨fun operand => by cases operand with | ofProduct level => exact level, .ofProduct⟩

theorem operand_assign_iff : Grammar.Operand .assign used e ↔ Level .sum used e :=
  ⟨fun operand => by cases operand with | ofSum level => exact level, .ofSum⟩

-- From the tightest level to the loosest. The arguments of a call are expressions again, behind a name.
theorem expression_reads (n : Nat) : Reads n (Level .assign) (Ends 3) (plain (chain .assign)) := by
  induction n with
  | zero => exact .none_shorter
  | succ n ih =>
    have primaries : Reads (n + 1) (Grammar.Operand .product) (Ends 0) (plain (operand .product)) := by
      rw [plain_operand_product]
      exact (primary_reads (arguments_reads ih)).congr (fun _ _ => operand_product_iff.symm) fun _ => id
    have products : Reads (n + 1) (Grammar.Operand .sum) (Ends 1) (plain (operand .sum)) := by
      rw [plain_operand rfl]
      exact (chain_reads primaries).congr (fun _ _ => operand_sum_iff.symm) fun _ => id
    have sums : Reads (n + 1) (Grammar.Operand .assign) (Ends 2) (plain (operand .assign)) := by
      rw [plain_operand rfl]
      exact (chain_reads products).congr (fun _ _ => operand_assign_iff.symm) fun _ => id
    exact chain_reads sums

end WordC.Parse
