import WordC.Proofs.Parse.Expression

namespace WordC.Parse
open Grammar Spelling

-- A type word and a name behind it.
def TypedName : Spelling (Name × Name) := fun used found =>
  ∃ first second, used = [first, second] ∧ first.lexeme = .typeName found.1 ∧
    second.lexeme = .identifier found.2

theorem nameRefusal_found (found : Option Token) : (nameRefusal found).found = found := by
  cases found with
  | none => rfl
  | some token =>
    simp only [nameRefusal]
    split <;> rfl

-- A pointer is refused in the words in which a missing name is.
theorem nameRefusal_expected (found : Option Token) :
    (nameRefusal found).expected = Wanted.identifier.text := by
  cases found with
  | none => rfl
  | some token =>
    simp only [nameRefusal]
    split <;> rfl

theorem typedName_reads : Reads n TypedName ends (plain typedName) := by
  have first : Reads n (one Wanted.typeName.metBy) Always (demand .typeName) := .demand _
  have second : Reads n (one Wanted.identifier.metBy) ends
      (Reader.take Wanted.identifier.metBy nameRefusal) := by
    refine .take nameRefusal_found (fun found => ?_) fun found lexeme fits => ?_
    · rw [nameRefusal_expected]
      exact ⟨_, Honest.fits_sample⟩
    · rw [nameRefusal_expected] at fits
      exact Honest.met fits rfl
  rw [plain_typedName]
  refine (first.andThen (fun _ typeToken _ => second.map fun nameToken =>
      (typeToken.lexeme.name, nameToken.lexeme.name)) (fun _ _ _ => Nat.le_add_left ..)
    (fun _ _ _ _ _ _ _ _ => trivial) ?_).congr (fun used found => ⟨?_, ?_⟩) fun _ => id
  · intro used typeToken _
    obtain ⟨nameToken, named⟩ := Reads.exists_mark .identifier
    exact ⟨[nameToken], _, nameToken, ⟨rfl, named⟩, rfl⟩
  · intro spelled
    obtain ⟨left, right, typeToken, rfl, ⟨rfl, typed⟩, nameToken, ⟨rfl, named⟩, rfl⟩ := spelled
    obtain ⟨typeName, typed⟩ := Wanted.metBy_typeName.mp typed
    obtain ⟨name, named⟩ := Wanted.metBy_identifier.mp named
    exact ⟨typeToken, nameToken, rfl, by simp [typed, Lexeme.name], by simp [named, Lexeme.name]⟩
  · intro spelled
    obtain ⟨typeToken, nameToken, rfl, typed, named⟩ := spelled
    refine ⟨[typeToken], [nameToken], typeToken, rfl, ⟨rfl, ?_⟩, nameToken, ⟨rfl, ?_⟩, ?_⟩
    · exact Wanted.metBy_typeName.mpr ⟨_, typed⟩
    · exact Wanted.metBy_identifier.mpr ⟨_, named⟩
    · simp [typed, named, Lexeme.name]

theorem typedName_filled (used : List Token) (found : Name × Name) (spelled : TypedName used found) :
    used ≠ [] := by
  obtain ⟨first, second, rfl, -⟩ := spelled
  exact List.cons_ne_nil _ _

theorem typedName_inhabited : ∃ used found, TypedName used found :=
  ⟨[⟨.typeName none, ⟨"", 1, 1⟩⟩, ⟨.identifier none, ⟨"", 1, 1⟩⟩], (none, none), _, _, rfl, rfl,
    rfl⟩

theorem isParameter_iff : IsParameter used p ↔
    (placed TypedName).image (fun (place, typeName, name) => ⟨place, name, typeName⟩) used p := by
  constructor
  · intro parameter
    cases parameter with
    | typed typed named => exact ⟨(_, _, _), ⟨rfl, _, _, rfl, typed, named⟩, rfl⟩
  · intro spelled
    obtain ⟨⟨located, typeName, name⟩, ⟨rfl, first, second, rfl, typed, named⟩, rfl⟩ := spelled
    exact .typed typed named

theorem parameter_reads : Reads n IsParameter ends (plain parameter) := by
  rw [plain_parameter]
  exact ((typedName_reads.placed typedName_filled).map _).congr (fun _ _ => isParameter_iff.symm) fun _ => id

theorem parameterList_iff : ParameterList used found ↔ Listed IsParameter used found := by
  constructor
  · intro listed
    induction listed with
    | last parameter => exact .last parameter
    | next parameter comma more ih => exact .next parameter (Wanted.metBy_comma.mpr ⟨_, comma⟩) ih
  · intro listed
    induction listed with
    | last parameter => exact .last parameter
    | next parameter comma more ih =>
      obtain ⟨payload, spelled⟩ := Wanted.metBy_comma.mp comma
      exact .next parameter spelled ih

theorem parameter_inhabited : ∃ used p, IsParameter used p :=
  let ⟨used, found, spelled⟩ := typedName_inhabited
  ⟨used, _, isParameter_iff.mpr ⟨(_, found), ⟨rfl, spelled⟩, rfl⟩⟩

-- A parameter starts with its type, so it is not taken for the end of the list.
theorem parameterList_unclosed (listed : ParameterList used found) (rest : List Token) :
    meets (.parenthesis (some ")")) (used ++ rest).head? = false := by
  cases listed with
  | last parameter | next parameter =>
    cases parameter with
    | typed typed named => simp [meets_some_eq_false, typed]

theorem parameters_iff : Parameters used found ↔ (Spelling.either (nothing []) ParameterList) used found := by
  constructor
  · intro listed
    cases listed with
    | none => exact .inl ⟨rfl, rfl⟩
    | some listed => exact .inr listed
  · intro spelled
    rcases spelled with ⟨rfl, rfl⟩ | listed
    · exact .none
    · exact .some listed

theorem parameters_reads : Reads n Parameters Closes (plain parameters) := by
  have one : Reads n IsParameter Always (plain parameter) := parameter_reads
  have listed : Reads n ParameterList Closes (plain parameterList) :=
    (Reads.listed plain_parameterList one parameter_inhabited fun _ _ => trivial).congr
      (fun _ _ => parameterList_iff.symm) fun _ closed => ⟨trivial, closed.not_comma⟩
  rw [plain_parameters]
  refine ((Reads.give []).choose listed ?_ ?_).congr (fun _ _ => parameters_iff.symm) fun _ => id
  · intro used found rest spelled closed
    obtain ⟨rfl, -⟩ := spelled
    exact closed
  · intro used found rest listed _
    exact parameterList_unclosed listed rest

def Declaration : Spelling Stmt :=
  (placed (closedBy TypedName .semicolon)).image fun (place, typeName, name) => .declare place typeName name

def ExpressionStatement : Spelling Stmt :=
  (placed (closedBy (Level .assign) .semicolon)).image fun (place, value) => .expression place value

theorem isStatement_iff : IsStatement used s ↔ (Declaration.either ExpressionStatement) used s := by
  constructor
  · intro statement
    cases statement with
    | declaration typed named closed =>
      exact .inl ⟨(_, _, _), ⟨rfl, [_, _], _, rfl, Wanted.metBy_semicolon.mpr ⟨_, closed⟩, _, _, rfl, typed,
        named⟩, rfl⟩
    | @expression _ _ last _ level closed =>
      rw [← place_append (expression_begins level) [last]]
      exact .inr ⟨(_, _), ⟨rfl, _, _, rfl, Wanted.metBy_semicolon.mpr ⟨_, closed⟩, level⟩, rfl⟩
  · intro spelled
    rcases spelled with ⟨⟨located, typeName, name⟩, ⟨rfl, left, mark, rfl, closed, first, second, rfl, typed,
      named⟩, rfl⟩ | ⟨⟨located, value⟩, ⟨rfl, left, mark, rfl, closed, level⟩, rfl⟩
    · obtain ⟨payload, closed⟩ := Wanted.metBy_semicolon.mp closed
      exact .declaration typed named closed
    · obtain ⟨payload, closed⟩ := Wanted.metBy_semicolon.mp closed
      have statement := IsStatement.expression level closed
      rw [← place_append (expression_begins level) [mark]] at statement
      exact statement

theorem declaration_reads : Reads n Declaration ends (plain declaration) := by
  have named : Reads n TypedName Always (plain typedName) := typedName_reads
  have closed : Reads n (closedBy TypedName .semicolon) ends ((plain typedName).closedBy .semicolon) :=
    named.closedBy fun _ _ => trivial
  rw [plain_declaration]
  refine (closed.placed ?_).map _
  intro used found spelled
  obtain ⟨left, mark, rfl, -⟩ := spelled
  simp

theorem expressionStatement_reads : Reads n ExpressionStatement ends (plain expressionStatement) := by
  have closed : Reads n (closedBy (Level .assign) .semicolon) ends
      ((plain expression).closedBy .semicolon) := (expression_reads n).closedBy ends_semicolon
  rw [plain_expressionStatement]
  refine (closed.placed ?_).map _
  intro used found spelled
  obtain ⟨left, mark, rfl, -⟩ := spelled
  simp

-- What begins a statement.
def startsStatement (next : Option Token) : Bool := meets .typeName next || starts next

theorem startsStatement_of_statement (statement : IsStatement used s) (rest : List Token) :
    startsStatement (used ++ rest).head? = true := by
  cases statement with
  | declaration typed => simp [startsStatement, meets, typed]
  | @expression _ _ last _ level =>
    have begun := ((expression_begins level).append [last]).append rest
    simp only [startsStatement, Bool.or_eq_true]
    exact .inr begun

theorem statement_filled (statement : IsStatement used s) : used ≠ [] := by
  cases statement <;> simp

theorem not_typeName_of_starts (begun : starts next = true) : meets .typeName next = false := by
  cases next with
  | none => rfl
  | some token =>
    rw [meets_some_eq_false]
    intro typed
    obtain ⟨name, spelled⟩ := Wanted.metBy_typeName.mp typed
    simp [starts, spelled, Lexeme.startsExpression] at begun

theorem statement_reads :
    Reads n IsStatement ends
      (Reader.choose (meets .typeName) (plain declaration) (plain expressionStatement)) := by
  refine (declaration_reads.choose expressionStatement_reads ?_ ?_).congr
    (fun _ _ => isStatement_iff.symm) fun _ => id
  · intro used found rest spelled _
    obtain ⟨_, ⟨-, left, mark, rfl, -, first, second, rfl, typed, -⟩, -⟩ := spelled
    exact Wanted.metBy_typeName.mpr ⟨_, typed⟩
  · intro used found rest spelled _
    obtain ⟨_, ⟨-, left, mark, rfl, -, level⟩, -⟩ := spelled
    exact not_typeName_of_starts (((expression_begins level).append [mark]).append rest)

theorem statements_iff : Statements used found ↔
    ((Spelling.join IsStatement fun first => (Spelling.image Statements (first :: ·))).either
      (nothing [])) used found := by
  constructor
  · intro listed
    cases listed with
    | none => exact .inr ⟨rfl, rfl⟩
    | next statement more => exact .inl ⟨_, _, _, rfl, statement, _, more, rfl⟩
  · intro spelled
    rcases spelled with ⟨left, right, first, rfl, statement, more, listed, rfl⟩ | ⟨rfl, rfl⟩
    · exact .next statement listed
    · exact .none

-- A statement is not empty, so after it the reader calls itself on fewer tokens.
theorem statements_reads : Reads n Statements (fun next => startsStatement next = false) (plain statements) := by
  induction n with
  | zero => exact .none_shorter
  | succ n ih =>
    have one : Reads (n + 1) IsStatement Always
        (Reader.choose (meets .typeName) (plain declaration) (plain expressionStatement)) := statement_reads
    rw [plain_statements]
    refine ((one.andThen (fun _ first _ => ih.map (first :: ·)) ?_ (fun _ _ _ _ _ _ _ _ => trivial)
      ?_).choose (.give []) ?_ ?_).congr (fun _ _ => statements_iff.symm) fun _ => id
    · intro used first statement
      have filled := List.length_pos_of_ne_nil (statement_filled statement)
      omega
    · exact fun _ first _ => ⟨[], [first], [], .none, rfl⟩
    · intro used found rest spelled _
      obtain ⟨left, right, first, rfl, statement, -⟩ := spelled
      rw [List.append_assoc]
      exact startsStatement_of_statement statement (right ++ rest)
    · intro used found rest spelled ended
      obtain ⟨rfl, -⟩ := spelled
      exact ended

theorem isReturn_iff : IsReturn used found ↔
    (placed (after .ret (closedBy (Level .assign) .semicolon))).image
      (fun (place, value) => ⟨place, value⟩) used found := by
  constructor
  · intro returned
    cases returned with
    | value word level closed =>
      exact ⟨(_, _), ⟨rfl, _, _, rfl, Wanted.metBy_ret.mpr ⟨_, word⟩, _, _, rfl,
        Wanted.metBy_semicolon.mpr ⟨_, closed⟩, level⟩, rfl⟩
  · intro spelled
    obtain ⟨⟨located, value⟩, ⟨rfl, first, later, rfl, word, left, last, rfl, closed, level⟩, rfl⟩ := spelled
    obtain ⟨_, word⟩ := Wanted.metBy_ret.mp word
    obtain ⟨_, closed⟩ := Wanted.metBy_semicolon.mp closed
    exact .value word level closed

theorem returnStatement_reads : Reads n IsReturn ends (plain returnStatement) := by
  have closed : Reads n (closedBy (Level .assign) .semicolon) ends
      ((plain expression).closedBy .semicolon) := (expression_reads n).closedBy ends_semicolon
  have returned := (closed.after .ret (Reads.closedBy_inhabited _ (expression_inhabited .assign))).mono
    (Nat.le_succ n)
  rw [plain_returnStatement]
  refine ((returned.placed ?_).map _).congr (fun _ _ => isReturn_iff.symm) fun _ => id
  intro used found spelled
  obtain ⟨first, later, rfl, -⟩ := spelled
  exact List.cons_ne_nil _ _

theorem return_inhabited : ∃ used found, IsReturn used found :=
  let ⟨word, met⟩ := Reads.exists_mark .ret
  let ⟨_, _, spelled⟩ := Reads.closedBy_inhabited .semicolon (expression_inhabited .assign)
  ⟨_, _, isReturn_iff.mpr ⟨(_, _), ⟨rfl, word, _, rfl, met, spelled⟩, rfl⟩⟩

def Heading : Spelling (Name × Name × List Parameter) :=
  (one Wanted.typeName.metBy).join fun first => (one Wanted.identifier.metBy).join fun second =>
    (after (.parenthesis (some "(")) (closedBy Parameters (.parenthesis (some ")")))).image fun listed =>
      (first.lexeme.name, second.lexeme.name, listed)

def Body : Spelling (List Stmt × Return) :=
  after (.bracket (some "\x7b"))
    (closedBy (Spelling.join Statements fun listed => Spelling.image IsReturn (listed, ·))
      (.bracket (some "\x7d")))

theorem heading_reads : Reads n Heading ends (plain heading) := by
  have typed : Reads n (one Wanted.typeName.metBy) Always (demand .typeName) := .demand _
  have named : Reads n (one Wanted.identifier.metBy) Always (demand .identifier) := .demand _
  have closed : Reads n (closedBy Parameters (.parenthesis (some ")"))) ends
      ((plain parameters).closedBy (.parenthesis (some ")"))) := parameters_reads.closedBy fun _ => id
  have inhabited := Reads.closedBy_inhabited (.parenthesis (some ")")) ⟨[], [], Parameters.none⟩
  have listed := (closed.after (.parenthesis (some "(")) inhabited).mono (Nat.le_succ n)
  have listed_inhabited := Reads.after_inhabited (.parenthesis (some "(")) inhabited
  rw [plain_heading]
  refine typed.andThen (fun _ _ _ => named.andThen (fun _ _ _ => listed.map _)
    (fun _ _ _ => Nat.le_add_left ..) (fun _ _ _ _ _ _ _ _ => trivial) ?_)
    (fun _ _ _ => Nat.le_add_left ..) (fun _ _ _ _ _ _ _ _ => trivial) ?_
  · intro used second _
    obtain ⟨inside, given, spelled⟩ := listed_inhabited
    exact ⟨inside, _, given, spelled, rfl⟩
  · intro used first _
    obtain ⟨second, met⟩ := Reads.exists_mark .identifier
    obtain ⟨inside, given, spelled⟩ := listed_inhabited
    exact ⟨[second] ++ inside, _, [second], inside, second, rfl, ⟨rfl, met⟩, given, spelled, rfl⟩

-- The return word starts no statement, so it ends the statements before it.
theorem not_startsStatement_of_return (returned : IsReturn used found) (rest : List Token) :
    startsStatement (used ++ rest).head? = false := by
  cases returned with
  | value word => simp [startsStatement, meets, starts, word, Wanted.metBy, Lexeme.startsExpression]

theorem block_inhabited : ∃ used found,
    (Spelling.join Statements fun listed => Spelling.image IsReturn (listed, ·)) used found :=
  let ⟨used, found, returned⟩ := return_inhabited
  ⟨used, _, [], used, [], rfl, .none, found, returned, rfl⟩

theorem body_reads : Reads n Body ends (plain body) := by
  have filled : Reads n (Spelling.join Statements fun listed => Spelling.image IsReturn (listed, ·)) Always
      ((plain statements).andThen fun listed =>
        (plain returnStatement).andThen fun result => Reader.give (listed, result)) := by
    refine statements_reads.andThen (fun _ listed _ => returnStatement_reads.map (listed, ·))
      (fun _ _ _ => Nat.le_add_left ..) ?_ ?_
    · intro left listed right found rest _ spelled _
      obtain ⟨result, returned, -⟩ := spelled
      exact not_startsStatement_of_return returned rest
    · intro used listed _
      obtain ⟨right, result, returned⟩ := return_inhabited
      exact ⟨right, _, result, returned, rfl⟩
  have closed : Reads n (closedBy _ (.bracket (some "\x7d"))) ends _ := filled.closedBy fun _ _ => trivial
  rw [plain_body]
  exact (closed.after _ (Reads.closedBy_inhabited _ block_inhabited)).mono (Nat.le_succ n)

theorem heading_intro (typed : typeToken.lexeme = .typeName returnType)
    (named : nameToken.lexeme = .identifier name) (opened : IsMark opens left)
    (listed : Parameters inside given) (closed : IsMark closes right) :
    Heading (typeToken :: nameToken :: left :: (inside ++ [right])) (returnType, name, given) := by
  refine ⟨[typeToken], _, typeToken, rfl, ⟨rfl, Wanted.metBy_typeName.mpr ⟨_, typed⟩⟩, [nameToken], _,
    nameToken, rfl, ⟨rfl, Wanted.metBy_identifier.mpr ⟨_, named⟩⟩, given, ⟨left, _, rfl,
    Wanted.metBy_parenthesis.mpr opened, inside, right, rfl, Wanted.metBy_parenthesis.mpr closed, listed⟩, ?_⟩
  simp [typed, named, Lexeme.name]

theorem body_intro (started : IsMark opensBody start) (filled : Statements block stated)
    (returned : IsReturn final result) (stopped : IsMark closesBody stop) :
    Body (start :: (block ++ final ++ [stop])) (stated, result) :=
  ⟨start, _, rfl, Wanted.metBy_bracket.mpr started, block ++ final, stop, rfl,
    Wanted.metBy_bracket.mpr stopped, block, final, stated, rfl, filled, result, returned, rfl⟩

theorem isFunction_iff : IsFunction used f ↔
    (placed (Heading.join fun heading => Body.image (heading, ·))).image
      (fun (place, (returnType, name, parameters), (statements, result)) =>
        ⟨place, name, returnType, parameters, statements, result⟩) used f := by
  constructor
  · intro defined
    cases defined with
    | definition typed named opened listed closed started filled returned stopped =>
      exact ⟨(_, (_, _, _), (_, _)), ⟨rfl, _, _, _, by simp, heading_intro typed named opened listed closed, _,
        body_intro started filled returned stopped, rfl⟩, rfl⟩
  · intro spelled
    obtain ⟨_, ⟨placed, left, right, heading, rfl, headed, body, filled, made⟩, rfl⟩ := spelled
    obtain ⟨_, _, typeToken, rfl, ⟨rfl, typed⟩, _, _, nameToken, rfl, ⟨rfl, named⟩, listed, ⟨mark, _, rfl,
      opened, inside, closing, rfl, closed, parameters⟩, rfl⟩ := headed
    obtain ⟨start, _, rfl, started, _, stop, rfl, stopped, block, final, statements, rfl, stated, result,
      returned, rfl⟩ := filled
    obtain ⟨returnType, typed⟩ := Wanted.metBy_typeName.mp typed
    obtain ⟨name, named⟩ := Wanted.metBy_identifier.mp named
    have defined := IsFunction.definition typed named (Wanted.metBy_parenthesis.mp opened) parameters
      (Wanted.metBy_parenthesis.mp closed) (Wanted.metBy_bracket.mp started) stated returned
      (Wanted.metBy_bracket.mp stopped)
    simpa [placed, made, typed, named, Lexeme.name, place] using defined

theorem body_inhabited : ∃ used found, Body used found :=
  Reads.after_inhabited _ (Reads.closedBy_inhabited _ block_inhabited)

theorem function_filled (defined : IsFunction used f) : used ≠ [] := by
  cases defined
  simp

theorem function_reads : Reads n IsFunction ends (plain function) := by
  have headings : Reads n Heading Always (plain heading) := heading_reads
  have both : Reads n (Heading.join fun heading => Body.image (heading, ·)) ends
      ((plain heading).andThen fun heading => (plain body).andThen fun body => Reader.give (heading, body)) := by
    refine headings.andThen (fun _ heading _ => body_reads.map (heading, ·)) (fun _ _ _ => Nat.le_add_left ..)
      (fun _ _ _ _ _ _ _ _ => trivial) ?_
    intro used heading _
    obtain ⟨right, found, spelled⟩ := body_inhabited
    exact ⟨right, _, found, spelled, rfl⟩
  rw [plain_function]
  refine ((both.placed ?_).map _).congr (fun _ _ => isFunction_iff.symm) fun _ => id
  intro used found spelled
  obtain ⟨left, right, _, rfl, ⟨_, _, _, rfl, ⟨rfl, -⟩, -⟩, -⟩ := spelled
  simp

theorem functions_iff : Functions used found ↔ (Spelling.join IsFunction fun first =>
    (nothing [first]).either (Spelling.image Functions (first :: ·))) used found := by
  constructor
  · intro listed
    cases listed with
    | last defined => exact ⟨used, [], _, by simp, defined, .inl ⟨rfl, rfl⟩⟩
    | next defined more => exact ⟨_, _, _, rfl, defined, .inr ⟨_, more, rfl⟩⟩
  · intro spelled
    obtain ⟨left, right, first, rfl, defined, ⟨rfl, rfl⟩ | ⟨more, listed, rfl⟩⟩ := spelled
    · simpa using Functions.last defined
    · exact .next defined listed

theorem functions_filled (listed : Functions used found) : used ≠ [] := by
  obtain ⟨left, right, first, rfl, defined, -⟩ := functions_iff.mp listed
  simp [function_filled defined]

-- Functions follow each other to the end of the list, and each of them takes tokens.
theorem wholeFunctions_reads : Reads n Functions (· = none) wholeFunctions := by
  induction n with
  | zero => exact .none_shorter
  | succ n ih =>
    have one : Reads (n + 1) IsFunction Always (plain function) := function_reads
    have later (first : Function) : Reads n ((nothing [first]).either (Spelling.image Functions (first :: ·)))
        (· = none) (Reader.choose Option.isNone (Reader.give [first])
          (wholeFunctions.andThen fun more => Reader.give (first :: more))) := by
      refine (Reads.give [first]).choose (ih.map (first :: ·)) ?_ ?_
      · intro used found rest spelled ended
        obtain ⟨rfl, -⟩ := spelled
        rw [List.nil_append, ended]
        rfl
      · intro used found rest spelled _
        obtain ⟨more, listed, -⟩ := spelled
        cases used with
        | nil => exact absurd rfl (functions_filled listed)
        | cons => rfl
    rw [wholeFunctions_eq]
    refine (one.andThen (fun _ first _ => later first) ?_ (fun _ _ _ _ _ _ _ _ => trivial) ?_).congr
      (fun _ _ => functions_iff.symm) fun _ => id
    · intro used first defined
      have filled := List.length_pos_of_ne_nil (function_filled defined)
      omega
    · exact fun _ first _ => ⟨[], [first], .inl ⟨rfl, rfl⟩⟩

end WordC.Parse
