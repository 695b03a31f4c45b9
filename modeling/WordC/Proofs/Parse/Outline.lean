import WordC.Proofs.Parse.Derivation
import WordC.Proofs.Parse.Places
import WordC.Proofs.Text.Digits
import WordC.Proofs.Token.Places
import WordC.Proofs.Tree.Outline

namespace WordC.Outlining
open Grammar Branch

-- A name that is there and on one line.
def Named (name : Name) : Prop := ∃ written, name = some written ∧ '\n' ∉ written.toList

-- A lexeme whose payload can be read off where it is shown.
def Legible : Lexeme → Prop
  | .number value => ∃ n : Nat, value = some ↑n
  | .identifier name => Named name
  | .typeName name => name = some "int"
  | _ => True

def LegibleExpr (e : Expr) : Prop := ∀ part ∈ Lower.parts e, ∀ lexeme ∈ part.lead?, Legible lexeme

def LegibleStmt : Stmt → Prop
  | .declare _ typeName name => typeName = some "int" ∧ Named name
  | .expression _ value => LegibleExpr value

structure LegibleFunction (f : Function) : Prop where
  typed : f.returnType = some "int"
  named : Named f.name
  parameters : ∀ p ∈ f.parameters, p.typeName = some "int" ∧ Named p.name
  statements : ∀ s ∈ f.statements, LegibleStmt s
  result : LegibleExpr f.result.value

theorem LegibleExpr.lead (legible : LegibleExpr e) (lead : e.lead? = some lexeme) : Legible lexeme :=
  legible e (Lower.mem_parts_self e) lexeme lead

theorem LegibleExpr.inCall {given : List Expr} (legible : LegibleExpr (.call location callee given)) :
    ∀ e ∈ given, LegibleExpr e := by
  intro e member part inside
  exact legible part (.tail _ (Lower.mem_allParts.mpr ⟨e, member, inside⟩))

theorem LegibleExpr.inChain {es : List Expr} (legible : LegibleExpr (.chain location tier es)) :
    ∀ e ∈ es, LegibleExpr e := by
  intro e member part inside
  exact legible part (.tail _ (Lower.mem_allParts.mpr ⟨e, member, inside⟩))

theorem Named.oneLine (named : Named name) : '\n' ∉ name.text.toList := by
  obtain ⟨written, rfl, oneLine⟩ := named
  exact oneLine

theorem Named.text_inj (named : Named name) (named' : Named name') (same : name.text = name'.text) : name = name' := by
  obtain ⟨written, rfl, -⟩ := named
  obtain ⟨written', rfl, -⟩ := named'
  exact congrArg some same

-- A tree of contents none of which can be taken for a bar or for two lines.
def CleanBranch (b : Branch) : Prop := ∀ depth, ∀ line ∈ b.outline depth, Clean line.content

theorem cleanBranch_branch (clean : Clean content) (below_clean : ∀ b ∈ below, CleanBranch b) :
    CleanBranch (.branch content below) := by
  intro depth line member
  simp only [outline, List.mem_cons, mem_outlines] at member
  rcases member with rfl | ⟨b, inside, deeper⟩
  · exact clean
  · exact below_clean b inside _ line deeper

theorem clean_named (clean : Clean first) (named : Named name) : Clean (first ++ name.text) :=
  clean_append clean named.oneLine

theorem cleanBranch_expr (legible : LegibleExpr e) : CleanBranch e.branch := by
  induction e with
  | number location value =>
    obtain ⟨n, rfl⟩ := legible.lead rfl
    exact cleanBranch_branch (clean_append (by decide) (Text.not_mem_toString rfl (by decide) n)) nofun
  | var location name => exact cleanBranch_branch (clean_named (by decide) (legible.lead rfl)) nofun
  | call location callee given ih =>
    refine cleanBranch_branch (clean_named (by decide) (legible.lead rfl)) ?_
    rw [Expr.branches_eq_map, List.forall_mem_map]
    exact fun e member => ih e member (legible.inCall e member)
  | chain location tier operands ih =>
    refine cleanBranch_branch (by cases tier <;> decide) ?_
    rw [Expr.branches_eq_map, List.forall_mem_map]
    exact fun e member => ih e member (legible.inChain e member)

theorem cleanBranch_stmt (legible : LegibleStmt s) : CleanBranch s.branch := by
  cases s with
  | declare location typeName name =>
    obtain ⟨rfl, named⟩ := legible
    exact cleanBranch_branch (clean_named (by decide) named) nofun
  | expression location value =>
    exact cleanBranch_branch (by decide) (List.forall_mem_singleton.mpr (cleanBranch_expr legible))

theorem cleanBranch_function (legible : LegibleFunction f) : CleanBranch f.branch := by
  have typed : CleanBranch (.branch s!"return_type: {f.returnType.text}" []) := by
    rw [legible.typed]
    exact cleanBranch_branch (by decide) nofun
  have parameters : ∀ p ∈ f.parameters, CleanBranch p.branch := by
    intro p member
    obtain ⟨typed, named⟩ := legible.parameters p member
    rw [Parameter.branch, typed]
    exact cleanBranch_branch (clean_named (by decide) named) nofun
  have statements : ∀ s ∈ f.statements, CleanBranch s.branch := fun s member =>
    cleanBranch_stmt (legible.statements s member)
  have result : CleanBranch f.result.branch :=
    cleanBranch_branch (by decide) (List.forall_mem_singleton.mpr (cleanBranch_expr legible.result))
  refine cleanBranch_branch (clean_named (by decide) legible.named) ?_
  simp only [List.forall_mem_cons]
  exact ⟨typed, cleanBranch_branch (by decide) (List.forall_mem_map.mpr parameters),
    cleanBranch_branch (by decide) (List.forall_mem_map.mpr statements), result, nofun⟩

-- The sort of an expression shows in the first character of its line.
def initial : Expr → Char
  | .number _ _ => 'n'
  | .var _ _ => 'i'
  | .call _ _ _ => 'f'
  | .chain _ _ _ => 'o'

theorem head_content (e : Expr) : ∃ content below, e.branch = .branch content below ∧
    content.toList.head? = some (initial e) := by
  cases e with
  | number | var | call | chain =>
    rw [Expr.branch]
    refine ⟨_, _, rfl, ?_⟩
    simp only [String.toList_append]
    rfl

theorem initial_eq {e e' : Expr} (same : e.branch = e'.branch) : initial e = initial e' := by
  obtain ⟨content, below, made, head⟩ := head_content e
  obtain ⟨content', below', made', head'⟩ := head_content e'
  rw [same, made'] at made
  cases made
  exact Option.some.inj (head.symm.trans head')

theorem shape_of_branch (legible : LegibleExpr e) (legible' : LegibleExpr e') (same : e.branch = e'.branch) :
    shape e = shape e' := by
  have initials := initial_eq same
  induction e generalizing e' with
  | number location value =>
    cases e' with
    | number location' value' =>
      obtain ⟨m, rfl⟩ := legible.lead rfl
      obtain ⟨n, rfl⟩ := legible'.lead rfl
      simp only [Expr.branch, Branch.branch.injEq, and_true] at same
      have digits : m.repr = n.repr := (String.append_right_inj "number: ").mp same
      rw [Text.digits_injective digits]
      rfl
    | var | call | chain => simp [initial] at initials
  | var location name =>
    cases e' with
    | var location' name' =>
      simp only [Expr.branch, Branch.branch.injEq, and_true] at same
      have names := Named.text_inj (legible.lead rfl) (legible'.lead rfl) ((String.append_right_inj "identifier: ").mp same)
      rw [names]
      rfl
    | number | call | chain => simp [initial] at initials
  | call location callee given ih =>
    cases e' with
    | call location' callee' given' =>
      simp only [Expr.branch, Branch.branch.injEq, Expr.branches_eq_map] at same
      have names := Named.text_inj (legible.lead rfl) (legible'.lead rfl)
        ((String.append_right_inj "function_call: ").mp same.1)
      have shapes : given.map shape = given'.map shape := map_eq_map_of (fun e member e' member' same =>
        ih e member (legible.inCall e member) (legible'.inCall e' member') same (initial_eq same)) same.2
      rw [shape_call, shape_call, names, shapes]
    | number | var | chain => simp [initial] at initials
  | chain location tier operands ih =>
    cases e' with
    | chain location' tier' operands' =>
      simp only [Expr.branch, Branch.branch.injEq, Expr.branches_eq_map] at same
      have tiers : tier = tier' := by
        have symbols := (String.append_right_inj "operator: ").mp same.1
        revert symbols
        cases tier <;> cases tier' <;> decide
      have shapes : operands.map shape = operands'.map shape := map_eq_map_of (fun e member e' member' same =>
        ih e member (legible.inChain e member) (legible'.inChain e' member') same (initial_eq same)) same.2
      rw [shape_chain, shape_chain, tiers, shapes]
    | number | var | call => simp [initial] at initials

theorem unplaced_of_parameter {p q : Parameter} (legible : p.typeName = some "int" ∧ Named p.name)
    (legible' : q.typeName = some "int" ∧ Named q.name) (same : p.branch = q.branch) :
    p.node.unplaced = q.node.unplaced := by
  obtain ⟨typed, named⟩ := legible
  obtain ⟨typed', named'⟩ := legible'
  simp only [Parameter.branch, typed, typed', Branch.branch.injEq, and_true] at same
  have names := named.text_inj named' ((String.append_right_inj _).mp same)
  simp only [Parameter.node, Node.unplaced, typed, typed', names]

theorem unplaced_of_stmt (legible : LegibleStmt s) (legible' : LegibleStmt s') (same : s.branch = s'.branch) :
    s.node.unplaced = s'.node.unplaced := by
  cases s with
  | declare location typeName name =>
    cases s' with
    | declare location' typeName' name' =>
      obtain ⟨rfl, named⟩ := legible
      obtain ⟨rfl, named'⟩ := legible'
      simp only [Stmt.branch, Branch.branch.injEq, and_true] at same
      rw [named.text_inj named' ((String.append_right_inj _).mp same)]
      rfl
    | expression location' value => simp [Stmt.branch] at same
  | expression location value =>
    cases s' with
    | declare location' typeName name => simp [Stmt.branch] at same
    | expression location' value' =>
      simp only [Stmt.branch, Branch.branch.injEq, true_and, List.cons.injEq, and_true] at same
      exact congrArg (Node.expression none) (shape_of_branch legible legible' same)

theorem unplaced_of_function (legible : LegibleFunction f) (legible' : LegibleFunction g)
    (same : f.branch = g.branch) : f.node.unplaced = g.node.unplaced := by
  simp only [Function.branch, Return.branch, legible.typed, legible'.typed, Branch.branch.injEq, List.cons.injEq, true_and,
    and_true] at same
  obtain ⟨names, parameters, statements, results⟩ := same
  have names := legible.named.text_inj legible'.named ((String.append_right_inj "function: ").mp names)
  have parameters : f.parameters.map (Node.unplaced ∘ Parameter.node) = g.parameters.map (Node.unplaced ∘ Parameter.node) :=
    map_eq_map_of (fun p member q member' =>
      unplaced_of_parameter (legible.parameters p member) (legible'.parameters q member')) parameters
  have statements : f.statements.map (Node.unplaced ∘ Stmt.node) = g.statements.map (Node.unplaced ∘ Stmt.node) :=
    map_eq_map_of (fun s member s' member' =>
      unplaced_of_stmt (legible.statements s member) (legible'.statements s' member')) statements
  have results : f.result.node.unplaced = g.result.node.unplaced :=
    congrArg (Node.ret none) (shape_of_branch legible.result legible'.result results)
  simp only [Function.node, Node.unplaced, Node.allUnplaced_eq_map, List.map_map, legible.typed, legible'.typed, names,
    parameters, statements, results]

section

variable {tokens : List Token}

theorem legible_of_spells (spells : Scan.Spells spelling lexeme) : Legible lexeme := by
  cases spells with
  | number => exact ⟨_, rfl⟩
  | mark found =>
    have member := Scan.mark?_eq_some_iff.mp found
    fin_cases member <;> trivial
  | @word c more letter words =>
    have oneLine : '\n' ∉ c :: more := by
      intro member
      have word : Scan.isWordChar '\n' := by
        rcases List.mem_cons.mp member with rfl | later
        · exact Scan.word_of_letter letter
        · exact words _ later
      cases word
    unfold Scan.word
    split
    · rename_i typed
      exact congrArg some typed
    · split
      · trivial
      · exact ⟨_, rfl, by rwa [String.toList_ofList]⟩

theorem legible_of_scanned (scanned : tokenize file text = .ok tokens) : ∀ token ∈ tokens, Legible token.lexeme := by
  intro token member
  obtain ⟨before, ahead, -, -, spelling, after, -, spells, -⟩ := (Scan.tokenize_placed scanned).marks token member
  exact legible_of_spells spells

theorem legible_of_level (level : Level tier tokens e) (legible : ∀ token ∈ tokens, Legible token.lexeme) :
    LegibleExpr e := by
  intro part inside lexeme lead
  obtain ⟨token, member, -, led⟩ := level_rooted level part inside
  rw [led] at lead
  cases lead
  exact legible token member

theorem legible_of_parameter (parameter : IsParameter tokens p) (legible : ∀ token ∈ tokens, Legible token.lexeme) :
    p.typeName = some "int" ∧ Named p.name := by
  cases parameter with
  | @typed first second name typeName typed named =>
    have type := legible first (by simp)
    have called := legible second (by simp)
    rw [typed] at type
    rw [named] at called
    exact ⟨type, called⟩

theorem legible_of_parameters (listed : Parameters tokens ps) (legible : ∀ token ∈ tokens, Legible token.lexeme) :
    ∀ p ∈ ps, p.typeName = some "int" ∧ Named p.name := by
  cases listed with
  | none => simp
  | some listed =>
    induction listed with
    | last parameter => exact List.forall_mem_singleton.mpr (legible_of_parameter parameter legible)
    | next parameter comma more ih =>
      simp only [List.forall_mem_append, List.forall_mem_cons] at legible
      exact List.forall_mem_cons.mpr ⟨legible_of_parameter parameter legible.1, ih legible.2.2⟩

theorem legible_of_statements (listed : Statements tokens ss) (legible : ∀ token ∈ tokens, Legible token.lexeme) :
    ∀ s ∈ ss, LegibleStmt s := by
  induction listed with
  | none => simp
  | next statement more ih =>
    rw [List.forall_mem_append] at legible
    refine List.forall_mem_cons.mpr ⟨?_, ih legible.2⟩
    cases statement with
    | @declaration first second third typeName name payload typed named closed =>
      have type := legible.1 first (by simp)
      have called := legible.1 second (by simp)
      rw [typed] at type
      rw [named] at called
      exact ⟨type, called⟩
    | expression level closed => exact legible_of_level level (List.forall_mem_append.mp legible.1).1

theorem legible_of_function (defined : IsFunction tokens f) (legible : ∀ token ∈ tokens, Legible token.lexeme) :
    LegibleFunction f := by
  cases defined with
  | definition typed named opened listed closed started filled returned stopped =>
    simp only [List.cons_append, List.forall_mem_append, List.forall_mem_cons] at legible
    obtain ⟨type, called, -, ⟨⟨inside, -, -, body⟩, final⟩, -⟩ := legible
    rw [typed] at type
    rw [named] at called
    refine ⟨type, called, legible_of_parameters listed inside, legible_of_statements filled body, ?_⟩
    cases returned with
    | value word level closed =>
      simp only [List.cons_append, List.forall_mem_append, List.forall_mem_cons] at final
      exact legible_of_level level final.2.1

theorem legible_of_program (spelled : IsProgram tokens p) (legible : ∀ token ∈ tokens, Legible token.lexeme) :
    ∀ f ∈ p.functions, LegibleFunction f := by
  cases spelled with
  | functions listed =>
    induction listed with
    | last defined => exact List.forall_mem_singleton.mpr (legible_of_function defined legible)
    | next defined more ih =>
      rw [List.forall_mem_append] at legible
      exact List.forall_mem_cons.mpr ⟨legible_of_function defined legible.1, ih legible.2⟩

end

theorem outlineText_eq (p : Program) : p.outlineText = Outline.text (p.branch.outline 0) := by
  rw [Program.outlineText, p.outline_eq]
  rfl

theorem same_of_outlineText {p q : Program} (legible : ∀ f ∈ p.functions, LegibleFunction f)
    (legible' : ∀ f ∈ q.functions, LegibleFunction f) (shown : p.outlineText = q.outlineText) : p.same q := by
  have clean (p : Program) (legible : ∀ f ∈ p.functions, LegibleFunction f) : CleanBranch p.branch :=
    cleanBranch_branch (by decide) (List.forall_mem_map.mpr fun f member => cleanBranch_function (legible f member))
  rw [outlineText_eq, outlineText_eq] at shown
  have lines := Outline.text_inj (by simp [Program.branch, outline]) (by simp [Program.branch, outline])
    (clean p legible 0) (clean q legible' 0) shown
  have whole : p.branch.outline 0 ++ [] = q.branch.outline 0 ++ [] := by rw [lines]
  obtain ⟨branches, -⟩ := outline_inj p.branch q.branch whole (returns_nil 0) (returns_nil 0)
  simp only [Program.branch, Branch.branch.injEq, true_and] at branches
  have functions : p.functions.map (Node.unplaced ∘ Function.node) = q.functions.map (Node.unplaced ∘ Function.node) :=
    map_eq_map_of (fun f member g member' => unplaced_of_function (legible f member) (legible' g member')) branches
  rw [Program.same_iff]
  simp only [Program.node, Node.unplaced, Node.allUnplaced_eq_map, List.map_map, functions]

theorem outlineText_of_same {p q : Program} (same : p.same q) : p.outlineText = q.outlineText := by
  have outlines : p.outline = q.outline := by
    rw [Program.outline, ← Node.outline_unplaced, Program.same_iff.mp same, Node.outline_unplaced]
    rfl
  rw [Program.outlineText, outlines]
  rfl

-- Programs that were read from texts are the same exactly when their outlines are.
theorem outlines_tell_programs_apart {file file' text text' : String} {lines lines' : List String}
    {tokens tokens' : List Token} {p q : Program}
    (scanned : tokenize file text = .ok tokens) (read : parseTokens lines tokens = .ok p)
    (scanned' : tokenize file' text' = .ok tokens') (read' : parseTokens lines' tokens' = .ok q) :
    p.outlineText = q.outlineText ↔ p.same q := by
  have legible := legible_of_program (Parse.parseTokens_eq_ok_iff.mp read) (legible_of_scanned scanned)
  have legible' := legible_of_program (Parse.parseTokens_eq_ok_iff.mp read') (legible_of_scanned scanned')
  exact ⟨same_of_outlineText legible legible', outlineText_of_same⟩

def twoArguments : String := "int f(int a,int b)\x7breturn f(f(1),2);\x7d"

def oneArgument : String := "int f(int a,int b)\x7breturn f(f(1,2));\x7d"

-- The contents of the lines are the same here, and only the bars tell the trees apart.
theorem calls_told_apart_by_bars :
    ∃ tokens tokens' p q, tokenize "" twoArguments = .ok tokens ∧ parseTokens (Text.lines twoArguments) tokens = .ok p ∧
      tokenize "" oneArgument = .ok tokens' ∧ parseTokens (Text.lines oneArgument) tokens' = .ok q ∧
      p.outlineText ≠ q.outlineText := by
  obtain ⟨p, read⟩ : ∃ p, parseText "" twoArguments = .ok p := isOk_iff.mp (by decide +kernel)
  obtain ⟨q, read'⟩ : ∃ q, parseText "" oneArgument = .ok q := isOk_iff.mp (by decide +kernel)
  have apart : (parseText "" twoArguments).toOption.any (fun p =>
      (parseText "" oneArgument).toOption.any fun q => !p.same q) = true := by decide +kernel
  simp only [read, read', Except.toOption, Option.any_some, Bool.not_eq_true'] at apart
  obtain ⟨tokens, scanned, parsed⟩ := bind_eq_ok.mp read
  obtain ⟨tokens', scanned', parsed'⟩ := bind_eq_ok.mp read'
  refine ⟨tokens, tokens', p, q, scanned, parsed, scanned', parsed', fun shown => ?_⟩
  have same := (outlines_tell_programs_apart scanned parsed scanned' parsed').mp shown
  rw [apart] at same
  cases same

end WordC.Outlining
