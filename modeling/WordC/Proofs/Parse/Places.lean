import WordC.Proofs.Lower.Breach
import WordC.Tree.Grammar

namespace WordC

-- The lexeme with which an expression begins.
def Expr.lead? : Expr → Option Lexeme
  | .number _ value => some (.number value)
  | .var _ name => some (.identifier name)
  | .call _ function _ => some (.identifier function)
  | .chain _ _ [] => none
  | .chain _ _ (first :: _) => first.lead?

namespace Grammar
open Lower

-- An expression that begins with a token, and stands where that token stands.
def HeadedBy (token : Token) (e : Expr) : Prop :=
  e.node.location = some token.location ∧ e.lead? = some token.lexeme

-- An expression all of whose parts stand at tokens of a list.
def Rooted (tokens : List Token) (e : Expr) : Prop := ∀ part ∈ parts e, ∃ token ∈ tokens, HeadedBy token part

theorem Rooted.mono (rooted : Rooted tokens e) (within : tokens ⊆ tokens') : Rooted tokens' e := by
  intro part inside
  obtain ⟨token, member, headed⟩ := rooted part inside
  exact ⟨token, within member, headed⟩

theorem primary_headed (primary : Primary used e) : ∃ token rest, used = token :: rest ∧ HeadedBy token e := by
  cases primary with
  | number spelled => exact ⟨_, _, rfl, rfl, by simp [Expr.lead?, spelled]⟩
  | var spelled => exact ⟨_, _, rfl, rfl, by simp [Expr.lead?, spelled]⟩
  | call spelled => exact ⟨_, _, rfl, rfl, by simp [Expr.lead?, spelled]⟩

mutual

-- An expression begins with the first of its tokens.
theorem level_headed (level : Level tier used e) : ∃ token rest, used = token :: rest ∧ HeadedBy token e := by
  match level with
  | .single operand => exact operand_headed operand
  | .several operands =>
    obtain ⟨first, others, token, rest, listed, rfl, headed⟩ := operands_headed operands
    obtain ⟨rfl, -⟩ := List.cons.inj listed
    refine ⟨token, rest, rfl, rfl, ?_⟩
    rw [Expr.lead?]
    exact headed.2

theorem operands_headed (operands : Operands tier used es) :
    ∃ first others token rest, es = first :: others ∧ used = token :: rest ∧ HeadedBy token first := by
  match operands with
  | .last operand =>
    obtain ⟨token, rest, same, headed⟩ := operand_headed operand
    exact ⟨_, _, token, rest, rfl, same, headed⟩
  | .next operand _ _ =>
    obtain ⟨token, rest, rfl, headed⟩ := operand_headed operand
    exact ⟨_, _, token, _, rfl, rfl, headed⟩

theorem operand_headed (operand : Operand tier used e) : ∃ token rest, used = token :: rest ∧ HeadedBy token e := by
  match operand with
  | .ofSum level => exact level_headed level
  | .ofProduct level => exact level_headed level
  | .ofPrimary primary => exact primary_headed primary

end

mutual

theorem level_rooted (level : Level tier used e) : Rooted used e := by
  match level with
  | .single operand => exact operand_rooted operand
  | .several operands =>
    have each := operands_rooted operands
    obtain ⟨token, rest, same, headed⟩ := level_headed (.several operands)
    intro part inside
    rcases List.mem_cons.mp inside with rfl | deeper
    · exact ⟨token, same ▸ List.mem_cons_self, headed⟩
    · obtain ⟨e, member, deeper⟩ := mem_allParts.mp deeper
      exact each e member part deeper

theorem operands_rooted (operands : Operands tier used es) : ∀ e ∈ es, Rooted used e := by
  match operands with
  | .last operand =>
    have only := operand_rooted operand
    intro e member
    rw [List.mem_singleton.mp member]
    exact only
  | .next operand _ rest =>
    have first := operand_rooted operand
    have others := operands_rooted rest
    intro e member
    rcases List.mem_cons.mp member with rfl | later
    · exact first.mono (List.subset_append_left ..)
    · exact (others e later).mono (List.subset_append_of_subset_right _ (List.subset_cons_self ..))

theorem operand_rooted (operand : Operand tier used e) : Rooted used e := by
  match operand with
  | .ofSum level => exact level_rooted level
  | .ofProduct level => exact level_rooted level
  | .ofPrimary primary => exact primary_rooted primary

theorem primary_rooted (primary : Primary used e) : Rooted used e := by
  obtain ⟨token, rest, same, headed⟩ := primary_headed primary
  have here : ∃ token ∈ used, HeadedBy token e := ⟨token, same ▸ List.mem_cons_self, headed⟩
  match primary with
  | .number _ | .var _ =>
    intro part inside
    rw [List.mem_singleton.mp inside]
    exact here
  | .call _ _ arguments _ =>
    have each := arguments_rooted arguments
    intro part inside
    rcases List.mem_cons.mp inside with rfl | deeper
    · exact here
    · obtain ⟨e, member, deeper⟩ := mem_allParts.mp deeper
      obtain ⟨token, listed, headed⟩ := each e member part deeper
      exact ⟨token, by simp [listed], headed⟩

theorem arguments_rooted (arguments : Arguments used es) : ∀ e ∈ es, Rooted used e := by
  match arguments with
  | .none => simp
  | .some listed => exact argumentList_rooted listed

theorem argumentList_rooted (listed : ArgumentList used es) : ∀ e ∈ es, Rooted used e := by
  match listed with
  | .last level =>
    have only := level_rooted level
    intro e member
    rw [List.mem_singleton.mp member]
    exact only
  | .next level _ rest =>
    have first := level_rooted level
    have others := argumentList_rooted rest
    intro e member
    rcases List.mem_cons.mp member with rfl | later
    · exact first.mono (List.subset_append_left ..)
    · exact (others e later).mono (List.subset_append_of_subset_right _ (List.subset_cons_self ..))

end

theorem statements_rooted (listed : Statements used ss) :
    ∀ location e, .expression location e ∈ ss → Rooted used e := by
  induction listed with
  | none => simp
  | next statement _ ih =>
    intro location e member
    rcases List.mem_cons.mp member with rfl | later
    · cases statement with
      | expression level _ => exact (level_rooted level).mono (by simp)
    · exact (ih location e later).mono (List.subset_append_right ..)

theorem mem_evaluationsFrom (member : evaluated ∈ evaluationsFrom scope last ss) :
    evaluated.2 = last ∨ ∃ location, .expression location evaluated.2 ∈ ss := by
  induction ss generalizing scope with
  | nil =>
    rw [List.mem_singleton.mp member]
    exact .inl rfl
  | cons s rest ih =>
    cases s with
    | declare location typeName name =>
      exact (ih member).imp_right fun ⟨place, later⟩ => ⟨place, List.mem_cons_of_mem _ later⟩
    | expression location value =>
      rcases List.mem_cons.mp member with rfl | later
      · exact .inr ⟨location, List.mem_cons_self⟩
      · exact (ih later).imp_right fun ⟨place, later⟩ => ⟨place, List.mem_cons_of_mem _ later⟩

-- A function whose name and whose expressions come from a list of tokens.
structure FunctionRooted (tokens : List Token) (f : Function) : Prop where
  named : ∃ token ∈ tokens, token.lexeme = .identifier f.name
  evaluated : ∀ evaluated ∈ evaluations f, Rooted tokens evaluated.2

theorem FunctionRooted.mono (rooted : FunctionRooted tokens f) (within : tokens ⊆ tokens') :
    FunctionRooted tokens' f := by
  obtain ⟨token, member, named⟩ := rooted.named
  exact ⟨⟨token, within member, named⟩, fun evaluated listed => (rooted.evaluated evaluated listed).mono within⟩

theorem function_rooted (defined : IsFunction used f) : FunctionRooted used f := by
  cases defined with
  | definition typed named opened listed closed started filled returned stopped =>
    refine ⟨⟨_, by simp, named⟩, fun evaluated member => ?_⟩
    rcases mem_evaluationsFrom member with same | ⟨location, stated⟩
    · cases returned with
      | value _ level _ =>
        rw [same]
        exact (level_rooted level).mono (by intro token inside; simp [inside])
    · exact (statements_rooted filled location evaluated.2 stated).mono (by intro token inside; simp [inside])

theorem program_rooted (spelled : IsProgram tokens p) : ∀ f ∈ p.functions, FunctionRooted tokens f := by
  cases spelled with
  | functions listed =>
    induction listed with
    | last defined =>
      intro f member
      rw [List.mem_singleton.mp member]
      exact function_rooted defined
    | next defined _ ih =>
      intro f member
      rcases List.mem_cons.mp member with rfl | later
      · exact (function_rooted defined).mono (List.subset_append_left ..)
      · exact (ih f later).mono (List.subset_append_right ..)

theorem HeadedBy.filled (headed : HeadedBy token e) (valued : token.lexeme ≠ .number none) : Filled e := by
  obtain ⟨-, lead⟩ := headed
  cases e with
  | number location value =>
    intro empty
    rw [Expr.lead?, empty] at lead
    exact valued (Option.some.inj lead).symm
  | var | call => trivial
  | chain location tier operands =>
    cases tier with
    | sum | product => trivial
    | assign =>
      cases operands with
      | nil => simp [Expr.lead?] at lead
      | cons => rfl

-- Tokens with values and names spell formed programs only.
theorem formed_of_spelled (spelled : IsProgram tokens p) (valued : ∀ token ∈ tokens, token.lexeme ≠ .number none)
    (named : ∀ token ∈ tokens, token.lexeme ≠ .identifier (some "")) : Formed p := by
  have rooted := program_rooted spelled
  refine ⟨fun f member unnamed => ?_, fun f member evaluated listed part inside => ?_⟩
  · obtain ⟨token, there, name⟩ := (rooted f member).named
    exact named token there (unnamed ▸ name)
  · obtain ⟨token, there, headed⟩ := (rooted f member).evaluated evaluated listed part inside
    exact headed.filled (valued token there)

end Grammar

end WordC
