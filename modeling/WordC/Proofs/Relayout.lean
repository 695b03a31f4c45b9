import WordC.Proofs.Failures
import WordC.Proofs.Lower.Unplaced
import WordC.Proofs.Parse.Alike

namespace WordC

-- The problem without the places in it.
def Problem.unplaced : Problem → Problem
  | .unmetExpectation wanted found => .unmetExpectation wanted (found.map Token.unplaced)
  | .unexpectedToken found wanted advice => .unexpectedToken found.unplaced wanted advice
  | .escalated cause _ => .escalated cause.unplaced none
  | .redefinition name _ => .redefinition name none
  | problem => problem

theorem Problem.message_unplaced (problem : Problem) : problem.unplaced.message = problem.message := by
  induction problem with
  | escalated cause causeLine ih => exact ih
  | unmetExpectation wanted found => cases found <;> rfl
  | _ => rfl

-- Diagnostics that say the same, each at its own place.
structure Diagnostic.SaysSame (d d' : Diagnostic) : Prop where
  problem : d'.problem.unplaced = d.problem.unplaced
  message : d'.message = d.message
  led : d'.led = d.led

theorem saysSame_of_problem {d d' : Diagnostic} (problem : d'.problem.unplaced = d.problem.unplaced)
    (led : d'.led = d.led) : d.SaysSame d' := by
  refine ⟨problem, ?_, led⟩
  unfold Diagnostic.message
  rw [← Problem.message_unplaced, problem, Problem.message_unplaced]

theorem diagnose_unplaced (refusal : Parse.Refusal) (tokens : List Token) (lines : List String) :
    (refusal.diagnose tokens lines).problem.unplaced = (refusal.unplaced.diagnose [] []).problem.unplaced ∧
      (refusal.diagnose tokens lines).led = (refusal.unplaced.diagnose [] []).led := by
  cases refusal with
  | unmet wanted found => cases found <;> exact ⟨rfl, rfl⟩
  | noExpression found => cases found <;> exact ⟨rfl, rfl⟩
  | pointer found => exact ⟨rfl, rfl⟩

theorem refusal_saysSame {refusal refusal' : Parse.Refusal} (same : refusal'.unplaced = refusal.unplaced)
    (tokens tokens' : List Token) (lines lines' : List String) :
    (refusal.diagnose tokens lines).SaysSame (refusal'.diagnose tokens' lines') := by
  obtain ⟨problem, led⟩ := diagnose_unplaced refusal tokens lines
  obtain ⟨problem', led'⟩ := diagnose_unplaced refusal' tokens' lines'
  rw [← same] at problem led
  exact saysSame_of_problem (problem'.trans problem.symm) (led'.trans led.symm)

theorem rejection_saysSame {rejection rejection' : Lower.Rejection}
    (same : rejection'.unplaced = rejection.unplaced) (raised : rejection.diagnose lines = .diagnostic d)
    (lines' : List String) : ∃ d', rejection'.diagnose lines' = .diagnostic d' ∧ d.SaysSame d' := by
  cases rejection with
  | defective => cases raised
  | _ =>
    cases raised
    cases rejection' <;> cases same
    exact ⟨_, rfl, saysSame_of_problem rfl rfl⟩

-- Two runs that end alike: with related results, or with diagnostics that say the same.
inductive SameOutcome (related : α → α → Prop) : Except Failure α → Except Failure α → Prop where
  | result : related one other → SameOutcome related (.ok one) (.ok other)
  | diagnostic : d.SaysSame d' → SameOutcome related (.error (.diagnostic d)) (.error (.diagnostic d'))

theorem SameOutcome.bind {related : α → α → Prop} {related' : β → β → Prop} {first first' : Except Failure α}
    {next next' : α → Except Failure β} (outcome : SameOutcome related first first')
    (later : ∀ one other, first = .ok one → related one other → SameOutcome related' (next one) (next' other)) :
    SameOutcome related' (first >>= next) (first' >>= next') := by
  cases outcome with
  | result here => exact later _ _ rfl here
  | diagnostic same => exact .diagnostic same

theorem parseTokens_sameOutcome (alike : Grammar.Alike tokens tokens') (lines lines' : List String) :
    SameOutcome (fun p p' => p'.same p) (parseTokens lines tokens) (parseTokens lines' tokens') := by
  cases run : parseTokens lines tokens with
  | ok p =>
    have spelled := Parse.parseTokens_eq_ok_iff.mp run
    obtain ⟨p', spelled', same⟩ := Grammar.program_moves spelled alike
    rw [Parse.parseTokens_eq_ok_iff.mpr spelled']
    exact .result same
  | error failure =>
    obtain ⟨refusal, refused, rfl⟩ := mapError_eq_error.mp run
    obtain ⟨refusal', refused', same⟩ := Parse.program_refused_alike alike refused
    unfold parseTokens
    rw [refused']
    exact .diagnostic (refusal_saysSame same tokens tokens' lines lines')

theorem lowerProgram_sameOutcome {p p' : Program} (formed : Lower.Formed p) (same : p'.same p)
    (moduleName : String) (lines lines' : List String) :
    SameOutcome Eq (lowerProgram moduleName lines p) (lowerProgram moduleName lines' p') := by
  have erased : (Lower.program moduleName p'.node).mapError Lower.Rejection.unplaced =
      (Lower.program moduleName p.node).mapError Lower.Rejection.unplaced := by
    rw [← Lower.program_unplaced, ← Lower.program_unplaced, Program.same_iff.mp same]
  have keeps := lowerProgram_keepsTo formed moduleName lines
  unfold lowerProgram lowerTree at keeps ⊢
  cases run : Lower.program moduleName p.node with
  | ok m =>
    rw [run] at erased
    rw [mapError_eq_ok.mp erased]
    exact .result rfl
  | error rejection =>
    rw [run] at erased keeps
    obtain ⟨rejection', run', unplaced⟩ := mapError_eq_error.mp erased
    rcases keeps with ⟨m, done⟩ | ⟨d, failed, -⟩
    · cases done
    · obtain ⟨d', failed', same'⟩ := rejection_saysSame unplaced (Except.error.inj failed) lines'
      rw [run']
      simp only [Except.mapError, Except.error.inj failed, failed']
      exact .diagnostic same'

-- Where the tokens of a text stand does not matter. Texts with the same lexemes are compiled to the same module, or
-- fail for the same reason.
theorem relayout_sameOutcome (backend : Backend) (options : Options) {file file' text text' : String}
    {tokens tokens' : List Token} (scanned : tokenize file text = .ok tokens)
    (scanned' : tokenize file' text' = .ok tokens') (alike : tokens'.map Token.lexeme = tokens.map Token.lexeme) :
    SameOutcome (fun made made' => made'.program.same made.program ∧ made'.module.text = made.module.text)
      (compile backend options file text).result (compile backend options file' text').result := by
  rw [compile_result, compile_result, scanned, scanned', ok_bind, ok_bind]
  apply (parseTokens_sameOutcome alike _ _).bind
  intro p p' parsed same
  have formed := Pointing.formed_of_scanned scanned (Parse.parseTokens_eq_ok_iff.mp parsed)
  apply (lowerProgram_sameOutcome formed same _ _ _).bind
  rintro m _ - rfl
  have verified :
      SameOutcome Eq (verification backend options.normalize m) (verification backend options.normalize m) := by
    rcases verification_keepsTo backend options.normalize m with ⟨_, done⟩ | ⟨d, failed, -⟩
    · rw [done]
      exact .result rfl
    · rw [failed]
      exact .diagnostic ⟨rfl, rfl, rfl⟩
  apply verified.bind
  intro _ _ _ _
  exact .result ⟨same, rfl⟩

-- The text of `sumAsTarget` on other lines and in other columns, with zeros before its literals.
def sumAsTargetRelaid : String := "int f ( int a ) \x7b return a+01\n\n=f(0002) ; \x7d"

theorem sumAsTarget_sameOutcome :
    ∃ tokens tokens', tokenize "p.c" Pointing.sumAsTarget = .ok tokens ∧
      tokenize "q.c" sumAsTargetRelaid = .ok tokens' ∧ tokens'.map Token.lexeme = tokens.map Token.lexeme ∧
      ∃ d d', (compile .builtIn {} "p.c" Pointing.sumAsTarget).result = .error (.diagnostic d) ∧
        (compile .builtIn {} "q.c" sumAsTargetRelaid).result = .error (.diagnostic d') ∧ d.SaysSame d' := by
  have lexemes : (tokenize "q.c" sumAsTargetRelaid).map (·.map Token.lexeme) =
      (tokenize "p.c" Pointing.sumAsTarget).map (·.map Token.lexeme) := by decide +kernel
  obtain ⟨tokens, scanned⟩ : ∃ tokens, tokenize "p.c" Pointing.sumAsTarget = .ok tokens :=
    isOk_iff.mp (by decide +kernel)
  rw [scanned] at lexemes
  obtain ⟨tokens', scanned', alike⟩ := map_eq_ok.mp lexemes
  refine ⟨tokens, tokens', scanned, scanned', alike, ?_⟩
  have failed : (compile .builtIn {} "p.c" Pointing.sumAsTarget).result.isOk = false := by decide +kernel
  have outcome := relayout_sameOutcome .builtIn {} scanned scanned' alike
  generalize (compile .builtIn {} "p.c" Pointing.sumAsTarget).result = one,
    (compile .builtIn {} "q.c" sumAsTargetRelaid).result = other at failed outcome ⊢
  cases outcome with
  | result => cases failed
  | diagnostic same => exact ⟨_, _, rfl, rfl, same⟩

end WordC
