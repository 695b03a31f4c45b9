import WordC.Proofs.Parse.Derivation

namespace WordC.Parse
open Grammar

theorem viable_of_append (viable : Viable (left ++ right)) : Viable left := by
  obtain ⟨rest, p, spelled⟩ := viable
  rw [List.append_assoc] at spelled
  exact ⟨right ++ rest, p, spelled⟩

-- A problem with the end of the list, or with a token that stands where something else was expected.
inductive Reports : Problem → String → Option Token → Prop where
  | ended : Reports (.unexpectedEnd (some expected)) expected none
  | unexpected : Reports (.unexpectedToken found (some expected) advice) expected (some found)
  | unmet : Reports (.escalated (.unmetExpectation expected (some found)) none) expected (some found)

theorem diagnose_reports (tokens : List Token) (lines : List String) (refusal : Refusal) :
    Reports (refusal.diagnose tokens lines).problem refusal.expected refusal.found := by
  cases refusal with
  | unmet wanted found =>
    cases found with
    | none => exact .ended
    | some token => exact .unmet
  | noExpression found =>
    cases found with
    | none => exact .ended
    | some token => exact .unexpected
  | pointer token => exact .unexpected

-- What is said of a token does not depend on the rest of the list.
theorem diagnose_some {refusal : Refusal} (tokens tokens' : List Token) (lines : List String)
    (about : refusal.found = some found) :
    refusal.diagnose tokens lines = refusal.diagnose tokens' lines := by
  cases refusal with
  | unmet wanted found => cases about; rfl
  | noExpression found => cases about; rfl
  | pointer token => rfl

theorem program_eq_error_iff : program tokens = .error refusal ↔ wholeFunctions tokens = .error refusal := by
  simp only [program, wholeFunctions, map_eq_error]
  cases functions tokens <;> simp

-- Reading stops between tokens that start programs with whatever fits the refusal, and a next token that alone
-- decides on the refusal.
theorem program_stopped (run : program tokens = .error refusal) :
    ∃ before ahead, tokens = before ++ ahead ∧ Stopped Functions refusal before ahead ∧
      ∀ ahead', ahead'.head? = ahead.head? → program (before ++ ahead') = .error refusal := by
  have reads : Reads (tokens.length + 1) Functions (· = none) wholeFunctions := wholeFunctions_reads
  obtain ⟨before, ahead, split, stopped, settled⟩ :=
    reads.refused (Nat.lt_succ_self _) (program_eq_error_iff.mp run)
  exact ⟨before, ahead, split, stopped, fun ahead' same => program_eq_error_iff.mpr (settled ahead' same)⟩

theorem Stopped.viable_fitting (stopped : Stopped Functions refusal before ahead) (token : Token)
    (fits : Fits refusal.expected token.lexeme) : Viable (before ++ [token]) := by
  obtain ⟨more, found, listed⟩ := stopped.fitting token fits
  have spelled := IsProgram.functions listed
  rw [← List.singleton_append, ← List.append_assoc] at spelled
  exact ⟨more, _, spelled⟩

theorem Stopped.viable (stopped : Stopped Functions refusal before ahead) : Viable before := by
  obtain ⟨lexeme, fits⟩ := stopped.possible
  exact viable_of_append (stopped.viable_fitting ⟨lexeme, ⟨"", 1, 1⟩⟩ fits)

-- A token that is refused whatever comes after it is in no program at this place.
theorem not_viable_of_refused
    (refused : ∀ after, ∃ refusal, program (before ++ found :: after) = .error refusal) :
    ¬Viable (before ++ [found]) := by
  intro viable
  obtain ⟨after, p, spelled⟩ := viable
  obtain ⟨refusal, run⟩ := refused after
  rw [List.append_assoc, ← program_eq_ok_iff] at spelled
  rw [List.singleton_append, run] at spelled
  cases spelled

theorem Reports.ended_iff (reports : Reports problem expected next) :
    (∃ wanted, problem = .unexpectedEnd wanted) ↔ next = none := by
  cases reports <;> simp

-- A failure that stands at the first token with which the tokens up to it start no program, or at the end of the
-- list if they all start one. Later tokens do not change it, and whatever fits what was expected could have stood
-- there.
structure FirstUnviable (lines : List String) (tokens : List Token) (diagnostic : Diagnostic)
    (before ahead : List Token) (expected : String) : Prop where
  split : tokens = before ++ ahead
  reports : Reports diagnostic.problem expected ahead.head?
  ended_iff : (∃ wanted, diagnostic.problem = .unexpectedEnd wanted) ↔ Viable tokens
  viable : Viable before
  unviable : ∀ found after, ahead = found :: after → ¬Viable (before ++ [found])
  settled : ∀ found after, ahead = found :: after →
    ∀ after', parseTokens lines (before ++ found :: after') = .error (.diagnostic diagnostic)
  possible : ∃ lexeme, Fits expected lexeme
  fitting : ∀ token : Token, Fits expected token.lexeme → Viable (before ++ [token])

theorem Stopped.viable_iff (stopped : Stopped Functions refusal before ahead)
    (unviable : ∀ found after, ahead = found :: after → ¬Viable (before ++ [found])) :
    Viable (before ++ ahead) ↔ ahead.head? = none := by
  cases ahead with
  | nil => simpa using stopped.viable
  | cons found after =>
    have unviable := unviable found after rfl
    rw [← List.singleton_append, ← List.append_assoc]
    simp only [List.singleton_append, List.head?_cons, reduceCtorEq, iff_false]
    exact fun viable => unviable (viable_of_append viable)

theorem refused_at_first_unviable {lines : List String} {tokens : List Token} {failure : Failure}
    (refused : parseTokens lines tokens = .error failure) :
    ∃ diagnostic before ahead expected, failure = .diagnostic diagnostic ∧
      FirstUnviable lines tokens diagnostic before ahead expected := by
  cases run : program tokens with
  | ok p => simp [parseTokens, run, Except.mapError] at refused
  | error refusal =>
    simp only [parseTokens, run, Except.mapError, Except.error.injEq] at refused
    obtain ⟨before, ahead, rfl, stopped, settled⟩ := program_stopped run
    have reports := diagnose_reports (before ++ ahead) lines refusal
    rw [← stopped.about] at reports
    have again (found : Token) (after : List Token) (next : ahead = found :: after) (after' : List Token) :
        program (before ++ found :: after') = .error refusal :=
      settled (found :: after') (by rw [next]; rfl)
    have unviable (found : Token) (after : List Token) (next : ahead = found :: after) :
        ¬Viable (before ++ [found]) :=
      not_viable_of_refused fun after' => ⟨refusal, again found after next after'⟩
    refine ⟨_, before, ahead, refusal.expected, refused.symm, rfl, reports, ?_, stopped.viable, unviable,
      fun found after next after' => ?_, stopped.possible, stopped.viable_fitting⟩
    · rw [reports.ended_iff, stopped.viable_iff unviable]
    · have about : refusal.found = some found := by rw [← stopped.about, next]; rfl
      simp only [parseTokens, again found after next after', Except.mapError]
      rw [diagnose_some _ (before ++ ahead) lines about]

-- An operand is missing in front of the semicolon.
def missingOperand : Diagnostic :=
  .unexpectedToken ⟨.semicolon none, ⟨"", 1, 21⟩⟩ (some "expression") none none

theorem missingOperand_at_first_unviable :
    ∃ diagnostic before ahead expected, Failure.diagnostic missingOperand = .diagnostic diagnostic ∧
      FirstUnviable [] (sampleTokens "int main()\x7breturn 1+;\x7d") diagnostic before ahead expected := by
  refine refused_at_first_unviable ?_
  have refused : (match parseTokens [] (sampleTokens "int main()\x7breturn 1+;\x7d") with
      | .error failure => failure = .diagnostic missingOperand
      | .ok _ => false) = true := by decide +kernel
  cases run : parseTokens [] (sampleTokens "int main()\x7breturn 1+;\x7d") with
  | ok p => simp [run] at refused
  | error failure =>
    simp only [run, decide_eq_true_eq] at refused
    rw [refused]

end WordC.Parse
