import WordC.Proofs.Lower.Independence
import WordC.Proofs.Lower.WellFormed
import WordC.Proofs.Lower.Whole
import WordC.Proofs.Pointing
import WordC.Proofs.Token.Blocks

namespace WordC

-- The problems that each stage of the work has to report. A token that was wanted and not found is reported as an
-- error of the program text, never as it is.
inductive RaisedIn : Stage → Problem → Prop where
  | strayCharacter : RaisedIn .scanning (.strayCharacter c)
  | literalTooLarge : RaisedIn .scanning (.literalTooLarge digits)
  | unexpectedToken : RaisedIn .parsing (.unexpectedToken found wanted advice)
  | unexpectedEnd : RaisedIn .parsing (.unexpectedEnd wanted)
  | mismatch : RaisedIn .parsing (.escalated (.unmetExpectation wanted found) causeLine)
  | redefinition : RaisedIn .lowering (.redefinition name first)
  | undeclared : RaisedIn .lowering (.undeclared name)
  | unknownFunction : RaisedIn .lowering (.unknownFunction name)
  | wrongArgumentCount : RaisedIn .lowering (.wrongArgumentCount name expected actual)
  | notAssignable : RaisedIn .lowering .notAssignable
  | backend : RaisedIn .backend (.backend cause)

-- Work that gives a result or fails with a diagnostic of its stage.
def KeepsTo (stage : Stage) (outcome : Except Failure α) : Prop :=
  (∃ result, outcome = .ok result) ∨ ∃ d, outcome = .error (.diagnostic d) ∧ RaisedIn stage d.problem

theorem KeepsTo.of_error {outcome : Except Failure α}
    (raised : ∀ failure, outcome = .error failure → ∃ d, failure = .diagnostic d ∧ RaisedIn stage d.problem) :
    KeepsTo stage outcome := by
  cases outcome with
  | ok result => exact .inl ⟨result, rfl⟩
  | error failure =>
    obtain ⟨d, rfl, within⟩ := raised failure rfl
    exact .inr ⟨d, rfl, within⟩

theorem KeepsTo.bind {first : Except Failure α} {next : α → Except Failure β} (keeps : KeepsTo stage first)
    (later : ∀ reached, first = .ok reached → ∃ stage, KeepsTo stage (next reached)) :
    ∃ stage, KeepsTo stage (first >>= next) := by
  rcases keeps with ⟨reached, done⟩ | ⟨d, failed, within⟩
  · obtain ⟨stage, keeps⟩ := later reached done
    rw [done]
    exact ⟨stage, keeps⟩
  · rw [failed]
    exact ⟨stage, .inr ⟨d, rfl, within⟩⟩

theorem tokenize_keepsTo (file : String) (short : Scan.Short text.toList) :
    KeepsTo .scanning (tokenize file text) := by
  have agrees := Scan.scan_agrees text.toList Position.start short
  apply KeepsTo.of_error
  intro failure failed
  simp only [tokenize, tokensFrom, Scan.State.start, Scan.State.scan] at failed
  unfold Scan.Agreement at agrees
  split at failed
  · cases failed
  · rename_i place fault stopped
    simp only [stopped] at agrees
    obtain ⟨before, -, earlier, block, later, -, -, -, offence⟩ := agrees
    cases failed
    cases offence with
    | stray => exact ⟨_, rfl, .strayCharacter⟩
    | tooLarge => exact ⟨_, rfl, .literalTooLarge⟩

theorem parseTokens_keepsTo (lines : List String) (tokens : List Token) :
    KeepsTo .parsing (parseTokens lines tokens) := by
  apply KeepsTo.of_error
  intro failure failed
  obtain ⟨refusal, -, rfl⟩ := mapError_eq_error.mp failed
  refine ⟨_, rfl, ?_⟩
  have reports := Parse.diagnose_reports tokens lines refusal
  generalize (refusal.diagnose tokens lines).problem = problem, refusal.found = found at reports
  cases reports with
  | ended => exact .unexpectedEnd
  | unexpected => exact .unexpectedToken
  | unmet => exact .mismatch

theorem lowerProgram_keepsTo (formed : Lower.Formed p) (moduleName : String) (lines : List String) :
    KeepsTo .lowering (lowerProgram moduleName lines p) := by
  apply KeepsTo.of_error
  intro failure failed
  obtain ⟨rejection, run, rfl⟩ := mapError_eq_error.mp failed
  have first := (Lower.program_agrees formed moduleName rejection).mp run
  rcases Lower.programBreaches_blame (List.mem_of_mem_head? first) with twice | blamed
  · obtain ⟨name, place, earlier, rfl⟩ := twice
    exact ⟨_, rfl, .redefinition⟩
  · obtain ⟨f, -, evaluated, -, blames⟩ := blamed
    cases blames with
    | undeclared => exact ⟨_, rfl, .undeclared⟩
    | unknownFunction => exact ⟨_, rfl, .unknownFunction⟩
    | wrongArgumentCount => exact ⟨_, rfl, .wrongArgumentCount⟩
    | notAssignable => exact ⟨_, rfl, .notAssignable⟩

theorem verification_keepsTo (backend : Backend) (options : Options) (m : Module) :
    KeepsTo .backend (verification backend options m) := by
  apply KeepsTo.of_error
  intro failure failed
  obtain ⟨cause, rfl⟩ := verification_error failed
  exact ⟨_, rfl, .backend⟩

namespace Lower

theorem body_closed {f : Function} {instructions : List Instr} (lowered : Typed.body table f = .ok instructions) :
    ∃ front value, instructions = front ++ [.ret (some value)] ∧
      ∀ instruction ∈ front, instruction.isReturn = false := by
  obtain ⟨front, value, after, rfl, emits, -⟩ := Typed.body_emits lowered
  refine ⟨front, value, rfl, ?_⟩
  intro instruction member
  obtain ⟨before, rest, split⟩ := List.append_of_mem member
  exact (emits.order before instruction rest split).isReturn

-- What lowering a program never meets with, whether or not it comes to an end: a hollow node, a function that is
-- declared under no name or under one that is taken, and an instruction behind a return.
structure Smooth (p : Program) : Prop where
  whole : ∀ n ∈ p.node.inside, ¬Hollow n
  named : ∀ earlier table, earlier <+: p.functions → declare (earlier.map Function.node) = .ok table →
    (table.map Signature.name).Nodup ∧ ∀ name ∈ table.map Signature.name, name ≠ none ∧ name ≠ some ""
  closed : ∀ table, declare (p.functions.map Function.node) = .ok table →
    ∀ f ∈ p.functions, ∀ code, function table f.node = .ok code →
      ∃ front value, code.body = front ++ [.ret (some value)] ∧ ∀ instruction ∈ front, instruction.isReturn = false

theorem smooth_of_whole (whole : ∀ n ∈ p.node.inside, ¬Hollow n) : Smooth p := by
  refine ⟨whole, ?_, ?_⟩
  · intro earlier table within declared
    obtain ⟨rfl, distinct⟩ := Typed.declare_ok declared
    have names : (earlier.map Typed.signature).map Signature.name = earlier.map Function.name := by
      rw [List.map_map]
      rfl
    rw [names]
    refine ⟨distinct, ?_⟩
    intro name member
    obtain ⟨f, listed, rfl⟩ := List.mem_map.mp member
    have solid : ¬Hollow f.node := by
      apply whole
      apply List.mem_cons_of_mem
      apply mem_allInside.mpr
      exact ⟨f.node, List.mem_map_of_mem (within.subset listed), List.mem_cons_self⟩
    exact ⟨fun missing => solid (.nameless (.inl missing)), fun empty => solid (.nameless (.inr empty))⟩
  · intro table declared f member code lowered
    obtain ⟨rfl, distinct⟩ := Typed.declare_ok declared
    rw [Typed.function_body (Typed.find?_signature distinct member) rfl, map_eq_ok] at lowered
    obtain ⟨instructions, done, rfl⟩ := lowered
    exact body_closed done

end Lower

-- A text without overlong runs of digits is compiled, or it fails in one of the stages with a diagnostic of that
-- stage. What the stages before lowering let through is lowered smoothly.
theorem failures_keep_to_stages (file text : String) (short : Scan.Short text.toList) (lines : List String)
    (moduleName : String) :
    KeepsTo .scanning (tokenize file text) ∧
    (∀ tokens, tokenize file text = .ok tokens →
      KeepsTo .parsing (parseTokens lines tokens) ∧
      ∀ p, parseTokens lines tokens = .ok p →
        KeepsTo .lowering (lowerProgram moduleName lines p) ∧ Lower.Smooth p) ∧
    ∀ backend options, ∃ stage, KeepsTo stage (compile backend options file text).result := by
  refine ⟨tokenize_keepsTo file short, fun tokens scanned => ⟨parseTokens_keepsTo lines tokens, ?_⟩, ?_⟩
  · intro p parsed
    have spelled := Parse.parseTokens_eq_ok_iff.mp parsed
    have formed := Pointing.formed_of_scanned scanned spelled
    exact ⟨lowerProgram_keepsTo formed moduleName lines,
      Lower.smooth_of_whole (Lower.whole_of_scanned scanned spelled)⟩
  · intro backend options
    rw [compile_result]
    apply (tokenize_keepsTo file short).bind
    intro tokens scanned
    apply (parseTokens_keepsTo _ tokens).bind
    intro p parsed
    have formed := Pointing.formed_of_scanned scanned (Parse.parseTokens_eq_ok_iff.mp parsed)
    apply (lowerProgram_keepsTo formed _ _).bind
    intro m lowered
    apply (verification_keepsTo backend options.normalize m).bind
    intro _ verified
    exact ⟨.backend, .inl ⟨_, rfl⟩⟩

theorem sumAsTarget_keeps_to_stages :
    Scan.Short Pointing.sumAsTarget.toList ∧
    ∃ tokens p d, tokenize "p.c" Pointing.sumAsTarget = .ok tokens ∧ parseTokens [] tokens = .ok p ∧
      lowerProgram "rcc" [] p = .error (.diagnostic d) ∧ RaisedIn .lowering d.problem ∧ Lower.Smooth p := by
  have short : Scan.Short Pointing.sumAsTarget.toList := Scan.short_of_length (by decide)
  obtain ⟨-, stages, -⟩ := failures_keep_to_stages "p.c" Pointing.sumAsTarget short [] "rcc"
  obtain ⟨p, read⟩ : ∃ p, (tokenize "p.c" Pointing.sumAsTarget >>= parseTokens []) = .ok p :=
    isOk_iff.mp (by decide +kernel)
  have refused : (tokenize "p.c" Pointing.sumAsTarget >>= parseTokens [] >>= lowerProgram "rcc" []).isOk = false := by
    decide +kernel
  rw [read] at refused
  obtain ⟨tokens, scanned, parsed⟩ := bind_eq_ok.mp read
  obtain ⟨lowering, smooth⟩ := (stages tokens scanned).2 p parsed
  rcases lowering with ⟨m, lowered⟩ | ⟨d, failed, within⟩
  · simp [lowered, Except.isOk, Except.toBool] at refused
  · exact ⟨short, tokens, p, d, scanned, parsed, failed, within, smooth⟩

end WordC
