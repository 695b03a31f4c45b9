import WordC.Compile
import WordC.Proofs.Except

namespace WordC

-- What is logged on the way has no part in the result.
@[simp] theorem Logged.andThen_result (first : Logged α) (next : α → Logged β) :
    (first.andThen next).result = first.result >>= fun reached => (next reached).result := by
  unfold Logged.andThen
  cases first.result <;> rfl

@[simp] theorem Logged.noteIf_result (condition : Bool) (part message : String) :
    (Logged.noteIf condition part message).result = .ok () := by
  cases condition <;> rfl

theorem Stages.scan_result (file text : String) : (Stages.scan file text).result = tokenize file text := by
  simp only [Stages.scan, Logged.andThen_result, Logged.ofExcept]
  cases tokenize file text <;> rfl

theorem Stages.parse_result (file : String) (lines : List String) (tokens : List Token) :
    (Stages.parse file lines tokens).result = parseTokens lines tokens := by
  simp only [Stages.parse, Logged.andThen_result, Logged.ofExcept]
  cases parseTokens lines tokens <;> rfl

theorem Stages.lower_result (moduleName : String) (lines : List String) (p : Program) :
    (Stages.lower moduleName lines p).result = lowerProgram moduleName lines p := by
  unfold Stages.lower
  cases lowerProgram moduleName lines p <;> rfl

-- The check of a module at the end, unless it is turned off.
def verification (backend : Backend) (options : Options) (m : Module) : Except Failure Unit :=
  if options.verify then (backend.verify m).mapError fun cause => .diagnostic (.ofBackend cause) else .ok ()

theorem Stages.verify_result (backend : Backend) (options : Options) (file : String) (m : Module) :
    (if options.verify then Stages.verify backend file m else .pure ()).result = verification backend options m := by
  unfold verification
  split
  · simp only [Stages.verify, Logged.andThen_result, Logged.ofBackend, Logged.ofExcept]
    cases backend.verify m <;> rfl
  · rfl

-- Compiling is one stage after the other.
theorem compile_result (backend : Backend) (given : Options) (file text : String) :
    (compile backend given file text).result = (do
      let tokens ← tokenize file text
      let p ← parseTokens (Text.lines text) tokens
      let m ← lowerProgram given.normalize.moduleName (Text.lines text) p
      verification backend given.normalize m
      .ok ⟨file, tokens, p, m⟩) := by
  simp only [compile, Logged.andThen_result, Logged.noteIf_result, Stages.scan_result, Stages.parse_result,
    Stages.lower_result, Stages.verify_result, ok_bind]
  rfl

theorem verification_error {failure : Failure} (unverified : verification backend options m = .error failure) :
    ∃ cause, failure = .diagnostic (.ofBackend cause) := by
  unfold verification at unverified
  split at unverified
  · obtain ⟨cause, -, same⟩ := mapError_eq_error.mp unverified
    exact ⟨cause, same.symm⟩
  · cases unverified

theorem verification_eq_ok_iff {backend : Backend} {options : Options} {m : Module} :
    verification backend options m = .ok () ↔ (options.verify = true → backend.refusal? m = none) := by
  unfold verification Backend.verify
  cases options.verify <;> cases backend.refusal? m <;> simp [Except.mapError]

theorem compile_eq_ok_iff {backend : Backend} {options : Options} {made : Compiled} :
    (compile backend options file text).result = .ok made ↔
      made.file = file ∧ tokenize file text = .ok made.tokens ∧
        parseTokens (Text.lines text) made.tokens = .ok made.program ∧
        lowerProgram options.normalize.moduleName (Text.lines text) made.program = .ok made.module ∧
        verification backend options.normalize made.module = .ok () := by
  simp only [compile_result, bind_eq_ok, Except.ok.injEq]
  constructor
  · rintro ⟨tokens, scanned, p, parsed, m, lowered, _, verified, rfl⟩
    exact ⟨rfl, scanned, parsed, lowered, verified⟩
  · rintro ⟨rfl, scanned, parsed, lowered, verified⟩
    exact ⟨made.tokens, scanned, made.program, parsed, made.module, lowered, (), verified, rfl⟩

end WordC
