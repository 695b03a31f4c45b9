import WordC.Assembly.Backend
import WordC.Proofs.Compile
import WordC.Proofs.Lower.Join
import WordC.Proofs.Lower.Unplaced
import WordC.Proofs.Parse.Derivation
import WordC.Proofs.Token.Join

namespace WordC

namespace Grammar

theorem functions_join (listed : Functions tokens fs) (listed' : Functions tokens' fs') :
    Functions (tokens ++ tokens') (fs ++ fs') := by
  induction listed with
  | last defined => exact .next defined listed'
  | next defined more ih =>
    rw [List.append_assoc]
    exact .next defined ih

-- The functions of two programs, one after the other, as a tree.
theorem program_join (spelled : IsProgram tokens p) (spelled' : IsProgram tokens' p')
    (alike : joined.map Token.lexeme = tokens.map Token.lexeme ++ tokens'.map Token.lexeme) :
    ∃ whole, IsProgram joined whole ∧ whole.same ⟨place (tokens ++ tokens'), p.functions ++ p'.functions⟩ := by
  cases spelled with
  | functions listed =>
    cases spelled' with
    | functions listed' =>
      exact program_moves (.functions (functions_join listed listed')) (alike.trans List.map_append.symm)

end Grammar

theorem lowerProgram_same {p q : Program} (same : q.same p) {moduleName : String} {lines lines' : List String}
    (lowered : lowerProgram moduleName lines p = .ok m) : lowerProgram moduleName lines' q = .ok m := by
  unfold lowerProgram lowerTree at lowered ⊢
  rw [mapError_eq_ok] at lowered ⊢
  have moved := Lower.program_unplaced moduleName q.node
  rw [Program.same_iff.mp same, Lower.program_unplaced, lowered] at moved
  exact mapError_eq_ok.mp moved.symm

theorem lowerProgram_names {p : Program} {m : Module} {moduleName : String} {lines : List String}
    (lowered : lowerProgram moduleName lines p = .ok m) : m.name = moduleName ∧ m.functionNames = p.functionNames := by
  unfold lowerProgram lowerTree at lowered
  rw [mapError_eq_ok] at lowered
  obtain ⟨-, -, named, -⟩ := Lower.Typed.program_eq_ok_iff.mp lowered
  exact ⟨named, Lower.Typed.program_names lowered⟩

theorem lowerProgram_join {p q : Program} {m m' : Module} {moduleName : String} {lines lines' : List String}
    (lowered : lowerProgram moduleName lines p = .ok m) (lowered' : lowerProgram moduleName lines' q = .ok m')
    (apart : p.functionNames.Disjoint q.functionNames) (location : Option Location) :
    m'.name = m.name ∧ lowerProgram moduleName lines ⟨location, p.functions ++ q.functions⟩ =
      .ok ⟨m.name, m.functions ++ m'.functions⟩ := by
  unfold lowerProgram lowerTree at lowered lowered' ⊢
  rw [mapError_eq_ok] at lowered lowered' ⊢
  obtain ⟨-, -, named, -⟩ := Lower.Typed.program_eq_ok_iff.mp lowered
  obtain ⟨-, -, named', -⟩ := Lower.Typed.program_eq_ok_iff.mp lowered'
  exact ⟨named'.trans named.symm, named ▸ Lower.Typed.program_join lowered lowered' apart location⟩

-- A backend that takes what is in two modules also in one, if both have the same name and no function in common.
def Backend.Modular (backend : Backend) (name : String) : Prop :=
  ∀ codes codes', (codes.map Code.name).Disjoint (codes'.map Code.name) →
    backend.refusal? ⟨name, codes⟩ = none → backend.refusal? ⟨name, codes'⟩ = none →
      backend.refusal? ⟨name, codes ++ codes'⟩ = none

theorem Backend.builtIn_refusal?_eq_none_iff {m : Module} :
    Backend.builtIn.refusal? m = none ↔ (Assembly.head? m).isSome ∧ (Assembly.loaded m).all Assembly.accepts := by
  simp only [Backend.builtIn, Assembly.refusal?, Assembly.isAccepted, Bool.and_eq_true]
  split <;> simp_all

-- The backend at hand looks at the name of a module and at its functions one by one.
theorem Backend.builtIn_modular (name : String) : Backend.builtIn.Modular name := by
  intro codes codes' _ accepted accepted'
  rw [builtIn_refusal?_eq_none_iff] at accepted accepted' ⊢
  refine ⟨accepted.1, ?_⟩
  have each := accepted.2
  have each' := accepted'.2
  unfold Assembly.loaded Assembly.isCut at each each' ⊢
  split
  · rfl
  · rename_i uncut
    rw [if_neg uncut] at each each'
    rw [List.all_append, each, each']
    rfl

@[simp] theorem Options.normalize_verify (options : Options) : options.normalize.verify = options.verify := by
  unfold Options.normalize
  split <;> rfl

-- Two texts that are compiled, and that define no function twice between them, are compiled together: with any blanks
-- between them, to the functions of the first and then those of the second, each with the code that it has alone.
theorem concatenation_compiled (backend : Backend) (options : Options)
    (modular : options.verify = true → backend.Modular options.normalize.moduleName)
    {file file' text text' gap : String} {made made' : Compiled}
    (compiled : (compile backend options file text).result = .ok made)
    (compiled' : (compile backend options file' text').result = .ok made')
    (apart : made.program.functionNames.Disjoint made'.program.functionNames)
    (blank : ∀ c ∈ gap.toList, Scan.isBlank c) (filled : gap ≠ "") (whole : String) :
    ∃ joined, (compile backend options whole (text ++ gap ++ text')).result = .ok joined ∧
      joined.tokens.map Token.lexeme = made.tokens.map Token.lexeme ++ made'.tokens.map Token.lexeme ∧
      joined.program.same ⟨none, made.program.functions ++ made'.program.functions⟩ ∧
      joined.module.functions = made.module.functions ++ made'.module.functions ∧
      joined.module.text = "\n".intercalate
        (made.module.header ++ made.module.functions.map Code.text ++ made'.module.functions.map Code.text) := by
  obtain ⟨rfl, scanned, parsed, lowered, verified⟩ := compile_eq_ok_iff.mp compiled
  obtain ⟨rfl, scanned', parsed', lowered', verified'⟩ := compile_eq_ok_iff.mp compiled'
  rw [Parse.parseTokens_eq_ok_iff] at parsed parsed'
  obtain ⟨tokens, scanned'', alike⟩ := Scan.tokenize_join scanned scanned' blank filled whole
  obtain ⟨program, spelled'', same⟩ := Grammar.program_join parsed parsed' alike
  obtain ⟨named, together⟩ := lowerProgram_join lowered lowered' apart (Grammar.place (made.tokens ++ made'.tokens))
  refine ⟨⟨whole, tokens, program, ⟨made.module.name, made.module.functions ++ made'.module.functions⟩⟩,
    compile_eq_ok_iff.mpr ⟨rfl, scanned'', Parse.parseTokens_eq_ok_iff.mpr spelled'', ?_, ?_⟩, alike, same, rfl, ?_⟩
  · exact lowerProgram_same same together
  · apply verification_eq_ok_iff.mpr
    intro wanted
    have accepted := verification_eq_ok_iff.mp verified wanted
    have accepted' := verification_eq_ok_iff.mp verified' wanted
    obtain ⟨titled, listed⟩ := lowerProgram_names lowered
    obtain ⟨-, listed'⟩ := lowerProgram_names lowered'
    rw [← listed, ← listed'] at apart
    rw [options.normalize_verify] at wanted
    exact titled ▸ modular wanted _ _ apart (titled ▸ accepted) (titled ▸ named ▸ accepted')
  · simp [Module.text, Module.header]

-- Functions of each text are named like variables of the other.
def callsEarlier : String := "int f(int h)\x7breturn h;\x7d int g()\x7breturn f(2);\x7d"
def callsItself : String := "int h(int f)\x7breturn h(f);\x7d"

theorem callsEarlier_callsItself_compiled :
    ∃ made made' joined, (compile .builtIn {} "a.c" callsEarlier).result = .ok made ∧
      (compile .builtIn {} "b.c" callsItself).result = .ok made' ∧
      made.program.functionNames = [some "f", some "g"] ∧ made'.program.functionNames = [some "h"] ∧
      (compile .builtIn {} "c.c" (callsEarlier ++ "\n\t" ++ callsItself)).result = .ok joined ∧
      joined.program.same ⟨none, made.program.functions ++ made'.program.functions⟩ ∧
      joined.module.functions = made.module.functions ++ made'.module.functions := by
  have names : (compile .builtIn {} "a.c" callsEarlier).result.map (·.program.functionNames) =
      .ok [some "f", some "g"] := by
    decide +kernel
  have names' : (compile .builtIn {} "b.c" callsItself).result.map (·.program.functionNames) = .ok [some "h"] := by
    decide +kernel
  obtain ⟨made, compiled, listed⟩ := map_eq_ok.mp names
  obtain ⟨made', compiled', listed'⟩ := map_eq_ok.mp names'
  have apart : made.program.functionNames.Disjoint made'.program.functionNames := by simp [listed, listed']
  have blank : ∀ c ∈ "\n\t".toList, Scan.isBlank c := List.all_eq_true.mp (by decide)
  obtain ⟨joined, together, _, same, codes, _⟩ :=
    concatenation_compiled .builtIn {} (fun _ => Backend.builtIn_modular _) compiled compiled' apart blank (by decide)
      "c.c"
  exact ⟨made, made', joined, compiled, compiled', listed, listed', together, same, codes⟩

end WordC
