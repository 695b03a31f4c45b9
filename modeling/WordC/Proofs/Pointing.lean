import WordC.Assembly.Backend
import WordC.Proofs.Compile
import WordC.Proofs.Lower.Blame
import WordC.Proofs.Lower.FirstBreach
import WordC.Proofs.Parse.Places
import WordC.Proofs.Parse.Viable
import WordC.Proofs.Token.Places

namespace WordC

-- The name that a problem with a program is about.
def Problem.named? : Problem → Option Name
  | .undeclared name | .unknownFunction name | .wrongArgumentCount name _ _ => some name
  | _ => none

namespace Pointing
open Scan Lower

-- A side of an assignment that is no variable although a later side follows, with its place and first lexeme.
def BadTarget (p : Program) (location : Location) (lexeme : Lexeme) : Prop :=
  ∃ f ∈ p.functions, ∃ evaluated ∈ evaluations f, ∃ place sides target,
    .chain place .assign sides ∈ parts evaluated.2 ∧ target ∈ sides.dropLast ∧ isVar target = false ∧
      target.node.location = some location ∧ target.lead? = some lexeme

-- The rest of a line that begins with what a problem is about.
inductive Begins (file text : String) (location : Location) : Problem → List Char → Prop where
  | stray : Begins file text location (.strayCharacter c) (c :: after)
  | literal : (∀ c ∈ after.head?, isDigit c = false) →
      Begins file text location (.literalTooLarge digits) (digits.toList ++ after)
  | found {problem : Problem} {token : Token} : problem.demand? = some (wanted, some token) →
      token.location = location → Leads token.lexeme ahead → Begins file text location problem ahead
  | named {problem : Problem} {name : String} : problem.named? = some (some name) →
      (∀ c ∈ after.head?, isWordChar c = false) → Begins file text location problem (name.toList ++ after)
  | target : parseText file text = .ok p → BadTarget p location lexeme → Leads lexeme ahead →
      Begins file text location .notAssignable ahead

-- A diagnostic that points into a text: its line is the line of that number, cut before its column, and shows with a
-- caret under the cut.
structure Points (file text : String) (d : Diagnostic) (row : Nat) (before ahead : List Char) : Prop where
  location : d.location = some ⟨file, row + 1, before.length + 1⟩
  sourceLine : d.sourceLine = some (String.ofList (before ++ ahead))
  line : (text.toList.splitOn '\n')[row]? = some (before ++ ahead)
  begins : Begins file text ⟨file, row + 1, before.length + 1⟩ d.problem ahead
  shown : d.text = "\n".intercalate
    (d.headLine :: (Diagnostic.margin ++ String.ofList (before ++ ahead)) ::
      (Diagnostic.margin ++ String.ofList (List.replicate before.length ' ') ++ "^") :: d.hintLine)

-- A diagnostic about a text has a line and points into it, except at the end of the text, for a second definition
-- and for a module that is refused.
inductive Explained (file text : String) (d : Diagnostic) : Prop where
  | points : Points file text d row before ahead → Explained file text d
  | ended : d.problem = .unexpectedEnd wanted → d.sourceLine = none → tokenize file text = .ok tokens →
      d.location = tokens.getLast?.map Token.location → Explained file text d
  | redefined : d.problem = .redefinition name first → d.sourceLine = none → Explained file text d
  | refused : d.problem = .backend cause → d.sourceLine = none → Explained file text d

variable {file text : String} {location : Location} {d : Diagnostic}

theorem text_of_located {column : Nat} (located : d.location = some ⟨file, row, column + 1⟩)
    (lined : d.sourceLine = some line) :
    d.text = "\n".intercalate (d.headLine :: (Diagnostic.margin ++ line) ::
      (Diagnostic.margin ++ String.ofList (List.replicate column ' ') ++ "^") :: d.hintLine) := by
  have cut : ((column : Int) + 1).toNat - 1 = column := by omega
  have positive : (0 : Int) < column + 1 := by omega
  simp only [Diagnostic.text, Diagnostic.excerpt, located, lined, cut, positive, if_true, List.cons_append,
    List.nil_append]

theorem explained_of_marks (marks : Marks file text.toList location Ahead)
    (located : d.location = some location) (lined : d.sourceLine = Text.lineAt? (Text.lines text) location.line)
    (begins : ∀ ahead, Ahead ahead → Begins file text location d.problem (ahead.takeWhile (· ≠ '\n'))) :
    Explained file text d := by
  obtain ⟨before, ahead, split, rfl, there⟩ := marks
  rw [Text.lineAt?_behind file before ahead split] at lined
  have place : Location.behind file before =
      ⟨file, before.count '\n' + 1, (before.reverse.takeWhile (· ≠ '\n')).reverse.length + 1⟩ := by
    simp [Location.behind, Int.add_comm]
  have first := begins ahead there
  rw [place] at located first
  exact .points ⟨located, lined, split ▸ Text.splitOn_at before ahead, first, text_of_located located lined⟩

-- What is no blank is not cut off at the end of the line.
theorem takeWhile_solid (solid : ∀ c ∈ spelling, isBlank c = false) (after : List Char) :
    (spelling ++ after).takeWhile (· ≠ '\n') = spelling ++ after.takeWhile (· ≠ '\n') := by
  rw [List.takeWhile_append_of_pos]
  intro c member
  have other := solid c member
  simp only [isBlank, Bool.or_eq_false_iff, decide_eq_false_iff_not] at other
  simpa using other.2

theorem head_takeWhile {Holds : Char → Prop} {after : List Char} (first : ∀ c ∈ after.head?, Holds c) :
    ∀ c ∈ (after.takeWhile (· ≠ '\n')).head?, Holds c := by
  intro c member
  rw [List.head?_takeWhile, Option.mem_def, Option.filter_eq_some_iff] at member
  exact first c member.1

theorem spells_solid (spells : Spells spelling lexeme) : ∀ c ∈ spelling, isBlank c = false := by
  intro c member
  cases spells with
  | number _ all => exact not_blank_of_word (word_of_digit (all c member))
  | mark found =>
    rw [List.mem_singleton.mp member]
    exact not_blank_of_mark found
  | word letter all =>
    rcases List.mem_cons.mp member with rfl | later
    · exact not_blank_of_word (word_of_letter letter)
    · exact not_blank_of_word (all c later)

theorem leads_on_line (leads : Leads lexeme ahead) : Leads lexeme (ahead.takeWhile (· ≠ '\n')) := by
  obtain ⟨spelling, after, rfl, spells, ends⟩ := leads
  exact ⟨spelling, _, takeWhile_solid (spells_solid spells) after, spells, head_takeWhile ends⟩

-- A fault of the scan is shown where the scan stopped.
theorem fault_explained {place : Position} {fault : Fault}
    (marks : Marks file text.toList (place.inFile file) (Stops fault))
    (reported : Reported file text fault place (.diagnostic d)) : Explained file text d := by
  obtain ⟨line, found, diagnosed⟩ := reported
  cases fault with
  | overlongDigitRun length => cases diagnosed
  | strayCharacter c =>
    cases diagnosed
    refine explained_of_marks marks rfl found.symm fun ahead stopped => ?_
    obtain ⟨passed, rest, starts⟩ := stopped
    cases starts with
    | @stray _ after blank =>
      have whole := takeWhile_solid (List.forall_mem_singleton.mpr blank) after
      rw [List.singleton_append] at whole
      rw [whole]
      exact .stray
  | literalTooLarge digits =>
    cases diagnosed
    refine explained_of_marks marks rfl found.symm fun ahead stopped => ?_
    obtain ⟨passed, rest, starts⟩ := stopped
    cases starts with
    | tooLarge all stop =>
      have solid : ∀ c ∈ passed, isBlank c = false := fun c member => not_blank_of_word (word_of_digit (all c member))
      have begins : Begins file text (place.inFile file) _ ((String.ofList passed).toList ++ _) :=
        .literal (head_takeWhile stop)
      rwa [String.toList_ofList, ← takeWhile_solid solid] at begins

variable {tokens : List Token} {token : Token}

theorem token_explained (scanned : tokenize file text = .ok tokens) (there : token ∈ tokens)
    (about : d.problem.demand? = some (wanted, some token)) (located : d.location = some token.location)
    (lined : d.sourceLine = Text.lineAt? (Text.lines text) token.location.line) : Explained file text d :=
  explained_of_marks ((tokenize_placed scanned).marks token there) located lined fun _ leads =>
    .found about rfl (leads_on_line leads)

-- A token is refused where it stands, and at the end the last token gives the place.
theorem refusal_explained (scanned : tokenize file text = .ok tokens) (refused : Parse.program tokens = .error refusal) :
    Explained file text (refusal.diagnose tokens (Text.lines text)) := by
  obtain ⟨before, ahead, split, stopped, -⟩ := Parse.program_stopped refused
  have there (token : Token) (about : refusal.found = some token) : token ∈ tokens := by
    rw [split, List.mem_append]
    exact .inr (List.mem_of_mem_head? (stopped.about.trans about))
  cases refusal with
  | unmet wanted found =>
    cases found with
    | none => exact .ended rfl rfl scanned rfl
    | some token => exact token_explained scanned (there token rfl) rfl rfl rfl
  | noExpression found =>
    cases found with
    | none => exact .ended rfl rfl scanned rfl
    | some token => exact token_explained scanned (there token rfl) rfl rfl rfl
  | pointer token => exact token_explained scanned (there token rfl) rfl rfl rfl

theorem name_explained (scanned : tokenize file text = .ok tokens) (there : token ∈ tokens)
    (spelled : token.lexeme = .identifier name) (about : d.problem.named? = some name)
    (located : d.location = some token.location)
    (lined : d.sourceLine = Text.lineAt? (Text.lines text) token.location.line) : Explained file text d := by
  refine explained_of_marks ((tokenize_placed scanned).marks token there) located lined fun ahead leads => ?_
  rw [spelled] at leads
  obtain ⟨written, after, rfl, -, split, whole⟩ := (leads_on_line leads).named
  rw [split]
  exact .named about whole

theorem rejection_explained {p : Program} (scanned : tokenize file text = .ok tokens)
    (parsed : parseText file text = .ok p) (rooted : ∀ f ∈ p.functions, Grammar.FunctionRooted tokens f)
    (member : f ∈ p.functions) (listed : evaluated ∈ evaluations f) (blames : Blames evaluated.2 rejection)
    (diagnosed : rejection.diagnose (Text.lines text) = .diagnostic d) : Explained file text d := by
  have root := (rooted f member).evaluated evaluated listed
  cases blames with
  | undeclared inside =>
    obtain ⟨token, there, rfl, lead⟩ := root _ inside
    cases diagnosed
    exact name_explained scanned there (Option.some.inj lead).symm rfl rfl rfl
  | unknownFunction inside =>
    obtain ⟨token, there, rfl, lead⟩ := root _ inside
    cases diagnosed
    exact name_explained scanned there (Option.some.inj lead).symm rfl rfl rfl
  | wrongArgumentCount inside =>
    obtain ⟨token, there, rfl, lead⟩ := root _ inside
    cases diagnosed
    exact name_explained scanned there (Option.some.inj lead).symm rfl rfl rfl
  | notAssignable inside target other =>
    obtain ⟨token, there, located, lead⟩ := root _ (target_mem_parts inside target)
    cases diagnosed
    refine explained_of_marks ((tokenize_placed scanned).marks token there) located (by rw [located]; rfl)
      fun ahead leads => ?_
    exact .target parsed ⟨f, member, evaluated, listed, _, _, _, inside, target, other, located, lead⟩
      (leads_on_line leads)

-- Programs that were read from a text have all that lowering needs.
theorem formed_of_scanned (scanned : tokenize file text = .ok tokens) (spelled : Grammar.IsProgram tokens p) :
    Formed p := by
  have marks := (tokenize_placed scanned).marks
  refine Grammar.formed_of_spelled spelled (fun token there valueless => ?_) fun token there unnamed => ?_
  · obtain ⟨before, ahead, -, -, leads⟩ := marks token there
    rw [valueless] at leads
    exact leads.valued rfl
  · obtain ⟨before, ahead, -, -, leads⟩ := marks token there
    rw [unnamed] at leads
    obtain ⟨written, after, same, filled, -⟩ := leads.named
    exact filled (Option.some.inj same).symm

theorem lowering_explained {p : Program} (scanned : tokenize file text = .ok tokens)
    (parsed : parseTokens (Text.lines text) tokens = .ok p)
    (lowered : lowerProgram moduleName (Text.lines text) p = .error (.diagnostic d)) : Explained file text d := by
  have spelled := Parse.parseTokens_eq_ok_iff.mp parsed
  have read : parseText file text = .ok p := by
    rw [parseText, scanned]
    exact parsed
  obtain ⟨rejection, run, diagnosed⟩ := mapError_eq_error.mp lowered
  have first := (program_agrees (formed_of_scanned scanned spelled) moduleName rejection).mp run
  rcases programBreaches_blame (List.mem_of_mem_head? first) with twice | blamed
  · obtain ⟨name, place, earlier, rfl⟩ := twice
    cases diagnosed
    exact .redefined rfl rfl
  · obtain ⟨f, member, evaluated, listed, blames⟩ := blamed
    exact rejection_explained scanned read (Grammar.program_rooted spelled) member listed blames diagnosed

-- Tokens and diagnostics point at what they are about: tokens cover the text, each at its place, and whatever is
-- said about a text is explained by it.
theorem diagnostics_point_at_culprit (backend : Backend) (options : Options) (file text : String) :
    (∀ tokens, tokenize file text = .ok tokens → Placed file [] text.toList tokens) ∧
    ∀ d, (compile backend options file text).result = .error (.diagnostic d) → Explained file text d := by
  refine ⟨fun tokens scanned => tokenize_placed scanned, fun d failed => ?_⟩
  rw [compile_result] at failed
  rcases bind_eq_error.mp failed with faulty | ⟨tokens, scanned, failed⟩
  · obtain ⟨place, fault, reported, marks⟩ := tokenize_stops faulty
    exact fault_explained marks reported
  rcases bind_eq_error.mp failed with refused | ⟨p, parsed, failed⟩
  · obtain ⟨refusal, run, diagnosed⟩ := mapError_eq_error.mp refused
    cases diagnosed
    exact refusal_explained scanned run
  rcases bind_eq_error.mp failed with rejected | ⟨m, -, failed⟩
  · exact lowering_explained scanned parsed rejected
  rcases bind_eq_error.mp failed with unverified | ⟨-, -, done⟩
  · obtain ⟨cause, same⟩ := verification_error unverified
    cases same
    exact .refused rfl rfl
  · cases done

-- A sum stands where a variable should, behind a tab on a line of its own.
def sumAsTarget : String := "int f(int a)\r\n\x7b\n\treturn a + 1 = f(2);\n\x7d"

theorem sumAsTarget_points :
    (∃ tokens, tokenize "p.c" sumAsTarget = .ok tokens ∧ Placed "p.c" [] sumAsTarget.toList tokens) ∧
    ∃ d before ahead, (compile .builtIn {} "p.c" sumAsTarget).result = .error (.diagnostic d) ∧ before.length = 8 ∧
      Points "p.c" sumAsTarget d 2 before ahead := by
  obtain ⟨placed, explained⟩ := diagnostics_point_at_culprit .builtIn {} "p.c" sumAsTarget
  constructor
  · have read : (tokenize "p.c" sumAsTarget).isOk = true := by decide +kernel
    cases run : tokenize "p.c" sumAsTarget with
    | error failure => simp [run, Except.isOk, Except.toBool] at read
    | ok tokens => exact ⟨tokens, rfl, placed tokens run⟩
  · let d : Diagnostic := ⟨.notAssignable, some ⟨"p.c", 3, 9⟩, some "\treturn a + 1 = f(2);", false⟩
    have failed : (compile .builtIn {} "p.c" sumAsTarget).result.map (fun _ => ()) = .error (.diagnostic d) := by
      decide +kernel
    have run := map_eq_error.mp failed
    cases explained d run with
    | @points row before ahead points =>
      have same : some (⟨"p.c", row + 1, before.length + 1⟩ : Location) = some ⟨"p.c", 3, 9⟩ :=
        points.location.symm
      simp only [Option.some.injEq, Location.mk.injEq, true_and] at same
      obtain rfl : row = 2 := by omega
      exact ⟨d, before, ahead, run, by omega, points⟩
    | ended other | redefined other | refused other => simp [d] at other

end Pointing

end WordC
