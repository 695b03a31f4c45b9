import Mathlib.Logic.Relation
import WordC.Proofs.Parse.Derivation
import WordC.Proofs.Parse.Parts

namespace WordC

theorem Stream.answer_remaining (stream : Stream) (request : Request) :
    (stream.answer request).2.remaining ≤ stream.remaining := by
  have answers := stream.answer_answers request
  have counted := stream.length_tokens
  have counted' := (stream.answer request).2.length_tokens
  rw [answers.kept] at counted'
  have onward := answers.onward
  omega

namespace Descent
open Parse Parse.Reader Script

-- What a part takes, whatever it was asked to read.
theorem run_takes {part : Part} {found : part.Result} (ran : part.body.run n stream = some (.ok found, later)) :
    later.remaining + part.least found ≤ stream.remaining := by
  have fulfilled := fulfils part stream
  cases run : part.reader stream.ahead with
  | error refusal =>
    obtain ⟨m, last, ran', -⟩ := fulfilled.refuses run
    cases run_unique ran ran'
  | ok result =>
    obtain ⟨m, last, ran', left, -⟩ := fulfilled.finds run
    cases run_unique ran ran'
    have taken := reader_takes part run
    rw [← left] at taken
    exact taken

-- A script that comes to enter a part, at a place of the stream. The parts that it entered before have found
-- something.
inductive Comes : Script α → Stream → Part → Stream → Prop where
  | now : Comes (.enter reached next) stream reached stream
  | asked : Comes (next (stream.answer request).1) (stream.answer request).2 reached there →
      Comes (.ask request next) stream reached there
  | entered {next : (other : Part).Result → Script α} : other.body.run n stream = some (.ok found, later) →
      Comes (next found) later reached there → Comes (.enter other next) stream reached there

theorem Comes.remaining_le {script : Script α} (comes : Comes script stream reached there) :
    there.remaining ≤ stream.remaining := by
  induction comes with
  | now => exact Nat.le_refl _
  | asked _ ih => exact Nat.le_trans ih (Stream.answer_remaining _ _)
  | entered ran _ ih => exact Nat.le_trans ih (Nat.le_trans (Nat.le_add_right _ _) (run_takes ran))

-- Behind a token that was taken there are fewer.
theorem Comes.fewer {stream : Stream} {script : Script α} (next : stream.ahead = token :: rest)
    (comes : Comes script ⟨token :: stream.behind, rest⟩ reached there) : there.remaining < stream.remaining := by
  have less : there.remaining ≤ rest.length := comes.remaining_le
  simp only [Stream.remaining, next, List.length_cons] at less ⊢
  omega

theorem comes_ask {next : Reply → Script α} (comes : Comes (.ask request next) stream reached there) :
    Comes (next (stream.answer request).1) (stream.answer request).2 reached there := by
  cases comes with
  | asked comes => exact comes

theorem comes_enter {other : Part} {next : other.Result → Script α}
    (comes : Comes (.enter other next) stream reached there) :
    reached = other ∧ there = stream ∨
      ∃ n found later, other.body.run n stream = some (.ok found, later) ∧ Comes (next found) later reached there := by
  cases comes with
  | now => exact .inl ⟨rfl, rfl⟩
  | entered ran comes => exact .inr ⟨_, _, _, ran, comes⟩

-- A script that enters parts with fewer tokens only, or parts below a rank.
def Descends (rank : Nat) (stream : Stream) (script : Script α) : Prop :=
  ∀ ⦃reached there⦄, Comes script stream reached there →
    there.remaining < stream.remaining ∨ there.remaining = stream.remaining ∧ reached.rank < rank

namespace Descends

variable {stream : Stream}

theorem give (found : α) : Descends rank stream (pure found) := by
  intro reached there comes
  cases comes

theorem refuse (refusal : Refusal) : Descends rank stream (.refuse refusal : Script α) := by
  intro reached there comes
  cases comes

theorem look {next : Reply → Script α} (answered : stream.answer request = (reply, stream))
    (onward : Descends rank stream (next reply)) : Descends rank stream (.ask request next) := by
  intro reached there comes
  have comes := comes_ask comes
  rw [answered] at comes
  exact onward comes

theorem expect (wanted : Wanted) (next : Token → Script α) : Descends rank stream (Script.expect wanted >>= next) := by
  intro reached there comes
  have comes := comes_ask comes
  rcases answer_expect stream wanted with ⟨token, rest, ahead, -, answered⟩ | ⟨-, answered⟩
  · rw [answered] at comes
    exact .inl (comes.fewer ahead)
  · rw [answered] at comes
    cases comes

theorem skip {script : Script α} (more : stream.ahead ≠ []) : Descends rank stream (do Script.skip; script) := by
  intro reached there comes
  have comes := comes_ask comes
  obtain ⟨token, rest, ahead⟩ := List.exists_cons_of_ne_nil more
  rw [answer_advance ahead] at comes
  exact .inl (comes.fewer ahead)

theorem tail {other : Part} (lower : other.rank < rank) : Descends rank stream (Script.part other) := by
  intro reached there comes
  rcases comes_enter comes with ⟨rfl, rfl⟩ | ⟨n, found, later, -, comes⟩
  · exact .inr ⟨rfl, lower⟩
  · cases comes

theorem enter {other : Part} {next : other.Result → Script α} (lower : other.rank < rank)
    (onward : ∀ found later, other.least found = 0 → Descends rank later (next found)) :
    Descends rank stream (Script.part other >>= next) := by
  intro reached there comes
  rcases comes_enter comes with ⟨rfl, rfl⟩ | ⟨n, found, later, ran, comes⟩
  · exact .inr ⟨rfl, lower⟩
  · have taken := run_takes ran
    have left := comes.remaining_le
    by_cases idle : other.least found = 0
    · rcases onward found later idle comes with less | ⟨same, below⟩
      · exact .inl (by omega)
      · rcases Nat.lt_or_eq_of_le (show there.remaining ≤ stream.remaining by omega) with less | same
        · exact .inl less
        · exact .inr ⟨same, below⟩
    · exact .inl (by omega)

-- After a part that always takes a token there are fewer.
theorem taking {other : Part} {next : other.Result → Script α} (lower : other.rank < rank)
    (takes : ∀ found, other.least found = 1) : Descends rank stream (Script.part other >>= next) :=
  enter lower fun found _ idle => absurd (takes found) (by omega)

theorem ite {b : Bool} {one other : Script α} (yes : b = true → Descends rank stream one)
    (no : Descends rank stream other) : Descends rank stream (if b then one else other) := by
  cases b with
  | true => exact yes rfl
  | false => exact no

end Descends

theorem startedBy_descends {stream : Stream} (token : Token) (more : stream.ahead ≠ []) :
    Descends 1 stream (startedBy token) := by
  cases spelled : token.lexeme with
  | number value =>
    simp only [startedBy, spelled]
    exact .skip more
  | identifier name =>
    simp only [startedBy, spelled]
    exact .look rfl (.ite (fun _ => .tail (by simp [Part.rank])) (.skip more))
  | typeName | operator | bracket | parenthesis | comma | semicolon | ret =>
    simp only [startedBy, spelled]
    exact .look rfl (.refuse _)

-- One entry goes to fewer tokens, or with the same tokens to a lower rank.
theorem body_descends (part : Part) (stream : Stream) : Descends part.rank stream part.body := by
  cases part with
  | program => exact .look rfl (.tail (by simp [Part.rank]))
  | functions place found => exact .taking (by simp [Part.rank]) fun _ => rfl
  | function => exact .look rfl (.expect _ _)
  | parameters => exact .look rfl (.ite (fun _ => .give _) (.tail (by simp [Part.rank])))
  | parameterList found => exact .taking (by simp [Part.rank]) fun _ => rfl
  | parameter => exact .look rfl (.expect _ _)
  | statements found =>
    refine .enter (by simp [Part.rank]) fun found later idle => ?_
    cases found with
    | none => exact .give _
    | some => cases idle
  | statement =>
    refine .look rfl (.ite (fun _ => .taking (by simp [Part.rank]) fun _ => rfl) (.look rfl (.ite (fun _ => ?_) (.give _))))
    exact .taking (by simp [Part.rank]) fun _ => rfl
  | declaration => exact .look rfl (.expect _ _)
  | expressionStatement => exact .look rfl (.taking (by simp [Part.rank, looseness]) fun _ => rfl)
  | returnStatement => exact .look rfl (.expect _ _)
  | chain tier => exact .look rfl (.taking (by simp [Part.rank]) fun _ => rfl)
  | operand tier =>
    have positive := looseness_pos tier
    simp only [Part.body]
    split
    · rename_i next below
      have looser := looseness_tighter below
      exact .tail (by simp only [Part.rank]; omega)
    · exact .tail (by simp only [Part.rank]; omega)
  | moreOperands tier place first found =>
    refine .look rfl (.ite (fun joined => .skip fun ended => ?_) (.give _))
    simp [Stream.nextIs, Stream.peek, ended, Reply.holds] at joined
  | primary =>
    cases ahead : stream.ahead with
    | nil => exact .look (answer_peek_nil ahead) (.refuse _)
    | cons token rest => exact .look (answer_peek ahead) (startedBy_descends token (by simp [ahead]))
  | invocation => exact .look rfl (.expect _ _)
  | argumentList found => exact .taking (by simp [Part.rank, looseness]) fun _ => rfl

-- An entry into a part, and one that is made on the way.
def Enters (outer reached : Part × Stream) : Prop := Comes outer.1.body outer.2 reached.1 reached.2

theorem enters_descends (path : Relation.TransGen Enters outer reached) :
    reached.2.remaining < outer.2.remaining ∨
      reached.2.remaining = outer.2.remaining ∧ reached.1.rank < outer.1.rank := by
  induction path with
  | single enters => exact body_descends outer.1 outer.2 enters
  | tail _ enters ih =>
    rename_i middle last _
    have next := body_descends middle.1 middle.2 enters
    omega

-- A part without what it has collected.
def Part.emptied : Part → Part
  | .functions _ _ => .functions none []
  | .parameterList _ => .parameterList []
  | .statements _ => .statements []
  | .moreOperands tier _ _ _ => .moreOperands tier none (.number none none) []
  | .argumentList _ => .argumentList []
  | other => other

theorem rank_emptied (part : Part) : part.emptied.rank = part.rank := by
  cases part <;> rfl

theorem run_reads (part : Part) (stream : Stream) (spare : Nat) (priced : ∀ found, part.price found ≤ spare)
    (lost : part.loss ≤ spare) :
    ∃ later, part.body.run (24 * stream.remaining + spare) stream =
      some ((part.reader stream.ahead).map Prod.fst, later) := by
  have fulfilled := fulfils part stream
  cases run : part.reader stream.ahead with
  | error refusal =>
    obtain ⟨n, later, ran, paid⟩ := fulfilled.refuses run
    refine ⟨later, run_mono ran ?_⟩
    simp only [worth] at paid
    omega
  | ok result =>
    obtain ⟨n, later, ran, -, paid⟩ := fulfilled.finds run
    have cheap := priced result.1
    refine ⟨later, run_mono ran ?_⟩
    simp only [worth] at paid
    omega

theorem price_le (part : Part) (found : part.Result) : part.price found ≤ 3 := by
  cases part with
  | chain tier | operand tier =>
    have bounded := looseness_le tier
    simp only [Part.price]
    omega
  | statement =>
    simp only [Part.price]
    split <;> decide
  | program | functions | function | parameters | parameterList | parameter | statements | declaration
  | expressionStatement | returnStatement | moreOperands | primary | invocation | argumentList => simp [Part.price]

theorem loss_le (part : Part) : part.loss ≤ 20 := by
  cases part with
  | chain tier | operand tier =>
    have bounded := looseness_le tier
    simp only [Part.loss]
    omega
  | program | functions | function | parameters | parameterList | parameter | statements | statement | declaration
  | expressionStatement | returnStatement | moreOperands | primary | invocation | argumentList => simp [Part.loss]

theorem program_reads (tokens : List Token) :
    (Part.program.reader tokens).map Prod.fst = Parse.program tokens := by
  simp only [Part.reader, sited, andThen, wholeFunctions, Parse.program]
  cases functions tokens <;> rfl

-- A part that has found something has moved the stream on.
theorem run_moves {part : Part} {found : part.Result} (ran : part.body.run n stream = some (.ok found, later)) :
    stream.position + part.least found ≤ later.position := by
  have taken := run_takes ran
  have counted := stream.length_tokens
  have counted' := later.length_tokens
  rw [run_tokens ran] at counted'
  omega

-- The program is read within so many steps for every token, and every part ends from wherever it starts. A part that
-- finds something moves the stream on by the tokens it takes. A part that is entered again on the way, by a loop or by
-- a recursion, has fewer tokens ahead.
theorem reading_ends (tokens : List Token) :
    (∃ later, Part.program.body.run (24 * tokens.length + 5) (.ofTokens tokens) = some (Parse.program tokens, later)) ∧
    (∀ (part : Part) (stream : Stream), (part.body.run (24 * stream.remaining + 20) stream).isSome) ∧
    (∀ (part : Part) (stream later : Stream) (n : Nat) (found : part.Result),
      part.body.run n stream = some (.ok found, later) → stream.position + part.least found ≤ later.position) ∧
    ∀ outer reached, Relation.TransGen Enters outer reached → reached.1.emptied = outer.1.emptied →
      reached.2.remaining < outer.2.remaining := by
  refine ⟨?_, fun part stream => ?_, fun part stream later n found ran => run_moves ran, ?_⟩
  · obtain ⟨later, ran⟩ := run_reads .program (.ofTokens tokens) 5 (fun _ => by simp [Part.price]) (by simp [Part.loss])
    refine ⟨later, ?_⟩
    rw [← program_reads]
    exact ran
  · obtain ⟨later, ran⟩ := run_reads part stream 20 (fun found => Int.le_trans (price_le part found) (by decide)) (loss_le part)
    rw [ran]
    rfl
  · intro outer reached path same
    have ranked : reached.1.rank = outer.1.rank := by rw [← rank_emptied, same, rank_emptied]
    rcases enters_descends path with less | ⟨-, below⟩
    · exact less
    · omega

theorem second_argument_has_fewer_tokens :
    let tokens := sampleTokens "1,2)"
    (∃ later, Part.program.body.run (24 * 4 + 5) (.ofTokens tokens) = some (Parse.program tokens, later)) ∧
      ∃ first middle later, (Part.chain .assign).body.run 30 (.ofTokens tokens) = some (.ok first, middle) ∧
        1 ≤ middle.position ∧
        Relation.TransGen Enters (.argumentList [], .ofTokens tokens) (.argumentList [first], later) ∧
        later.remaining < 4 := by
  intro tokens
  have counted : tokens.length = 4 := by decide +kernel
  have read : ((Part.chain .assign).body.run 30 (.ofTokens tokens)).any (fun outcome =>
      outcome.1.isOk && (outcome.2.answer (.check (.ofKind .comma))).1.holds) = true := by decide +kernel
  obtain ⟨⟨outcome, middle⟩, ran, joined⟩ := (Option.any_eq_true _ _).mp read
  obtain ⟨found, comma⟩ := Bool.and_eq_true_iff.mp joined
  obtain ⟨first, rfl⟩ := isOk_iff.mp found
  have entered : Enters (.argumentList [], .ofTokens tokens) (.argumentList [first], (middle.answer .advance).2) := by
    refine Comes.entered ran (.asked ?_)
    change Comes (if (middle.answer (.check (.ofKind .comma))).1.holds then _ else _) middle _ _
    rw [if_pos comma]
    exact .asked .now
  obtain ⟨whole, -, moved, fewer⟩ := reading_ends tokens
  rw [counted] at whole
  have forward : 0 + 1 ≤ middle.position := moved (.chain .assign) (.ofTokens tokens) middle 30 first ran
  have less := fewer _ _ (.single entered) rfl
  exact ⟨whole, first, middle, _, ran, forward, .single entered, counted ▸ less⟩

end Descent

end WordC
