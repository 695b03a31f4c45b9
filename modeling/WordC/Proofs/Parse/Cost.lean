import WordC.Proofs.Parse.Reader
import WordC.Proofs.Parse.Script

namespace WordC

-- The question whether a token meets a demand.
def Wanted.pattern : Wanted → Pattern
  | .number => .ofKind .number
  | .identifier => .ofKind .identifier
  | .typeName => .ofKind .typeName
  | .comma => .ofKind .comma
  | .semicolon => .ofKind .semicolon
  | .ret => .ofKind .ret
  | .operator none => .ofKind .operator
  | .bracket none => .ofKind .bracket
  | .parenthesis none => .ofKind .parenthesis
  | .operator (some symbol) => .exactly (.operator (some symbol))
  | .bracket (some symbol) => .exactly (.bracket (some symbol))
  | .parenthesis (some symbol) => .exactly (.parenthesis (some symbol))

theorem Wanted.fits_pattern (wanted : Wanted) (lexeme : Lexeme) :
    wanted.pattern.fits lexeme = wanted.metBy lexeme := by
  cases wanted with
  | operator symbol | bracket symbol | parenthesis symbol =>
    cases symbol <;> cases lexeme <;> simp [pattern, Pattern.fits, metBy, Lexeme.kind, eq_comm]
  | number | identifier | typeName | comma | semicolon | ret => cases lexeme <;> rfl

end WordC

namespace WordC.Parse

-- A reader that is told where it starts.
def Reader.sited (read : Option Location → Reader α) : Reader α := fun tokens => read (here tokens) tokens

-- A reader that takes so many tokens at least, by what it finds.
def Reader.Takes (least : α → Nat) (read : Reader α) : Prop :=
  ∀ ⦃tokens found rest⦄, read tokens = .ok (found, rest) → rest.length + least found ≤ tokens.length

open Reader

theorem andThen_eq_error {first : Reader α} {next : α → Reader β} :
    first.andThen next tokens = .error refusal ↔
      first tokens = .error refusal ∨
        ∃ found rest, first tokens = .ok (found, rest) ∧ next found rest = .error refusal := by
  unfold andThen
  cases first tokens with
  | error refusal => simp
  | ok result => simp [Prod.ext_iff, and_assoc]

theorem take_eq_error {test : Lexeme → Bool} {refuse : Option Token → Refusal} :
    take test refuse tokens = .error refusal ↔
      (tokens.head?.any fun token => test token.lexeme) = false ∧ refuse tokens.head? = refusal := by
  cases tokens with
  | nil => simp [take]
  | cons token rest =>
    simp only [take]
    split <;> simp_all

theorem takes_take {test : Lexeme → Bool} {refuse : Option Token → Refusal} :
    Takes (fun _ => 1) (take test refuse) := by
  intro tokens found rest run
  obtain ⟨rfl, -⟩ := take_eq_ok.mp run
  exact Nat.le_refl _

theorem andThen_assoc (first : Reader α) (next : α → Reader β) (last : β → Reader γ) :
    (first.andThen next).andThen last = first.andThen fun found => (next found).andThen last := by
  funext tokens
  unfold andThen
  cases first tokens <;> rfl

theorem give_andThen (found : α) (next : α → Reader β) : (give found).andThen next = next found := rfl

theorem andThen_give (read : Reader α) : read.andThen give = read := by
  funext tokens
  unfold andThen
  cases read tokens <;> rfl

theorem choose_andThen (test : Option Token → Bool) (yes no : Reader α) (next : α → Reader β) :
    (choose test yes no).andThen next = choose test (yes.andThen next) (no.andThen next) := by
  funext tokens
  simp only [andThen, choose]
  by_cases passed : test tokens.head? = true <;> simp only [passed, if_true, if_false, Bool.false_eq_true]

theorem placed_andThen (read : Reader α) (next : Option Location × α → Reader β) :
    read.placed.andThen next = sited fun place => read.andThen fun found => next (place, found) := by
  funext tokens
  simp only [andThen, placed, sited]
  cases read tokens <;> rfl

end WordC.Parse

namespace WordC.Descent
open Parse Parse.Reader Script

theorem answer_check (stream : Stream) (wanted : Wanted) :
    stream.answer (.check wanted.pattern) = (.truth (meets wanted stream.ahead.head?), stream) := by
  simp only [Stream.answer, Stream.nextIs, Stream.peek, meets, Wanted.fits_pattern]

theorem answer_peek {stream : Stream} (next : stream.ahead = token :: rest) :
    stream.answer .peek = (.token (some token), stream) := by
  simp [Stream.answer, Stream.peek, next]

theorem answer_peek_nil {stream : Stream} (ended : stream.ahead = []) : stream.answer .peek = (.token none, stream) := by
  simp [Stream.answer, Stream.peek, ended]

theorem answer_advance {stream : Stream} (next : stream.ahead = token :: rest) :
    stream.answer .advance = (.token (some token), ⟨token :: stream.behind, rest⟩) := by
  simp [Stream.answer, Stream.advance, next]

theorem answer_atEnd (stream : Stream) : stream.answer .atEnd = (.truth stream.ahead.head?.isNone, stream) := by
  simp only [Stream.answer]
  cases stream.ahead <;> rfl

theorem answer_expect (stream : Stream) (wanted : Wanted) :
    (∃ token rest, stream.ahead = token :: rest ∧ wanted.metBy token.lexeme ∧
      stream.answer (.expect wanted) = (.token (some token), ⟨token :: stream.behind, rest⟩)) ∨
    meets wanted stream.ahead.head? = false ∧
      stream.answer (.expect wanted) = (.refused wanted stream.peek, stream) := by
  cases met : stream.nextIs wanted.metBy with
  | true =>
    cases next : stream.ahead with
    | nil => simp [Stream.nextIs, Stream.peek, next] at met
    | cons token rest =>
      refine .inl ⟨token, rest, rfl, ?_, ?_⟩
      · simpa [Stream.nextIs, Stream.peek, next] using met
      · simp [Stream.answer, Stream.expect, met, Stream.advance, next]
  | false => exact .inr ⟨met, by simp [Stream.answer, Stream.expect, met]⟩

-- Every token that is left can pay for so many steps.
def worth (stream : Stream) : Int := 24 * stream.remaining

theorem worth_taken {stream : Stream} (next : stream.ahead = token :: rest) :
    worth ⟨token :: stream.behind, rest⟩ = worth stream - 24 := by
  simp only [worth, Stream.remaining, next, List.length_cons]
  omega

-- A script that does with a stream what a reader does with the tokens ahead. The tokens it takes pay for its steps,
-- up to a price that goes by what it finds. When it refuses, all tokens pay, up to a loss.
structure Does (stream : Stream) (price : α → Int) (loss : Int) (script : Script α) (read : Reader α) : Prop where
  finds : ∀ ⦃found rest⦄, read stream.ahead = .ok (found, rest) →
    ∃ n later, script.run n stream = some (.ok found, later) ∧ later.ahead = rest ∧
      n + worth later ≤ worth stream + price found
  refuses : ∀ ⦃refusal⦄, read stream.ahead = .error refusal →
    ∃ n later, script.run n stream = some (.error refusal, later) ∧ n ≤ worth stream + loss

namespace Does

variable {stream : Stream} {price price' : α → Int} {loss loss' : Int} {script : Script α} {read : Reader α}

theorem mono (does : Does stream price loss script read) (dearer : ∀ found, price found ≤ price' found)
    (more : loss ≤ loss') : Does stream price' loss' script read where
  finds := by
    intro found rest run
    obtain ⟨n, later, ran, left, paid⟩ := does.finds run
    exact ⟨n, later, ran, left, Int.le_trans paid (Int.add_le_add_left (dearer found) _)⟩
  refuses := by
    intro refusal run
    obtain ⟨n, later, ran, paid⟩ := does.refuses run
    exact ⟨n, later, ran, Int.le_trans paid (Int.add_le_add_left more _)⟩

theorem give {found : α} (free : 0 ≤ price found) : Does stream price loss (pure found) (Reader.give found) where
  finds := by
    intro other rest run
    cases run
    exact ⟨0, stream, rfl, rfl, by omega⟩
  refuses := by
    intro refusal run
    cases run

theorem refuse (refused : read stream.ahead = .error refusal) (free : 0 ≤ loss) :
    Does stream price loss (.refuse refusal) read where
  finds := by
    intro found rest run
    rw [refused] at run
    cases run
  refuses := by
    intro other run
    rw [refused] at run
    cases run
    exact ⟨0, stream, rfl, by simp only [worth]; omega⟩

-- One request, after which another reader goes on from where the stream is.
theorem ask {next : Reply → Script α} {read' : Reader α} (answered : stream.answer request = (reply, later))
    (same : read stream.ahead = read' later.ahead)
    (onward : Does later (fun found => price found - 1 + (worth stream - worth later))
      (loss - 1 + (worth stream - worth later)) (next reply) read') :
    Does stream price loss (.ask request next) read where
  finds := by
    intro found rest run
    obtain ⟨n, last, ran, left, paid⟩ := onward.finds (same.symm.trans run)
    refine ⟨n + 1, last, ?_, left, by omega⟩
    rw [run_ask, answered]
    exact ran
  refuses := by
    intro refusal run
    obtain ⟨n, last, ran, paid⟩ := onward.refuses (same.symm.trans run)
    refine ⟨n + 1, last, ?_, by omega⟩
    rw [run_ask, answered]
    exact ran

theorem look {next : Reply → Script α} {read' : Reader α} (answered : stream.answer request = (reply, stream))
    (same : read stream.ahead = read' stream.ahead)
    (onward : Does stream (fun found => price found - 1) (loss - 1) (next reply) read') :
    Does stream price loss (.ask request next) read :=
  ask answered same (onward.mono (fun _ => by omega) (by omega))

theorem skip {read' : Reader α} (next : stream.ahead = token :: rest) (same : read stream.ahead = read' rest)
    (onward : Does ⟨token :: stream.behind, rest⟩ (fun found => price found + 23) (loss + 23) script read') :
    Does stream price loss (do Script.skip; script) read := by
  have taken := worth_taken next
  exact ask (answer_advance next) same (onward.mono (fun _ => by omega) (by omega))

theorem enter {part : Part} {read : Reader part.Result} {price : part.Result → Int}
    (does : Does stream price loss part.body read) :
    Does stream (fun found => price found + 1) (loss + 1) (Script.part part) read where
  finds := by
    intro found rest run
    obtain ⟨n, later, ran, left, paid⟩ := does.finds run
    refine ⟨n + 1, later, ?_, left, by omega⟩
    rw [Script.part, run_enter]
    exact run_bind_ok ran (m := 0) rfl
  refuses := by
    intro refusal run
    obtain ⟨n, later, ran, paid⟩ := does.refuses run
    refine ⟨n + 1, later, ?_, by omega⟩
    rw [Script.part, run_enter]
    exact run_bind_error ran

theorem bind {next : α → Script β} {nextRead : α → Reader β} {price' : β → Int} {least : α → Nat}
    (does : Does stream price loss script read) (takes : Takes least read) (covered : loss ≤ loss')
    (onward : ∀ found later, later.remaining + least found ≤ stream.remaining →
      Does later (fun result => price' result - price found) (loss' - price found) (next found) (nextRead found)) :
    Does stream price' loss' (script >>= next) (read.andThen nextRead) where
  finds := by
    intro result rest run
    obtain ⟨found, between, run, run'⟩ := andThen_eq_ok.mp run
    have taken := takes run
    obtain ⟨n, middle, ran, rfl, paid⟩ := does.finds run
    obtain ⟨m, later, ran', left, paid'⟩ := (onward found middle taken).finds run'
    exact ⟨n + m, later, run_bind_ok ran ran', left, by omega⟩
  refuses := by
    intro refusal run
    rcases andThen_eq_error.mp run with run | ⟨found, between, run, run'⟩
    · obtain ⟨n, later, ran, paid⟩ := does.refuses run
      exact ⟨n, later, run_bind_error ran, by omega⟩
    · have taken := takes run
      obtain ⟨n, middle, ran, rfl, paid⟩ := does.finds run
      obtain ⟨m, later, ran', paid'⟩ := (onward found middle taken).refuses run'
      exact ⟨n + m, later, run_bind_ok ran ran', by omega⟩

theorem sited {next : Option Location → Script α} {read : Option Location → Reader α}
    (onward : Does stream (fun found => price found - 1) (loss - 1) (next (here stream.ahead)) (read (here stream.ahead))) :
    Does stream price loss (place >>= next) (Reader.sited read) := by
  have same : Reader.sited read stream.ahead = read (here stream.ahead) stream.ahead := rfl
  exact look rfl same onward

theorem choose {test : Option Token → Bool} {one other : Script α} {read' : Reader α}
    (answered : stream.answer request = (.truth (test stream.ahead.head?), stream))
    (yes : test stream.ahead.head? = true → Does stream (fun found => price found - 1) (loss - 1) one read)
    (no : Does stream (fun found => price found - 1) (loss - 1) other read') :
    Does stream price loss (holds request >>= fun b => if b then one else other) (Reader.choose test read read') := by
  cases passed : test stream.ahead.head? with
  | true =>
    rw [passed] at answered
    exact look answered (if_pos passed) (yes passed)
  | false =>
    rw [passed] at answered
    exact look answered (if_neg (ne_true_of_eq_false passed)) no

end Does

-- A mark that is asked for, and taken if it is there.
theorem Does.joined {stream : Stream} (wanted : Wanted) {price : α → Int} {one other : Script α} {read read' : Reader α}
    (yes : ∀ later, later.remaining < stream.remaining →
      Does later (fun found => price found + 22) (loss + 22) one read)
    (no : Does stream (fun found => price found - 1) (loss - 1) other read') :
    Does stream price loss (holds (.check wanted.pattern) >>= fun b => if b then do Script.skip; one else other)
      (Reader.choose (meets wanted) ((demand wanted).andThen fun _ => read) read') := by
  refine .choose (answer_check stream wanted) (fun met => ?_) no
  cases next : stream.ahead with
  | nil => simp [meets, next] at met
  | cons token rest =>
    have same : (demand wanted).andThen (fun _ => read) stream.ahead = read rest := by
      have taken : demand wanted stream.ahead = .ok (token, rest) := by
        refine demand_eq_ok.mpr ⟨next, ?_⟩
        simpa [meets, next] using met
      rw [andThen, taken]
    have less : rest.length < stream.remaining := by simp [Stream.remaining, next]
    refine .skip next same ?_
    exact (yes ⟨token :: stream.behind, rest⟩ less).mono (fun _ => by omega) (by omega)

theorem does_expect (wanted : Wanted) : Does stream (fun _ => -23) 1 (Script.expect wanted) (demand wanted) := by
  rcases answer_expect stream wanted with ⟨token, rest, next, met, answered⟩ | ⟨unmet, answered⟩
  · have same : demand wanted stream.ahead = Reader.give token rest := demand_eq_ok.mpr ⟨next, met⟩
    have taken := worth_taken next
    exact .ask answered same (.give (by omega))
  · have refused : demand wanted stream.ahead = .error (.unmet wanted stream.peek) := take_eq_error.mpr ⟨unmet, rfl⟩
    exact .look answered rfl (.refuse refused (by decide))

theorem Does.demanded {stream : Stream} {wanted : Wanted} {price : α → Int} {next : Token → Script α}
    {nextRead : Token → Reader α} (covered : 1 ≤ loss)
    (onward : ∀ token later, later.remaining < stream.remaining →
      Does later (fun found => price found + 23) (loss + 23) (next token) (nextRead token)) :
    Does stream price loss (Script.expect wanted >>= next) ((demand wanted).andThen nextRead) :=
  (does_expect wanted).bind takes_take covered fun token later less =>
    (onward token later less).mono (fun _ => by omega) (by omega)

theorem does_newName : Does stream (fun _ => -22) 2 newName (take Wanted.identifier.metBy nameRefusal) := by
  have answered := answer_check stream (.operator (some "*"))
  cases star : meets (.operator (some "*")) stream.ahead.head? with
  | true =>
    rw [star] at answered
    cases next : stream.ahead with
    | nil => simp [meets, next] at star
    | cons token rest =>
      have starred : token.lexeme = .operator (some "*") := by simpa [meets, next] using star
      have refused : take Wanted.identifier.metBy nameRefusal stream.ahead = .error (.pointer token) := by
        simp [next, take, nameRefusal, starred, Wanted.metBy]
      exact .look answered rfl (.look (answer_peek next) rfl (.refuse refused (by decide)))
  | false =>
    rw [star] at answered
    have same : take Wanted.identifier.metBy nameRefusal stream.ahead = demand .identifier stream.ahead := by
      cases next : stream.ahead with
      | nil => rfl
      | cons token rest =>
        rw [next] at star
        have plainly : (Wanted.operator (some "*")).metBy token.lexeme = false := star
        simp only [demand, take, nameRefusal, plainly, if_false, Bool.false_eq_true]
    exact .look answered same (does_expect _)

end WordC.Descent
