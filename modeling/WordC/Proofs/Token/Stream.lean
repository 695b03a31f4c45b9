import WordC.Token.Stream

namespace WordC

-- The token that a reply hands out for good. A token that was only looked at is not handed out.
def Request.handsOut : Request → Reply → Option Token
  | .advance, .token found | .expect _, .token found => found
  | _, _ => none

-- Whether a request takes a token like this one if it comes next.
def Request.takes : Request → Lexeme → Bool
  | .advance, _ => true
  | .expect wanted, lexeme => wanted.metBy lexeme
  | _, _ => false

-- What a request that only looks sees from a position in a list.
def Request.sight? (tokens : List Token) (position : Nat) : Request → Option Reply
  | .peek => some (.token tokens[position]?)
  | .peekSecond => some (.token tokens[position + 1]?)
  | .remaining => some (.count (tokens.length - position))
  | .atEnd => some (.truth (tokens.length ≤ position))
  | .startsExpression => some (.truth (tokens[position]?.any fun token => token.lexeme.startsExpression))
  | .check pattern => some (.truth (tokens[position]?.any fun token => pattern.fits token.lexeme))
  | .advance | .expect _ => none

namespace Stream

-- The whole list, whatever has been read of it.
def tokens (stream : Stream) : List Token := stream.behind.reverse ++ stream.ahead

-- The stream after requests made one after the other.
def after (stream : Stream) : List Request → Stream
  | [] => stream
  | request :: rest => (stream.answer request).2.after rest

-- The tokens handed out on the way.
def handed (stream : Stream) : List Request → List Token
  | [] => []
  | request :: rest =>
    (request.handsOut (stream.answer request).1).toList ++ (stream.answer request).2.handed rest

-- The ways in which a request is answered over a list, each with the stream it leaves. What only looks or fails
-- leaves the very stream it was asked of.
inductive Answers (tokens : List Token) (stream : Stream) : Request → Reply → Stream → Prop where
  | looked (seen : request.sight? tokens stream.position = some reply) :
      Answers tokens stream request reply stream
  | taken (next : tokens[stream.position]? = some token) (takes : request.takes token.lexeme)
      (moved : later.position = stream.position + 1) (kept : later.tokens = tokens) :
      Answers tokens stream request (.token (some token)) later
  | ended (last : stream.position = tokens.length) : Answers tokens stream .advance (.token none) stream
  | refused (unmet : ∀ token, tokens[stream.position]? = some token → ¬wanted.metBy token.lexeme)
      (missing_iff : tokens[stream.position]? = none ↔ stream.position = tokens.length) :
      Answers tokens stream (.expect wanted) (.refused wanted tokens[stream.position]?) stream

theorem length_tokens (stream : Stream) : stream.position + stream.remaining = stream.tokens.length := by
  simp [tokens, position, remaining]

theorem take_tokens (stream : Stream) : stream.tokens.take stream.position = stream.behind.reverse := by
  simp [tokens, position]

theorem ahead_getElem? (stream : Stream) (offset : Nat) :
    stream.ahead[offset]? = stream.tokens[stream.position + offset]? := by
  rw [tokens, List.getElem?_append_right (by simp [position])]
  simp [position]

theorem peek_eq (stream : Stream) : stream.peek = stream.tokens[stream.position]? := by
  rw [peek, List.head?_eq_getElem?]
  exact stream.ahead_getElem? 0

theorem nextIs_eq (stream : Stream) (test : Lexeme → Bool) :
    stream.nextIs test = stream.tokens[stream.position]?.any fun token => test token.lexeme := by
  rw [nextIs, peek_eq]

theorem peek_eq_none_iff (stream : Stream) : stream.peek = none ↔ stream.position = stream.tokens.length := by
  have counted := stream.length_tokens
  rw [peek, List.head?_eq_none_iff, ← List.length_eq_zero_iff]
  simp only [remaining] at counted
  omega

section

variable {stream : Stream} {request : Request}

-- The token that is taken moves from ahead to behind, and the list stays as it is.
theorem answers_taken (next : stream.ahead = token :: rest) (takes : request.takes token.lexeme) :
    Answers stream.tokens stream request (.token (some token)) ⟨token :: stream.behind, rest⟩ := by
  have first : stream.peek = some token := by simp [peek, next]
  exact .taken (stream.peek_eq ▸ first) takes rfl (by simp [tokens, next])

theorem answers_advance (stream : Stream) :
    Answers stream.tokens stream .advance (.token stream.advance.1) stream.advance.2 := by
  unfold advance
  cases next : stream.ahead with
  | nil =>
    have ended : stream.peek = none := by simp [peek, next]
    exact .ended (stream.peek_eq_none_iff.mp ended)
  | cons token rest => exact answers_taken next rfl

theorem answers_expect (stream : Stream) (wanted : Wanted) :
    Answers stream.tokens stream (.expect wanted) (stream.expect wanted).1 (stream.expect wanted).2 := by
  unfold expect
  split
  · rename_i meets
    cases next : stream.ahead with
    | nil => simp [nextIs, peek, next] at meets
    | cons token rest =>
      simp only [advance, next]
      apply answers_taken next
      simpa [nextIs, peek, next, Request.takes] using meets
  · rename_i unmet
    rw [peek_eq]
    apply Answers.refused
    · intro token next met
      rw [nextIs_eq, next] at unmet
      exact unmet met
    · rw [← peek_eq]
      exact stream.peek_eq_none_iff

-- What one request does.
theorem answer_answers (stream : Stream) (request : Request) :
    Answers stream.tokens stream request (stream.answer request).1 (stream.answer request).2 := by
  have counted := stream.length_tokens
  cases request with
  | advance => exact answers_advance stream
  | expect wanted => exact answers_expect stream wanted
  | peek => exact .looked (by simp [Request.sight?, answer, peek_eq])
  | peekSecond => exact .looked (by simp [Request.sight?, answer, ahead_getElem?])
  | startsExpression => exact .looked (by simp [Request.sight?, answer, nextIs_eq])
  | check pattern => exact .looked (by simp [Request.sight?, answer, nextIs_eq])
  | remaining =>
    apply Answers.looked
    simp only [Request.sight?, answer, ← counted, Nat.add_sub_cancel_left]
  | atEnd =>
    apply Answers.looked
    simp only [Request.sight?, answer, ← counted, remaining]
    cases stream.ahead <;> simp

theorem Answers.kept (answers : Answers stream.tokens stream request reply later) : later.tokens = stream.tokens := by
  cases answers with
  | taken _ _ _ kept => exact kept
  | looked | ended | refused => rfl

theorem Answers.onward (answers : Answers whole stream request reply later) : stream.position ≤ later.position := by
  cases answers with
  | taken _ _ moved _ => omega
  | looked | ended | refused => exact Nat.le_refl _

-- A stream has moved on by what it handed out, and by nothing else.
theorem Answers.behind (answers : Answers stream.tokens stream request reply later) :
    stream.behind.reverse ++ (request.handsOut reply).toList = later.behind.reverse := by
  cases answers with
  | looked seen => cases request <;> simp_all [Request.sight?, Request.handsOut]
  | ended | refused => simp [Request.handsOut]
  | @taken token _ _ next takes moved kept =>
    have handed : request.handsOut (.token (some token)) = some token := by
      cases request <;> simp_all [Request.takes, Request.handsOut]
    rw [handed, ← take_tokens, ← take_tokens, kept, moved, List.take_add_one, next]

theorem after_tokens (stream : Stream) (requests : List Request) :
    (stream.after requests).tokens = stream.tokens := by
  induction requests generalizing stream with
  | nil => rfl
  | cons request rest ih => exact (ih _).trans (stream.answer_answers request).kept

theorem after_behind (stream : Stream) (requests : List Request) :
    stream.behind.reverse ++ stream.handed requests = (stream.after requests).behind.reverse := by
  induction requests generalizing stream with
  | nil => simp [handed, after]
  | cons request rest ih =>
    rw [handed, after, ← ih, ← (stream.answer_answers request).behind, List.append_assoc]

end

-- A stream over a list with the tokens that it has handed out so far.
structure Intact (tokens handed : List Token) (stream : Stream) : Prop where
  whole : stream.tokens = tokens
  inOrder : handed = tokens.take stream.position
  counted : stream.position + stream.remaining = tokens.length
  within : stream.position ≤ tokens.length

theorem requests_lose_nothing (tokens : List Token) (requests : List Request) (request : Request) :
    let stream := (ofTokens tokens).after requests
    Intact tokens ((ofTokens tokens).handed requests) stream ∧
      Answers tokens stream request (stream.answer request).1 (stream.answer request).2 := by
  intro stream
  have whole : stream.tokens = tokens := after_tokens (ofTokens tokens) requests
  have moved : (ofTokens tokens).handed requests = stream.behind.reverse := after_behind (ofTokens tokens) requests
  have counted := stream.length_tokens
  rw [whole] at counted
  refine ⟨⟨whole, ?_, counted, by omega⟩, ?_⟩
  · rw [moved, ← whole, take_tokens]
  · rw [← whole]
    exact stream.answer_answers request

end Stream

end WordC
