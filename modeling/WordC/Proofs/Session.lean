import WordC.Session

namespace WordC

-- A question to the world outside, with its answer.
inductive Event where
  | looked (path : String) (answer : Except Trouble FileSort)
  | read (path : String) (answer : Except Trouble (List UInt8))
  | wrote (path content : String) (answer : Except Trouble Unit)
  | executed (runner : Runner) (m : Module) (answer : Logged Int)

-- The trouble that reading or writing came to.
def Event.trouble? : Event → Option Trouble
  | .read _ (.error trouble) | .wrote _ _ (.error trouble) => some trouble
  | _ => none

namespace Session

-- The ways in which a session can go. Nothing is assumed of the answers.
inductive Comes : Session α → List Event → α → Prop where
  | done : Comes (.done result) [] result
  | look : Comes (next answer) events result → Comes (.look path next) (.looked path answer :: events) result
  | read : Comes (next answer) events result → Comes (.read path next) (.read path answer :: events) result
  | write : Comes (next answer) events result →
      Comes (.write path content next) (.wrote path content answer :: events) result
  | execute : Comes (next answer) events result →
      Comes (.execute runner m next) (.executed runner m answer :: events) result

theorem comes_look (comes : (Session.look path next).Comes events result) :
    ∃ answer later, events = .looked path answer :: later ∧ (next answer).Comes later result := by
  cases comes with
  | look comes => exact ⟨_, _, rfl, comes⟩

theorem comes_read (comes : (Session.read path next).Comes events result) :
    ∃ answer later, events = .read path answer :: later ∧ (next answer).Comes later result := by
  cases comes with
  | read comes => exact ⟨_, _, rfl, comes⟩

theorem comes_write (comes : (Session.write path content next).Comes events result) :
    ∃ answer later, events = .wrote path content answer :: later ∧ (next answer).Comes later result := by
  cases comes with
  | write comes => exact ⟨_, _, rfl, comes⟩

theorem comes_andThen {first : Session α} {after : α → Session β} (comes : (first.andThen after).Comes events result) :
    ∃ earlier later reached, events = earlier ++ later ∧ first.Comes earlier reached ∧
      (after reached).Comes later result := by
  induction first generalizing events with
  | done reached => exact ⟨[], events, reached, rfl, .done, comes⟩
  | look path next ih =>
    obtain ⟨answer, events, rfl, onward⟩ := comes_look comes
    obtain ⟨earlier, later, reached, rfl, first, second⟩ := ih _ onward
    exact ⟨_ :: earlier, later, reached, rfl, .look first, second⟩
  | read path next ih =>
    obtain ⟨answer, events, rfl, onward⟩ := comes_read comes
    obtain ⟨earlier, later, reached, rfl, first, second⟩ := ih _ onward
    exact ⟨_ :: earlier, later, reached, rfl, .read first, second⟩
  | write path content next ih =>
    obtain ⟨answer, events, rfl, onward⟩ := comes_write comes
    obtain ⟨earlier, later, reached, rfl, first, second⟩ := ih _ onward
    exact ⟨_ :: earlier, later, reached, rfl, .write first, second⟩
  | execute runner m next ih =>
    cases comes with
    | execute comes =>
      obtain ⟨earlier, later, reached, rfl, first, second⟩ := ih _ comes
      exact ⟨_ :: earlier, later, reached, rfl, .execute first, second⟩

-- The answers of a file system are among them.
theorem comes_play (execute : Runner → Module → Logged Int) (session : Session α) (fs : FileSystem) :
    ∃ events, session.Comes events (session.play execute fs).1 := by
  induction session generalizing fs with
  | done result => exact ⟨[], .done⟩
  | look path next ih =>
    obtain ⟨events, comes⟩ := ih _ fs
    exact ⟨_, .look comes⟩
  | read path next ih =>
    obtain ⟨events, comes⟩ := ih _ fs
    exact ⟨_, .read comes⟩
  | write path content next ih =>
    simp only [play]
    cases fs.write path (encode content) with
    | error trouble =>
      obtain ⟨events, comes⟩ := ih _ fs
      exact ⟨_, .write comes⟩
    | ok later =>
      obtain ⟨events, comes⟩ := ih _ later
      exact ⟨_, .write comes⟩
  | execute runner m next ih =>
    obtain ⟨events, comes⟩ := ih _ fs
    exact ⟨_, .execute comes⟩

theorem play_andThen (execute : Runner → Module → Logged Int) (first : Session α) (after : α → Session β)
    (fs : FileSystem) :
    (first.andThen after).play execute fs =
      (after (first.play execute fs).1).play execute (first.play execute fs).2 := by
  induction first generalizing fs with
  | done result => rfl
  | look path next ih => exact ih _ fs
  | read path next ih => exact ih _ fs
  | write path content next ih =>
    simp only [andThen, play]
    cases fs.write path (encode content) with
    | error trouble => exact ih _ fs
    | ok later => exact ih _ later
  | execute runner m next ih => exact ih _ fs

end Session

end WordC
