import WordC.Module.Machine
import WordC.Proofs.Lower.Correctness
import WordC.Proofs.Lower.WellFormed

namespace WordC.Machine

-- Slots that hold some word or other from the start.
def filledSlots (contents : Nat → Word) : Supply := fun slot => some (contents slot)

-- A frame after some instructions of a function. All that they left is there.
structure Ready (arguments : List String) (before : List Instr) (frame : Frame) : Prop where
  operands : ∀ operand, Available arguments before operand → ∃ word, frame.operand operand = some word
  slots : ∀ slot, .alloca slot ∈ before → ∃ word, frame.slots.lookup slot = some (some word)

section

variable {arguments : List String} {before : List Instr} {frame : Frame} {instruction : Instr}

theorem Ready.setRegister (ready : Ready arguments before frame) (left : instruction.word? = some name)
    (word : Word) : Ready arguments (before ++ [instruction]) (frame.setRegister name word) := by
  constructor
  · intro operand available
    cases operand with
    | constant value => exact ⟨_, rfl⟩
    | register other =>
      by_cases same : other = name
      · subst same
        exact ⟨word, Bindings.lookup_bind_self _ _ _⟩
      · have earlier : Available arguments before (.register other) := by
          rcases available with argument | ⟨given, member, left'⟩
          · exact .inl argument
          · rcases List.mem_append.mp member with old | new
            · exact .inr ⟨given, old, left'⟩
            · rw [List.mem_singleton.mp new, left] at left'
              exact absurd (Option.some.inj left').symm same
        obtain ⟨held, there⟩ := ready.operands _ earlier
        exact ⟨held, (Bindings.lookup_bind_other _ _ same).trans there⟩
  · intro slot opened
    rcases List.mem_append.mp opened with old | new
    · exact ready.slots slot old
    · rw [← List.mem_singleton.mp new] at left
      cases left

theorem Ready.setSlot (ready : Ready arguments before frame) (wordless : instruction.word? = none)
    (opens : ∀ opened, instruction = .alloca opened → opened = slot) (word : Word) :
    Ready arguments (before ++ [instruction]) (frame.setSlot slot (some word)) := by
  constructor
  · intro operand available
    apply ready.operands
    cases operand with
    | constant value => trivial
    | register name =>
      rcases available with argument | ⟨given, member, left⟩
      · exact .inl argument
      · rcases List.mem_append.mp member with old | new
        · exact .inr ⟨given, old, left⟩
        · rw [List.mem_singleton.mp new, wordless] at left
          cases left
  · intro other opened
    by_cases same : other = slot
    · subst same
      exact ⟨word, Bindings.lookup_bind_self _ _ _⟩
    · rcases List.mem_append.mp opened with old | new
      · obtain ⟨held, there⟩ := ready.slots other old
        exact ⟨held, (Bindings.lookup_bind_other _ _ same).trans there⟩
      · exact absurd (opens other (List.mem_singleton.mp new).symm) same

theorem operands_read (ready : Ready arguments before frame) {given : List Operand}
    (available : ∀ operand ∈ given, Available arguments before operand) :
    ∃ words, given.mapM frame.operand = some words ∧ words.length = given.length := by
  induction given with
  | nil => exact ⟨[], rfl, rfl⟩
  | cons first rest ih =>
    obtain ⟨word, here⟩ := ready.operands first (available first List.mem_cons_self)
    obtain ⟨words, later, length⟩ := ih fun operand member => available operand (List.mem_cons_of_mem _ member)
    refine ⟨word :: words, ?_, by simp [length]⟩
    rw [List.mapM_cons, here, later]
    rfl

end

theorem entered_ready {arguments : List String} {words : List Word} (distinct : arguments.Nodup)
    (length : words.length = arguments.length) : Ready arguments [] (.entered arguments words) := by
  constructor
  · intro operand available
    cases operand with
    | constant value => exact ⟨_, rfl⟩
    | register name =>
      rcases available with argument | ⟨_, none, _⟩
      · obtain ⟨word, -, held⟩ :=
          Lower.exists_of_mem_left (Lower.Simulation.entered_arguments distinct length) argument
        exact ⟨word, held⟩
      · cases none
  · intro slot opened
    cases opened

section

variable {m : Module} {code : Code} {contents : Nat → Word} {call : Name → List Word → Nat → Called}

-- Well-formed code finds all that it asks for, so a run of it ends with a value or as a call that it makes ends.
theorem run_ends (wellFormed : WellFormed m code) (Ends : Called → Prop) (values : ∀ result, Ends (.value result))
    (calls : ∀ result function given, .call result function given ∈ code.body →
      ∀ words opened, words.length = given.length → Ends (call function words opened))
    {before rest : List Instr} {value : Operand} (split : code.body = before ++ (rest ++ [.ret (some value)]))
    (goesOn : ∀ instruction ∈ rest, instruction.isReturn = false) {frame : Frame}
    (ready : Ready code.arguments before frame) (opened : Nat) :
    Ends (run (filledSlots contents) call (rest ++ [.ret (some value)]) frame opened) := by
  induction rest generalizing before frame opened with
  | nil =>
    obtain ⟨word, there⟩ := ready.operands value
      (wellFormed.operands before _ [] split value (by simp [Instr.operands]))
    simp only [List.nil_append, run, there]
    exact values _
  | cons instruction rest ih =>
    have available := wellFormed.operands before instruction _ split
    have open_ := wellFormed.slots before instruction _ split
    have further (frame' : Frame) (ready' : Ready code.arguments (before ++ [instruction]) frame') (count : Nat) :
        Ends (run (filledSlots contents) call (rest ++ [.ret (some value)]) frame' count) :=
      ih (by simpa using split) (fun other member => goesOn other (List.mem_cons_of_mem _ member)) ready' count
    cases instruction with
    | alloca result =>
      apply further
      exact ready.setSlot rfl (fun _ same => by cases same; rfl) _
    | store operand slot =>
      obtain ⟨word, there⟩ := ready.operands operand (available operand (by simp [Instr.operands]))
      obtain ⟨held, opened'⟩ := ready.slots slot (open_ slot rfl)
      simp only [List.cons_append, run, there, opened']
      apply further
      exact ready.setSlot rfl (fun _ same => by cases same) word
    | load result slot =>
      obtain ⟨held, opened'⟩ := ready.slots slot (open_ slot rfl)
      simp only [List.cons_append, run, opened']
      apply further
      exact ready.setRegister rfl held
    | arith op result left right =>
      obtain ⟨a, there⟩ := ready.operands left (available left (by simp [Instr.operands]))
      obtain ⟨b, there'⟩ := ready.operands right (available right (by simp [Instr.operands]))
      simp only [List.cons_append, run, there, there']
      apply further
      exact ready.setRegister rfl _
    | call result function given =>
      obtain ⟨words, there, length⟩ : ∃ words,
          given.mapM frame.operand = some words ∧ words.length = given.length := operands_read ready available
      have ends := calls result function given (by simp [split]) words opened length
      simp only [List.cons_append, run, there]
      generalize call function words opened = answer at ends ⊢
      cases answer with
      | value result =>
        obtain ⟨word, count⟩ := result
        apply further
        exact ready.setRegister rfl word
      | unassigned => exact ends
      | outOfFuel => exact ends
      | stuck => exact ends
    | ret operand => cases goesOn _ List.mem_cons_self

-- A run that ends with a value goes on behind every instruction but the return.
theorem run_value_later {supply : Supply} {frame : Frame} (goesOn : instruction.isReturn = false)
    (ended : run supply call (instruction :: rest) frame opened = .value result) :
    ∃ frame' count, run supply call rest frame' count = .value result := by
  cases instruction with
  | alloca slot => exact ⟨_, _, ended⟩
  | store operand slot =>
    unfold run at ended
    split at ended
    · exact ⟨_, _, ended⟩
    · cases ended
  | load register slot =>
    unfold run at ended
    split at ended
    · cases ended
    · cases ended
    · exact ⟨_, _, ended⟩
  | arith op register left right =>
    unfold run at ended
    split at ended
    · exact ⟨_, _, ended⟩
    · cases ended
  | call register function given =>
    unfold run at ended
    split at ended
    · cases ended
    · split at ended
      · exact ⟨_, _, ended⟩
      all_goals cases ended
  | ret operand => cases goesOn

-- There are no branches, so a run that ends with a value has made all its calls.
theorem called_of_run_value {supply : Supply} {frame : Frame} {rest : List Instr}
    (goesOn : ∀ instruction ∈ rest, instruction.isReturn = false)
    (ended : run supply call (rest ++ [last]) frame opened = .value result)
    (member : .call name function given ∈ rest) :
    ∃ words count answer, call function words count = .value answer := by
  induction rest generalizing frame opened with
  | nil => cases member
  | cons instruction rest ih =>
    rcases List.mem_cons.mp member with rfl | old
    · simp only [List.cons_append, run] at ended
      split at ended
      · cases ended
      · split at ended
        · rename_i answered
          exact ⟨_, _, _, answered⟩
        all_goals cases ended
    · obtain ⟨frame', count, later⟩ := run_value_later (goesOn instruction List.mem_cons_self) ended
      exact ih (fun other listed => goesOn other (List.mem_cons_of_mem _ listed)) later old

-- Answers to more calls do not change a run that ends with a value.
theorem run_value_mono {supply : Supply} {call' : Name → List Word → Nat → Called} {code : List Instr}
    {frame : Frame}
    (more : ∀ function words count answer, call function words count = .value answer →
      call' function words count = .value answer)
    (ended : run supply call code frame opened = .value result) :
    run supply call' code frame opened = .value result := by
  induction code generalizing frame opened with
  | nil => cases ended
  | cons instruction rest ih =>
    cases instruction with
    | alloca slot => exact ih ended
    | store operand slot =>
      unfold run at ended ⊢
      split at ended
      · exact ih ended
      · cases ended
    | load register slot =>
      unfold run at ended ⊢
      split at ended
      · cases ended
      · cases ended
      · exact ih ended
    | arith op register left right =>
      unfold run at ended ⊢
      split at ended
      · exact ih ended
      · cases ended
    | call register function given =>
      unfold run at ended ⊢
      split at ended
      · cases ended
      · split at ended
        · rename_i answered
          rw [more _ _ _ _ answered]
          exact ih ended
        all_goals cases ended
    | ret operand =>
      cases operand with
      | none => cases ended
      | some value => exact ended

end

-- A value that is reached within a bound on the depth of calls is reached within any larger one.
theorem call_value_mono {m : Module} {supply : Supply} (ended : call m supply fuel name words opened = .value result)
    (deeper : fuel ≤ fuel') : call m supply fuel' name words opened = .value result := by
  induction fuel generalizing fuel' name words opened result with
  | zero => cases ended
  | succ fuel ih =>
    obtain ⟨fuel', rfl⟩ : ∃ less, fuel' = less + 1 := ⟨fuel' - 1, by omega⟩
    unfold call at ended ⊢
    split at ended
    · cases ended
    · split at ended
      · cases ended
      · rename_i fits
        rw [if_neg fits]
        exact run_value_mono (fun _ _ _ _ answered => ih answered (by omega)) ended

end WordC.Machine
