import Mathlib.Data.List.Nodup
import WordC.Module.Text

namespace WordC

-- The values that an instruction works on, its slot aside.
def Instr.operands : Instr → List Operand
  | .alloca _ | .load _ _ => []
  | .store value _ => [value]
  | .arith _ _ left right => [left, right]
  | .call _ _ arguments => arguments
  | .ret value => value.toList

def Instr.slot? : Instr → Option String
  | .store _ slot | .load _ slot => some slot
  | .alloca _ | .arith _ _ _ _ | .call _ _ _ | .ret _ => none

-- The word that an instruction leaves for later ones. A slot is none.
def Instr.word? : Instr → Option String
  | .load result _ | .arith _ result _ _ | .call result _ _ => some result
  | .alloca _ | .store _ _ | .ret _ => none

def Instr.isReturn : Instr → Bool
  | .ret _ => true
  | .alloca _ | .store _ _ | .load _ _ | .arith _ _ _ _ | .call _ _ _ => false

-- An operand that is there after some instructions of a function with these arguments.
def Available (arguments : List String) (before : List Instr) : Operand → Prop
  | .constant _ => True
  | .register name => name ∈ arguments ∨ ∃ instruction ∈ before, instruction.word? = some name

-- All names that a function gives: to its arguments, its block, and what its instructions leave.
def Code.givenNames (code : Code) : List String :=
  code.arguments ++ code.label :: code.body.filterMap Instr.result?

-- The code of a function that can stand in a module. What an instruction refers to comes before it, and every
-- name is written in one way and stands for one thing.
structure WellFormed (m : Module) (code : Code) : Prop where
  closed : ∃ front value, code.body = front ++ [.ret (some value)] ∧
    ∀ instruction ∈ front, instruction.isReturn = false
  operands : ∀ before instruction after, code.body = before ++ instruction :: after →
    ∀ operand ∈ instruction.operands, Available code.arguments before operand
  slots : ∀ before instruction after, code.body = before ++ instruction :: after →
    ∀ slot, instruction.slot? = some slot → .alloca slot ∈ before
  calls : ∀ result function given, .call result function given ∈ code.body →
    ∃ callee ∈ m.functions, callee.name = function ∧ callee.arity = given.length
  distinct : (code.givenNames.map escapeName).Nodup

theorem Available.later {operand : Operand} (there : Available arguments before operand) (more : List Instr) :
    Available arguments (before ++ more) operand := by
  cases operand with
  | constant => trivial
  | register name =>
    rcases there with argument | ⟨instruction, member, left⟩
    · exact .inl argument
    · exact .inr ⟨instruction, List.mem_append_left _ member, left⟩

theorem available_word {instruction : Instr} (left : instruction.word? = some name) :
    Available arguments (before ++ [instruction]) (.register name) :=
  .inr ⟨instruction, by simp, left⟩

-- How one character is written inside a quoted name.
def escapeChar (c : Char) : List Char :=
  if c = '\\' then ['\\', '5', 'c'] else if c = '\x22' then ['\\', '2', '2'] else [c]

theorem toList_escapeName (name : String) : (escapeName name).toList = name.toList.flatMap escapeChar := by
  simp only [escapeName, String.toList_join, List.flatMap_map]
  refine List.flatMap_congr fun c _ => ?_
  unfold escapeChar
  split
  · rfl
  · split
    · rfl
    · simp

theorem escapeChar_cases (c : Char) :
    c = '\\' ∧ escapeChar c = ['\\', '5', 'c'] ∨ c = '\x22' ∧ escapeChar c = ['\\', '2', '2'] ∨
      c ≠ '\\' ∧ escapeChar c = [c] := by
  unfold escapeChar
  split
  · exact .inl ⟨‹_›, rfl⟩
  · split
    · exact .inr (.inl ⟨‹_›, rfl⟩)
    · exact .inr (.inr ⟨‹_›, rfl⟩)

theorem escapeChar_ne_nil (c : Char) : escapeChar c ≠ [] := by
  rcases escapeChar_cases c with ⟨_, written⟩ | ⟨_, written⟩ | ⟨_, written⟩ <;> simp [written]

-- A backslash stands only at the front of a written character, so two texts are cut at the same places.
theorem escapeChar_append_inj (same : escapeChar c ++ rest = escapeChar d ++ rest') : c = d ∧ rest = rest' := by
  rcases escapeChar_cases c with ⟨here, written⟩ | ⟨here, written⟩ | ⟨here, written⟩ <;>
    rcases escapeChar_cases d with ⟨there, written'⟩ | ⟨there, written'⟩ | ⟨there, written'⟩ <;>
    rw [written, written'] at same <;> grind

theorem flatMap_escapeChar_injective : Function.Injective (List.flatMap escapeChar) := by
  intro text other same
  induction text generalizing other with
  | nil =>
    cases other with
    | nil => rfl
    | cons d rest' => simp [escapeChar_ne_nil] at same
  | cons c rest ih =>
    cases other with
    | nil => simp [escapeChar_ne_nil] at same
    | cons d rest' =>
      simp only [List.flatMap_cons] at same
      obtain ⟨here, later⟩ := escapeChar_append_inj same
      rw [here, ih later]

theorem escapeName_injective : Function.Injective escapeName := by
  intro name other same
  have written := congrArg String.toList same
  rw [toList_escapeName, toList_escapeName] at written
  exact String.toList_inj.mp (flatMap_escapeChar_injective written)

end WordC
