namespace WordC

-- A finite map from names to things. A later binding of a name replaces the earlier one.
structure Bindings (κ : Type) (α : Type) where
  entries : List (κ × α)
deriving Repr

namespace Bindings

variable {κ α : Type} [DecidableEq κ]

def empty : Bindings κ α := ⟨[]⟩

def lookup (b : Bindings κ α) (name : κ) : Option α :=
  (b.entries.find? fun entry => entry.1 = name).map Prod.snd

def contains (b : Bindings κ α) (name : κ) : Bool := (b.lookup name).isSome

def bind (b : Bindings κ α) (name : κ) (thing : α) : Bindings κ α :=
  ⟨(name, thing) :: b.entries.filter fun entry => entry.1 ≠ name⟩

def size (b : Bindings κ α) : Nat := b.entries.length

@[simp] theorem lookup_empty (name : κ) : (empty : Bindings κ α).lookup name = none := rfl

@[simp] theorem lookup_bind_self (b : Bindings κ α) (name : κ) (thing : α) :
    (b.bind name thing).lookup name = some thing := by
  simp [bind, lookup]

theorem lookup_bind_other (b : Bindings κ α) {name other : κ} (thing : α) (apart : other ≠ name) :
    (b.bind name thing).lookup other = b.lookup other := by
  have same : (fun entry : κ × α =>
      decide (decide (entry.1 ≠ name) = true ∧ decide (entry.1 = other) = true)) =
      fun entry => decide (entry.1 = other) := by
    funext entry
    by_cases there : entry.1 = other <;> simp [there, apart]
  simp only [bind, lookup, List.find?_cons, Ne.symm apart, decide_false, List.find?_filter, same]

@[simp] theorem bind_bind_self (b : Bindings κ α) (name : κ) (first second : α) :
    (b.bind name first).bind name second = b.bind name second := by
  simp [bind]

end Bindings

end WordC
