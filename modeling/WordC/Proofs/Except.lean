import Mathlib.Data.List.Forall2

namespace WordC

variable {ε α β : Type}

@[simp] theorem ok_bind (reached : α) (next : α → Except ε β) : (Except.ok reached >>= next) = next reached := rfl

theorem isOk_iff {first : Except ε α} : first.isOk = true ↔ ∃ result, first = .ok result := by
  cases first with
  | error cause => exact ⟨nofun, nofun⟩
  | ok result => exact ⟨fun _ => ⟨result, rfl⟩, fun _ => rfl⟩

theorem bind_eq_ok {first : Except ε α} {next : α → Except ε β} {result : β} :
    (first >>= next) = .ok result ↔ ∃ reached, first = .ok reached ∧ next reached = .ok result := by
  cases first <;> simp [bind, Except.bind]

theorem bind_eq_error {first : Except ε α} {next : α → Except ε β} {cause : ε} :
    (first >>= next) = .error cause ↔
      first = .error cause ∨ ∃ reached, first = .ok reached ∧ next reached = .error cause := by
  cases first <;> simp [bind, Except.bind]

theorem map_eq_ok {first : Except ε α} {change : α → β} {result : β} :
    first.map change = .ok result ↔ ∃ reached, first = .ok reached ∧ change reached = result := by
  cases first <;> simp [Except.map]

theorem map_eq_error {first : Except ε α} {change : α → β} {cause : ε} :
    first.map change = .error cause ↔ first = .error cause := by
  cases first <;> simp [Except.map]

theorem mapError_eq_error {ε' : Type} {first : Except ε α} {change : ε → ε'} {result : ε'} :
    first.mapError change = .error result ↔ ∃ cause, first = .error cause ∧ change cause = result := by
  cases first <;> simp [Except.mapError]

theorem mapError_eq_ok {ε' : Type} {first : Except ε α} {change : ε → ε'} {result : α} :
    first.mapError change = .ok result ↔ first = .ok result := by
  cases first <;> simp [Except.mapError]

theorem mapM_mapError {ε' : Type} {each : α → Except ε β} {each' : α → Except ε' β} {change : ε → ε'}
    {given : List α} (same : ∀ x ∈ given, each' x = (each x).mapError change) :
    given.mapM each' = (given.mapM each).mapError change := by
  induction given with
  | nil => rfl
  | cons first rest ih =>
    rw [List.mapM_cons, List.mapM_cons, same first List.mem_cons_self,
      ih fun x member => same x (List.mem_cons_of_mem _ member)]
    cases each first with
    | error cause => rfl
    | ok result => cases rest.mapM each <;> rfl

theorem mapM_eq_ok {each : α → Except ε β} {given : List α} {results : List β} :
    given.mapM each = .ok results ↔ List.Forall₂ (fun x y => each x = .ok y) given results := by
  induction given generalizing results with
  | nil =>
    simp only [List.mapM_nil, List.forall₂_nil_left_iff, pure, Except.pure, Except.ok.injEq]
    exact eq_comm
  | cons first rest ih =>
    simp only [List.mapM_cons, bind_eq_ok, ih, List.forall₂_cons_left_iff, pure, Except.pure, Except.ok.injEq]
    constructor
    · rintro ⟨y, here, ys, later, rfl⟩
      exact ⟨y, ys, here, later, rfl⟩
    · rintro ⟨y, ys, here, later, rfl⟩
      exact ⟨y, here, ys, later, rfl⟩

end WordC
