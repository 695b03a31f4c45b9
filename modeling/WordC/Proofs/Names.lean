import Mathlib.Data.List.Nodup
import Mathlib.Data.List.Perm.Subperm
import WordC.Module.Names
import WordC.Proofs.Text.Digits

namespace WordC.Names

theorem numbered_injective (hint : String) : Function.Injective (numbered hint) := by
  intro m n same
  have tails : "." ++ Nat.repr m = "." ++ Nat.repr n := by
    simpa [numbered, String.append_assoc, String.append_right_inj] using same
  exact Text.digits_injective ((String.append_right_inj _).mp tails)

-- The last number is taken without a look, so a used name comes back only when all numbers tried are used.
theorem all_used_of_freeAfter {used : List String} {hint : String} {tries n : Nat}
    (taken : numbered hint (freeAfter used hint tries n) ∈ used) :
    ∀ i ≤ tries, numbered hint (n + 1 + i) ∈ used := by
  induction tries generalizing n with
  | zero =>
    intro i bound
    obtain rfl : i = 0 := by omega
    simpa [freeAfter] using taken
  | succ tries ih =>
    unfold freeAfter at taken
    split at taken
    · rename_i first
      intro i bound
      cases i with
      | zero => simpa using first
      | succ i =>
        have later := ih taken i (by omega)
        rwa [show n + 1 + (i + 1) = n + 1 + 1 + i by omega]
    · rename_i free
      exact absurd taken (by simpa using free)

-- There are more numbered names in reach than used names.
theorem freeAfter_free (used : List String) (hint : String) (n : Nat) :
    numbered hint (freeAfter used hint used.length n) ∉ used := by
  intro taken
  have every := all_used_of_freeAfter taken
  let candidates := (List.range (used.length + 1)).map fun i => numbered hint (n + 1 + i)
  have distinct : candidates.Nodup := by
    refine List.Nodup.map ?_ List.nodup_range
    intro i j same
    have := numbered_injective hint same
    omega
  have inside : candidates ⊆ used := by
    intro name member
    obtain ⟨i, bound, rfl⟩ := List.mem_map.mp member
    exact every i (by have := List.mem_range.mp bound; omega)
  have count := (distinct.subperm inside).length_le
  simp only [candidates, List.length_map, List.length_range] at count
  omega

theorem fresh_free (names : Names) (hint : String) : (names.fresh hint).1 ∉ names.used := by
  unfold fresh
  split
  · exact freeAfter_free _ _ _
  · rename_i free
    simpa using free

@[simp] theorem used_fresh (names : Names) (hint : String) :
    (names.fresh hint).2.used = (names.fresh hint).1 :: names.used := by
  unfold fresh
  split <;> rfl

-- A supply of names that has given out everything that another one has, and maybe more.
def Grows (before after : Names) : Prop := before.used ⊆ after.used

theorem Grows.refl (names : Names) : Grows names names := List.Subset.refl _

theorem Grows.trans (first : Grows before middle) (second : Grows middle after) : Grows before after :=
  List.Subset.trans first second

theorem grows_fresh (names : Names) (hint : String) : Grows names (names.fresh hint).2 := by
  simp [Grows]

theorem grows_skip (names : Names) : Grows names names.skip := grows_fresh names ""

theorem freshList_succ (names : Names) (hint : String) (n : Nat) :
    names.freshList hint (n + 1) =
      ((names.fresh hint).1 :: ((names.fresh hint).2.freshList hint n).1,
        ((names.fresh hint).2.freshList hint n).2) := rfl

theorem freshList_length (names : Names) (hint : String) (n : Nat) :
    (names.freshList hint n).1.length = n := by
  induction n generalizing names with
  | zero => rfl
  | succ n ih => simp [freshList_succ, ih]

-- The supply went on by giving out these names: each was free before and is used now, and no two are the same.
structure Gives (before : Names) (given : List String) (after : Names) : Prop where
  grows : Grows before after
  free : ∀ name ∈ given, name ∉ before.used
  used : ∀ name ∈ given, name ∈ after.used
  distinct : given.Nodup

theorem gives_nil (names : Names) : Gives names [] names :=
  ⟨.refl _, by simp, by simp, List.nodup_nil⟩

theorem gives_fresh (names : Names) (hint : String) :
    Gives names [(names.fresh hint).1] (names.fresh hint).2 :=
  ⟨grows_fresh names hint, by simp [fresh_free], by simp, List.nodup_singleton _⟩

theorem gives_skip (names : Names) : Gives names [] names.skip :=
  ⟨grows_skip names, by simp, by simp, List.nodup_nil⟩

theorem Gives.append (first : Gives before given middle) (second : Gives middle more after) :
    Gives before (given ++ more) after := by
  refine ⟨first.grows.trans second.grows, ?_, ?_, ?_⟩
  · intro name member
    rcases List.mem_append.mp member with old | new
    · exact first.free name old
    · exact fun used => second.free name new (first.grows used)
  · intro name member
    rcases List.mem_append.mp member with old | new
    · exact second.grows (first.used name old)
    · exact second.used name new
  · refine List.nodup_append.mpr ⟨first.distinct, second.distinct, ?_⟩
    intro name old other new same
    exact second.free other new (same ▸ first.used name old)

theorem gives_freshList (names : Names) (hint : String) (n : Nat) :
    Gives names (names.freshList hint n).1 (names.freshList hint n).2 := by
  induction n generalizing names with
  | zero => exact gives_nil names
  | succ n ih =>
    rw [freshList_succ]
    exact (gives_fresh names hint).append (ih _)

theorem freshList_nodup (names : Names) (hint : String) (n : Nat) :
    (names.freshList hint n).1.Nodup :=
  (gives_freshList names hint n).distinct

end WordC.Names
