import Mathlib.Data.List.Nodup
import WordC.Module.Lower

namespace WordC.Lower

-- What a definition tells the others. Nothing but a definition tells them anything.
def signature? : Node → Option Signature
  | .function location name _ listed _ _ => some ⟨name, listed.length, location⟩
  | _ => none

section

variable {table : Signatures} {functions : List Node}

theorem declareFrom_cons_eq_ok_iff {seen : Signatures} {f : Node} :
    declareFrom seen (f :: functions) = .ok table ↔
      ∃ declared, signature? f = some declared ∧ declared.name ≠ some "" ∧ seen.find? declared.name = none ∧
        declareFrom (seen ++ [declared]) functions = .ok table := by
  cases f with
  | function location name returnType listed statements result =>
    simp only [declareFrom, Node.name?, signature?, Option.some.injEq, exists_eq_left']
    cases seen.find? name with
    | some earlier => simp
    | none =>
      by_cases empty : name = some ""
      · simp [empty]
      · simp [empty]
  | parameter | var | call =>
    simp only [declareFrom, Node.name?, signature?, reduceCtorEq, false_and, exists_false, iff_false]
    split <;> simp
  | _ => simp [declareFrom, Node.name?, signature?]

-- The table that a list of definitions makes. Their names are all different, and none of them is empty.
structure Declared (functions : List Node) (table : Signatures) : Prop where
  definitions : ∀ f ∈ functions, (signature? f).isSome
  listed : table = functions.filterMap signature?
  distinct : (table.map Signature.name).Nodup
  named : ∀ declared ∈ table, declared.name ≠ some ""

theorem names_nodup_concat_iff {seen : Signatures} {declared : Signature} :
    ((seen ++ [declared]).map Signature.name).Nodup ↔
      (seen.map Signature.name).Nodup ∧ seen.find? declared.name = none := by
  simp only [List.map_append, List.map_cons, List.map_nil, List.nodup_append, List.nodup_cons, List.not_mem_nil,
    not_false_eq_true, List.nodup_nil, and_self, true_and, Signatures.find?, List.find?_eq_none, List.mem_map,
    List.mem_singleton]
  simp

-- Every definition is checked against those before it, so in the end all names are different.
theorem declareFrom_eq_ok_iff {seen : Signatures} (distinct : (seen.map Signature.name).Nodup) :
    declareFrom seen functions = .ok table ↔
      (∀ f ∈ functions, (signature? f).isSome) ∧ table = seen ++ functions.filterMap signature? ∧
        (table.map Signature.name).Nodup ∧ ∀ declared ∈ functions.filterMap signature?, declared.name ≠ some "" := by
  induction functions generalizing seen with
  | nil =>
    constructor
    · intro declares
      cases declares
      simp [distinct]
    · rintro ⟨_, rfl, _, _⟩
      simp [declareFrom]
  | cons f rest ih =>
    rw [declareFrom_cons_eq_ok_iff]
    constructor
    · rintro ⟨declared, told, filled, missing, declares⟩
      obtain ⟨definitions, rfl, distinct', named⟩ :=
        (ih (names_nodup_concat_iff.mpr ⟨distinct, missing⟩)).mp declares
      refine ⟨?_, ?_, distinct', ?_⟩
      · simpa [told] using definitions
      · simp [told]
      · simpa [told, filled] using named
    · rintro ⟨definitions, rfl, distinct', named⟩
      obtain ⟨declared, told⟩ := Option.isSome_iff_exists.mp (definitions f List.mem_cons_self)
      rw [List.filterMap_cons_some told] at distinct' named ih ⊢
      have seenDistinct : ((seen ++ [declared]).map Signature.name).Nodup := by
        rw [← List.singleton_append, ← List.append_assoc, List.map_append] at distinct'
        exact (List.nodup_append.mp distinct').1
      refine ⟨declared, told, named declared List.mem_cons_self, (names_nodup_concat_iff.mp seenDistinct).2, ?_⟩
      apply (ih seenDistinct).mpr
      refine ⟨fun g member => definitions g (List.mem_cons_of_mem f member), by simp, distinct', ?_⟩
      exact fun other member => named other (List.mem_cons_of_mem declared member)

theorem declare_eq_ok_iff : declare functions = .ok table ↔ Declared functions table := by
  have distinct : ((([] : Signatures)).map Signature.name).Nodup := List.nodup_nil
  unfold declare
  rw [declareFrom_eq_ok_iff distinct]
  constructor
  · rintro ⟨definitions, rfl, distinct, named⟩
    exact ⟨definitions, rfl, distinct, named⟩
  · rintro ⟨definitions, rfl, distinct, named⟩
    exact ⟨definitions, rfl, distinct, named⟩

end

end WordC.Lower
