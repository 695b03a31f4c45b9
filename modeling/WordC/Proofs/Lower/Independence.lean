import Mathlib.Data.List.Perm.Basic
import WordC.Compile
import WordC.Module.Text
import WordC.Proofs.Lower.Correctness
import WordC.Proofs.Lower.Declare
import WordC.Proofs.Lower.Unplaced

namespace WordC.Lower

-- A definition of the same name with as many parameters.
def SameHeading (f g : Node) : Prop :=
  ∃ declared declared', signature? f = some declared ∧ signature? g = some declared' ∧
    declared'.name = declared.name ∧ declared'.arity = declared.arity

section

variable {table other : Signatures} {functions : List Node} {name : Name}

theorem find?_eq_some_iff (distinct : (table.map Signature.name).Nodup) :
    table.find? name = some declared ↔ declared ∈ table ∧ declared.name = name := by
  constructor
  · intro found
    exact ⟨List.mem_of_find?_eq_some found, by simpa using List.find?_some found⟩
  · rintro ⟨member, named⟩
    cases found : table.find? name with
    | none =>
      have unnamed := List.find?_eq_none.mp found declared member
      simp [named] at unnamed
    | some first =>
      have same : first.name = name := by simpa using List.find?_some found
      rw [List.inj_on_of_nodup_map distinct (List.mem_of_find?_eq_some found) member (same.trans named.symm)]

-- No two definitions share a name, so a look-up does not depend on their order.
theorem agree_of_perm (perm : other.Perm table) (distinct : (table.map Signature.name).Nodup) :
    table.Agree other := by
  intro name
  have distinct' : (other.map Signature.name).Nodup := (perm.map Signature.name).nodup_iff.mpr distinct
  have same : other.find? name = table.find? name := by
    apply Option.ext
    intro declared
    rw [find?_eq_some_iff distinct', find?_eq_some_iff distinct, perm.mem_iff]
  rw [same]

theorem Declared.perm (declared : Declared functions table) (perm : permuted.Perm functions) :
    ∃ table', Declared permuted table' ∧ table.Agree table' := by
  obtain ⟨definitions, rfl, distinct, named⟩ := declared
  have moved := perm.filterMap signature?
  refine ⟨permuted.filterMap signature?, ⟨?_, rfl, ?_, ?_⟩, agree_of_perm moved distinct⟩
  · exact fun f member => definitions f (perm.subset member)
  · exact (moved.map Signature.name).nodup_iff.mpr distinct
  · exact fun declared member => named declared (moved.subset member)

theorem agree_of_headings (headings : List.Forall₂ SameHeading functions replaced) :
    Signatures.Agree (functions.filterMap signature?) (replaced.filterMap signature?) := by
  intro name
  induction headings with
  | nil => rfl
  | cons here _ ih =>
    obtain ⟨declared, declared', told, told', sameName, sameArity⟩ := here
    rw [List.filterMap_cons_some told, List.filterMap_cons_some told']
    unfold Signatures.find? at ih ⊢
    by_cases named : declared.name = name
    · simp [sameName, sameArity, named]
    · simpa [sameName, named] using ih

end

-- The code of a definition that is accepted.
def codeOf (table : Signatures) (f : Node) : Code :=
  match function table f with
  | .ok code => code
  | .error _ => ⟨none, [], "", []⟩

theorem codeOf_eq {table : Signatures} (lowered : function table f = .ok code) : codeOf table f = code := by
  unfold codeOf
  rw [lowered]

theorem codes_eq_ok_iff {table : Signatures} {functions : List Node} {codes : List Code} :
    functions.mapM (function table) = .ok codes ↔
      (∀ f ∈ functions, function table f = .ok (codeOf table f)) ∧ codes = functions.map (codeOf table) := by
  rw [mapM_eq_ok]
  constructor
  · intro each
    induction each with
    | nil => simp
    | cons here _ ih =>
      obtain ⟨later, rfl⟩ := ih
      simpa [codeOf_eq here, here] using later
  · rintro ⟨each, rfl⟩
    rw [List.forall₂_map_right_iff]
    exact List.forall₂_same.mpr each

section

variable {moduleName : String} {lines : List String} {location : Option Location} {functions : List Node}

theorem lowerTree_eq_ok_iff {m : Module} :
    lowerTree moduleName lines (.program location functions) = .ok m ↔
      ∃ table, Declared functions table ∧ (∀ f ∈ functions, function table f = .ok (codeOf table f)) ∧
        m = ⟨moduleName, functions.map (codeOf table)⟩ := by
  unfold lowerTree program
  simp only [mapError_eq_ok, bind_eq_ok, declare_eq_ok_iff, codes_eq_ok_iff]
  constructor
  · rintro ⟨table, declared, codes, ⟨each, rfl⟩, made⟩
    cases made
    exact ⟨table, declared, each, rfl⟩
  · rintro ⟨table, declared, each, rfl⟩
    exact ⟨table, declared, _, ⟨each, rfl⟩, rfl⟩

theorem someDefineUnnamed_eq_any (ns : List Node) : Node.someDefineUnnamed ns = ns.any Node.definesUnnamed := by
  induction ns with
  | nil => rfl
  | cons n rest ih => simp [Node.someDefineUnnamed, ih]

-- What a definition is lowered to is settled by the definition itself and by what the others tell it. So the order of
-- the definitions shows in the order of their texts alone, and nothing that the others do shows at all.
theorem definitions_lowered_independently {m : Module}
    (accepted : lowerTree moduleName lines (.program location functions) = .ok m) :
    ∃ lowered : Node → Code, m.functions = functions.map lowered ∧
      m.text = "\n".intercalate (m.header ++ functions.map fun f => (lowered f).text) ∧
      (∀ permuted, permuted.Perm functions →
        (Node.program location permuted).definesUnnamed = (Node.program location functions).definesUnnamed ∧
        ∃ m', lowerTree moduleName lines (.program location permuted) = .ok m' ∧
          m'.functions = permuted.map lowered ∧
          m'.text = "\n".intercalate (m.header ++ permuted.map fun f => (lowered f).text)) ∧
      (∀ replaced m', List.Forall₂ SameHeading functions replaced →
        lowerTree moduleName lines (.program location replaced) = .ok m' →
        ∀ (f : Node) (i : Nat), functions[i]? = some f → replaced[i]? = some f →
          m.functions[i]? = some (lowered f) ∧ m'.functions[i]? = some (lowered f)) := by
  obtain ⟨table, declared, each, rfl⟩ := lowerTree_eq_ok_iff.mp accepted
  refine ⟨codeOf table, rfl, ?_, ?_, ?_⟩
  · simp [Module.text, Function.comp_def]
  · intro permuted perm
    obtain ⟨table', declared', agree⟩ := declared.perm perm
    have each' : ∀ f ∈ permuted, function table' f = .ok (codeOf table f) := fun f member =>
      function_congr agree (each f (perm.subset member))
    have same : permuted.map (codeOf table') = permuted.map (codeOf table) :=
      List.map_congr_left fun f member => codeOf_eq (each' f member)
    refine ⟨?_, ⟨moduleName, permuted.map (codeOf table')⟩, ?_, same, ?_⟩
    · simp only [Node.definesUnnamed, someDefineUnnamed_eq_any]
      exact perm.any_eq
    · apply lowerTree_eq_ok_iff.mpr
      refine ⟨table', declared', ?_, rfl⟩
      intro f member
      rw [codeOf_eq (each' f member)]
      exact each' f member
    · simp [Module.text, same, Function.comp_def, Module.header]
  · intro replaced m' headings accepted' f i here here'
    obtain ⟨table', declared', each', rfl⟩ := lowerTree_eq_ok_iff.mp accepted'
    have agree : table.Agree table' := by
      rw [declared.listed, declared'.listed]
      exact agree_of_headings headings
    have same : codeOf table' f = codeOf table f :=
      codeOf_eq (function_congr agree (each f (List.mem_of_getElem? here)))
    simp [here, here', same]

end

-- The main function of `shadowing` with nothing left of its body.
def plainMain : Function :=
  { Simulation.shadowingMain with statements := [], result := ⟨none, .number none (some 1)⟩ }

theorem shadowing_lowered_independently :
    ∃ m swapped changed,
      lowerTree "shadowing" [] Simulation.shadowing.node = .ok m ∧
      lowerTree "shadowing" [] (.program none [Simulation.shadowingMain.node, Simulation.laterParameter.node]) =
        .ok swapped ∧
      lowerTree "shadowing" [] (.program none [Simulation.laterParameter.node, plainMain.node]) = .ok changed ∧
      swapped.functions = m.functions.reverse ∧ changed.functions[0]? = m.functions[0]? := by
  obtain ⟨m, accepted⟩ : ∃ m, lowerTree "shadowing" [] Simulation.shadowing.node = .ok m :=
    isOk_iff.mp (by decide +kernel)
  obtain ⟨changed, accepted'⟩ : ∃ changed,
      lowerTree "shadowing" [] (.program none [Simulation.laterParameter.node, plainMain.node]) = .ok changed :=
    isOk_iff.mp (by decide +kernel)
  obtain ⟨lowered, codes, _, ordered, bodies⟩ := definitions_lowered_independently accepted
  obtain ⟨_, swapped, accepted'', codes', _⟩ := ordered _ (List.Perm.swap _ _ [])
  have headings : List.Forall₂ SameHeading [Simulation.laterParameter.node, Simulation.shadowingMain.node]
      [Simulation.laterParameter.node, plainMain.node] :=
    .cons ⟨_, _, rfl, rfl, rfl, rfl⟩ (.cons ⟨_, _, rfl, rfl, rfl, rfl⟩ .nil)
  obtain ⟨first, first'⟩ := bodies _ changed headings accepted' _ 0 rfl rfl
  exact ⟨m, swapped, changed, accepted, accepted'', accepted', by rw [codes, codes']; rfl, first'.trans first.symm⟩

end WordC.Lower
