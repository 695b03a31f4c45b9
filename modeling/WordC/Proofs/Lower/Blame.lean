import WordC.Proofs.Lower.Breach

namespace WordC.Lower

-- The part of an expression that a rejection is about.
inductive Blames (e : Expr) : Rejection → Prop where
  | undeclared : .var location name ∈ parts e → Blames e (.undeclared name location)
  | unknownFunction : .call location name arguments ∈ parts e → Blames e (.unknownFunction name location)
  | wrongArgumentCount : .call location name arguments ∈ parts e →
      Blames e (.wrongArgumentCount name expected arguments.length location)
  | notAssignable : .chain location .assign sides ∈ parts e → target ∈ sides.dropLast → isVar target = false →
      Blames e (.notAssignable target.node.location)

theorem Blames.widen (blames : Blames e rejection) (within : parts e ⊆ parts whole) : Blames whole rejection := by
  cases blames with
  | undeclared inside => exact .undeclared (within inside)
  | unknownFunction inside => exact .unknownFunction (within inside)
  | wrongArgumentCount inside => exact .wrongArgumentCount (within inside)
  | notAssignable inside target other => exact .notAssignable (within inside) target other

theorem target_mem_parts (inside : .chain location tier sides ∈ parts e) (member : target ∈ sides.dropLast) :
    target ∈ parts e := by
  apply parts_subset_of_mem e inside
  apply mem_parts_chain
  exact (List.dropLast_sublist sides).subset member

theorem undeclared_blames (found : rejection ∈ undeclared scope location name) :
    Blames (.var location name) rejection := by
  unfold undeclared at found
  split at found
  · cases found
  · rw [List.mem_singleton.mp found]
    exact .undeclared (mem_parts_self _)

theorem misdirected_blames (found : rejection ∈ misdirected fs location name arguments.length) :
    Blames (.call location name arguments) rejection := by
  unfold misdirected at found
  split at found
  · rw [List.mem_singleton.mp found]
    exact .unknownFunction (mem_parts_self _)
  · split at found
    · cases found
    · rw [List.mem_singleton.mp found]
      exact .wrongArgumentCount (mem_parts_self _)

theorem mem_allBreaches {es : List Expr} :
    rejection ∈ allBreaches fs scope es ↔ ∃ e ∈ es, rejection ∈ breaches fs scope e := by
  induction es with
  | nil => simp [allBreaches]
  | cons e rest ih => simp [allBreaches, ih]

-- A side of an assignment is at fault by itself, or as a target.
theorem mem_sideBreaches {sides : List Expr} (found : rejection ∈ sideBreaches fs scope sides) :
    (∃ e ∈ sides, rejection ∈ breaches fs scope e) ∨
      ∃ target ∈ sides.dropLast, isVar target = false ∧ rejection = .notAssignable target.node.location := by
  induction sides with
  | nil => simp [sideBreaches] at found
  | cons first rest ih =>
    cases rest with
    | nil => exact .inl ⟨first, List.mem_cons_self, found⟩
    | cons next rest =>
      rcases List.mem_append.mp found with here | later
      · cases first with
        | var location name => exact .inl ⟨_, List.mem_cons_self, here⟩
        | number | call | chain => exact .inr ⟨_, List.mem_cons_self, rfl, List.mem_singleton.mp here⟩
      · rcases ih later with ⟨e, member, inside⟩ | ⟨target, member, other, same⟩
        · exact .inl ⟨e, List.mem_cons_of_mem _ member, inside⟩
        · exact .inr ⟨target, List.mem_cons_of_mem _ member, other, same⟩

theorem breaches_blame (e : Expr) (found : rejection ∈ breaches fs scope e) : Blames e rejection := by
  induction e with
  | number => simp [breaches] at found
  | var location name => exact undeclared_blames found
  | call location name arguments ih =>
    rcases List.mem_append.mp found with here | inside
    · exact misdirected_blames here
    · obtain ⟨e, member, deeper⟩ := mem_allBreaches.mp inside
      exact (ih e member deeper).widen (parts_subset_of_mem _ (mem_parts_call member))
  | chain location tier operands ih =>
    have operand (e : Expr) (member : e ∈ operands) (deeper : rejection ∈ breaches fs scope e) :
        Blames (.chain location tier operands) rejection :=
      (ih e member deeper).widen (parts_subset_of_mem _ (mem_parts_chain member))
    cases tier with
    | assign =>
      rcases mem_sideBreaches found with ⟨e, member, deeper⟩ | ⟨target, member, other, rfl⟩
      · exact operand e member deeper
      · exact .notAssignable (mem_parts_self _) member other
    | sum | product =>
      obtain ⟨e, member, deeper⟩ := mem_allBreaches.mp found
      exact operand e member deeper

theorem mem_redefinitions (found : rejection ∈ redefinitions earlier fs) :
    ∃ function location first, rejection = .redefinition function location first := by
  induction fs generalizing earlier with
  | nil => cases found
  | cons f rest ih =>
    unfold redefinitions at found
    split at found
    · rcases List.mem_cons.mp found with rfl | later
      · exact ⟨_, _, _, rfl⟩
      · exact ih later
    · exact ih found

-- A rejection is about a second definition or about an expression that some function evaluates.
theorem programBreaches_blame {p : Program} (found : rejection ∈ programBreaches p) :
    (∃ function location first, rejection = .redefinition function location first) ∨
      ∃ f ∈ p.functions, ∃ evaluated ∈ evaluations f, Blames evaluated.2 rejection := by
  rcases List.mem_append.mp found with twice | inside
  · exact .inl (mem_redefinitions twice)
  · obtain ⟨f, member, inside⟩ := List.mem_flatMap.mp inside
    obtain ⟨evaluated, listed, deeper⟩ := List.mem_flatMap.mp inside
    exact .inr ⟨f, member, evaluated, listed, breaches_blame evaluated.2 deeper⟩

end WordC.Lower
