import WordC.Proofs.Lower.Typed

namespace WordC.Lower

-- A table that tells all that another one tells, and maybe more.
def Signatures.Within (table other : Signatures) : Prop :=
  ∀ name declared, table.find? name = some declared → other.find? name = some declared

theorem within_append_left (table more : Signatures) : table.Within (table ++ more) := by
  intro name declared found
  unfold Signatures.find? at found ⊢
  rw [List.find?_append, found]
  rfl

theorem within_append_right {table more : Signatures}
    (apart : (table.map Signature.name).Disjoint (more.map Signature.name)) : more.Within (table ++ more) := by
  intro name declared found
  unfold Signatures.find? at found ⊢
  have named : declared.name = name := by simpa using List.find?_some found
  have missing : List.find? (fun signature => signature.name = name) table = none := by
    apply List.find?_eq_none.mpr
    intro signature member same
    apply apart (a := name)
    · exact of_decide_eq_true same ▸ List.mem_map_of_mem member
    · exact named ▸ List.mem_map_of_mem (List.mem_of_find?_eq_some found)
  rw [List.find?_append, missing, found]
  rfl

namespace Typed

variable {table other : Signatures} {slots : Slots}

-- An expression that is lowered with one table is lowered to the same code with another.
def Stays (table other : Signatures) (slots : Slots) (e : Expr) : Prop :=
  ∀ names out, expr table slots e names = .ok out → expr other slots e names = .ok out

theorem exprs_stay {es : List Expr} (each : ∀ e ∈ es, Stays table other slots e) :
    ∀ names out, exprs table slots es names = .ok out → exprs other slots es names = .ok out := by
  induction es with
  | nil => exact fun _ _ lowered => lowered
  | cons first rest ih =>
    intro names out lowered
    obtain ⟨head, tail⟩ := List.forall_mem_cons.mp each
    simp only [exprs, bind_eq_ok] at lowered ⊢
    obtain ⟨here, done, later, more, made⟩ := lowered
    exact ⟨here, head names here done, later, ih tail here.names later more, made⟩

theorem fold_stay {op : Arith} {es : List Expr} (each : ∀ e ∈ es, Stays table other slots e) :
    ∀ reached names out, fold table slots op reached es names = .ok out →
      fold other slots op reached es names = .ok out := by
  induction es with
  | nil => exact fun _ _ _ lowered => lowered
  | cons first rest ih =>
    intro reached names out lowered
    obtain ⟨head, tail⟩ := List.forall_mem_cons.mp each
    simp only [fold, bind_eq_ok] at lowered ⊢
    obtain ⟨here, done, later, more, made⟩ := lowered
    exact ⟨here, head names here done, later, ih tail _ _ later more, made⟩

theorem assign_stay {es : List Expr} (each : ∀ e ∈ es, Stays table other slots e) :
    ∀ targets names out, assign table slots targets es names = .ok out →
      assign other slots targets es names = .ok out := by
  induction es with
  | nil => exact fun _ _ _ lowered => lowered
  | cons first rest ih =>
    intro targets names out lowered
    obtain ⟨head, tail⟩ := List.forall_mem_cons.mp each
    cases rest with
    | nil =>
      simp only [assign, bind_eq_ok] at lowered ⊢
      obtain ⟨here, done, made⟩ := lowered
      exact ⟨here, head names here done, made⟩
    | cons next rest =>
      cases first with
      | var location name =>
        simp only [assign, bind_eq_ok] at lowered ⊢
        obtain ⟨slot, found, more⟩ := lowered
        exact ⟨slot, found, ih tail _ names out more⟩
      | number | call | chain => exact lowered

theorem expr_stays (within : table.Within other) (e : Expr) : Stays table other slots e := by
  induction e with
  | number location value => cases value <;> exact fun _ _ lowered => lowered
  | var location name =>
    intro names out lowered
    simpa only [expr] using lowered
  | call location function arguments each =>
    intro names out lowered
    simp only [expr] at lowered ⊢
    cases found : table.find? function with
    | none => simp [found] at lowered
    | some signature =>
      rw [within function signature found]
      rw [found] at lowered
      by_cases count : arguments.length ≠ signature.arity
      · simp [count] at lowered
      · simp only [count, if_false, bind_eq_ok] at lowered ⊢
        obtain ⟨given, done, made⟩ := lowered
        exact ⟨given, exprs_stay each names given done, made⟩
  | chain location tier operands each =>
    cases tier with
    | sum => exact fold_stay each _
    | product => exact fold_stay each _
    | assign => exact assign_stay each _

theorem stmts_stay (within : table.Within other) {ss : List Stmt} {names : Names} {slots : Slots}
    {out : List Instr × Names × Slots} (lowered : stmts table names slots ss = .ok out) :
    stmts other names slots ss = .ok out := by
  induction ss generalizing names slots out with
  | nil => exact lowered
  | cons first rest ih =>
    simp only [stmts, bind_eq_ok] at lowered ⊢
    obtain ⟨here, done, later, more, made⟩ := lowered
    refine ⟨here, ?_, later, ih more, made⟩
    cases first with
    | declare => exact done
    | expression location value =>
      simp only [stmt, bind_eq_ok] at done ⊢
      obtain ⟨inside, value', made'⟩ := done
      exact ⟨inside, expr_stays within value names inside value', made'⟩

-- More definitions around a function do not change its code.
theorem body_stays (within : table.Within other) {f : Function} {instructions : List Instr}
    (lowered : body table f = .ok instructions) : body other f = .ok instructions := by
  simp only [body, bind_eq_ok] at lowered ⊢
  obtain ⟨middle, walked, last, result, made⟩ := lowered
  exact ⟨middle, stmts_stay within walked, last, expr_stays within _ _ last result, made⟩

-- Two programs without a common name are lowered together as each is on its own.
theorem program_join {moduleName : String} {p q : Program} {m m' : Module}
    (lowered : Lower.program moduleName p.node = .ok m) (lowered' : Lower.program moduleName q.node = .ok m')
    (apart : p.functionNames.Disjoint q.functionNames) (location : Option Location) :
    Lower.program moduleName (Program.node ⟨location, p.functions ++ q.functions⟩) =
      .ok ⟨moduleName, m.functions ++ m'.functions⟩ := by
  obtain ⟨distinct, named, -, codes⟩ := program_eq_ok_iff.mp lowered
  obtain ⟨distinct', named', -, codes'⟩ := program_eq_ok_iff.mp lowered'
  have listed (fs : List Function) : (fs.map signature).map Signature.name = fs.map Function.name := by
    rw [List.map_map]
    rfl
  apply program_eq_ok_iff.mpr
  refine ⟨?_, ?_, rfl, ?_⟩
  · rw [List.map_append]
    exact distinct.append distinct' apart
  · exact List.forall_mem_append.mpr ⟨named, named'⟩
  · rw [List.map_append]
    apply List.rel_append
    · exact codes.imp fun f code ⟨instructions, done, made⟩ =>
        ⟨instructions, body_stays (within_append_left _ _) done, made⟩
    · refine codes'.imp fun f code ⟨instructions, done, made⟩ =>
        ⟨instructions, body_stays (within_append_right ?_) done, made⟩
      rwa [listed, listed]

end Typed

end WordC.Lower
