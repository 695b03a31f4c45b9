import WordC.Proofs.Lower.Typed
import WordC.Proofs.Names

namespace WordC.Lower.Typed
open Names

-- A register is known once its name has been given out.
def Known (names : Names) : Operand → Prop
  | .constant _ => True
  | .register name => name ∈ names.used

theorem Known.grow {operand : Operand} (known : Known before operand) (grows : Grows before after) :
    Known after operand := by
  cases operand with
  | constant => trivial
  | register name => exact grows known

theorem grows_storeAll (value : Operand) (slots : List String) (names : Names) :
    Grows names (storeAll value slots names).2 := by
  induction slots generalizing names with
  | nil => exact .refl _
  | cons slot rest ih => exact (grows_skip names).trans (ih names.skip)

variable {table : Signatures} {slots : Slots}

-- Names are only ever added, and the value of an expression is known after its code.
def Supplies (table : Signatures) (slots : Slots) (e : Expr) : Prop :=
  ∀ names out, expr table slots e names = .ok out → Grows names out.names ∧ Known out.names out.value

theorem exprs_supplies {es : List Expr} (each : ∀ e ∈ es, Supplies table slots e) :
    ∀ names out, exprs table slots es names = .ok out →
      Grows names out.names ∧ ∀ value ∈ out.value, Known out.names value := by
  induction es with
  | nil =>
    intro names out lowered
    cases lowered
    exact ⟨.refl _, by simp⟩
  | cons first rest ih =>
    intro names out lowered
    simp only [exprs, bind_eq_ok, pure, Except.pure, Except.ok.injEq] at lowered
    obtain ⟨here, first_ok, later, rest_ok, rfl⟩ := lowered
    obtain ⟨grows, known⟩ := each first (by simp) names here first_ok
    obtain ⟨more, all⟩ := ih (fun e member => each e (by simp [member])) here.names later rest_ok
    refine ⟨grows.trans more, ?_⟩
    intro value member
    rcases List.mem_cons.mp member with rfl | old
    · exact known.grow more
    · exact all value old

theorem fold_supplies {op : Arith} {es : List Expr} (each : ∀ e ∈ es, Supplies table slots e) :
    ∀ reached names out, Known names reached → fold table slots op reached es names = .ok out →
      Grows names out.names ∧ Known out.names out.value := by
  induction es with
  | nil =>
    intro reached names out known lowered
    cases lowered
    exact ⟨.refl _, known⟩
  | cons first rest ih =>
    intro reached names out known lowered
    simp only [fold, bind_eq_ok, pure, Except.pure, Except.ok.injEq] at lowered
    obtain ⟨here, first_ok, later, rest_ok, rfl⟩ := lowered
    have grows := (each first (by simp) names here first_ok).1
    have joined : Known (here.names.fresh (joinHint op)).2 (.register (here.names.fresh (joinHint op)).1) := by
      simp [Known]
    obtain ⟨more, final⟩ := ih (fun e member => each e (by simp [member])) _ _ _ joined rest_ok
    exact ⟨(grows.trans (grows_fresh _ _)).trans more, final⟩

theorem assign_supplies {es : List Expr} (each : ∀ e ∈ es, Supplies table slots e) :
    ∀ targets names out, assign table slots targets es names = .ok out →
      Grows names out.names ∧ Known out.names out.value := by
  induction es with
  | nil =>
    intro targets names out lowered
    cases lowered
  | cons first rest ih =>
    intro targets names out lowered
    cases rest with
    | nil =>
      simp only [assign, bind_eq_ok, pure, Except.pure, Except.ok.injEq] at lowered
      obtain ⟨here, first_ok, rfl⟩ := lowered
      obtain ⟨grows, known⟩ := each first (by simp) names here first_ok
      have stores := grows_storeAll here.value targets here.names
      exact ⟨grows.trans stores, known.grow stores⟩
    | cons next rest =>
      cases first with
      | var location name =>
        simp only [assign, bind_eq_ok] at lowered
        obtain ⟨slot, _, rest_ok⟩ := lowered
        exact ih (fun e member => each e (by simp [member])) _ names out rest_ok
      | number location value => cases lowered
      | call location function arguments => cases lowered
      | chain location tier operands => cases lowered

theorem expr_supplies (e : Expr) : Supplies table slots e := by
  induction e with
  | number location value =>
    intro names out lowered
    cases value with
    | none => cases lowered
    | some value =>
      cases lowered
      exact ⟨.refl _, trivial⟩
  | var location name =>
    intro names out lowered
    simp only [expr, bind_eq_ok, pure, Except.pure, Except.ok.injEq] at lowered
    obtain ⟨slot, _, rfl⟩ := lowered
    exact ⟨grows_fresh _ _, by simp [Known]⟩
  | call location function arguments each =>
    intro names out lowered
    simp only [expr] at lowered
    split at lowered
    · cases lowered
    · split at lowered
      · cases lowered
      · simp only [bind_eq_ok, pure, Except.pure, Except.ok.injEq] at lowered
        obtain ⟨given, all_ok, rfl⟩ := lowered
        have grows := (exprs_supplies each names given all_ok).1
        exact ⟨grows.trans (grows_fresh _ _), by simp [Known]⟩
  | chain location tier operands each =>
    intro names out lowered
    cases tier with
    | sum => exact fold_supplies each (.constant 0) names out trivial lowered
    | product => exact fold_supplies each (.constant 1) names out trivial lowered
    | assign => exact assign_supplies each [] names out lowered

end WordC.Lower.Typed
