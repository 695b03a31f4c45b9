import WordC.Module.Lower
import Mathlib.Data.List.Nodup

namespace WordC.Lower

-- The rules that a program has to keep, said of its tree alone, and every breach of them in the order in which
-- breaches count: second definitions first, then the functions one after the other.

mutual

-- An expression and all expressions inside it.
def parts : Expr → List Expr
  | .number location value => [.number location value]
  | .var location name => [.var location name]
  | .call location function arguments => .call location function arguments :: allParts arguments
  | .chain location tier operands => .chain location tier operands :: allParts operands

def allParts : List Expr → List Expr
  | [] => []
  | e :: rest => parts e ++ allParts rest

end

def isVar : Expr → Bool
  | .var _ _ => true
  | _ => false

-- The expressions that a body evaluates, each with the variables that are known there.
def evaluationsFrom (scope : List Name) (last : Expr) : List Stmt → List (List Name × Expr)
  | [] => [(scope, last)]
  | .declare _ _ name :: rest => evaluationsFrom (name :: scope) last rest
  | .expression _ value :: rest => (scope, value) :: evaluationsFrom scope last rest

def evaluations (f : Function) : List (List Name × Expr) :=
  evaluationsFrom (f.parameters.map Parameter.name) f.result.value f.statements

-- What an expression keeps to, the expressions inside it aside.
def Proper (fs : List Function) (scope : List Name) : Expr → Prop
  | .number _ _ => True
  | .var _ name => name ∈ scope
  | .call _ name arguments => ∃ f ∈ fs, f.name = name ∧ f.arity = arguments.length
  | .chain _ .assign sides => ∀ target ∈ sides.dropLast, isVar target
  | .chain _ .sum _ => True
  | .chain _ .product _ => True

structure Sound (p : Program) : Prop where
  distinct : (p.functions.map Function.name).Nodup
  proper : ∀ f ∈ p.functions, ∀ evaluated ∈ evaluations f, ∀ part ∈ parts evaluated.2,
    Proper p.functions evaluated.1 part

-- What trees from a text have anyway: literals have values, assignments have operands, functions have names.
def Filled : Expr → Prop
  | .number _ value => value ≠ none
  | .chain _ .assign sides => sides.isEmpty = false
  | .var _ _ | .call _ _ _ | .chain _ .sum _ | .chain _ .product _ => True

structure Formed (p : Program) : Prop where
  named : ∀ f ∈ p.functions, f.name ≠ some ""
  filled : ∀ f ∈ p.functions, ∀ evaluated ∈ evaluations f, ∀ part ∈ parts evaluated.2, Filled part

-- Both can be checked on a given tree.
instance : DecidablePred (Proper fs scope)
  | .number _ _ | .chain _ .sum _ | .chain _ .product _ => inferInstanceAs (Decidable True)
  | .var _ name => inferInstanceAs (Decidable (name ∈ scope))
  | .call _ name arguments =>
    inferInstanceAs (Decidable (∃ f ∈ fs, f.name = name ∧ f.arity = arguments.length))
  | .chain _ .assign sides => inferInstanceAs (Decidable (∀ target ∈ sides.dropLast, isVar target))

instance : DecidablePred Filled
  | .number _ value => inferInstanceAs (Decidable (value ≠ none))
  | .chain _ .assign sides => inferInstanceAs (Decidable (sides.isEmpty = false))
  | .var _ _ | .call _ _ _ | .chain _ .sum _ | .chain _ .product _ => inferInstanceAs (Decidable True)

instance (p : Program) : Decidable (Sound p) :=
  decidable_of_iff _ ⟨fun kept => ⟨kept.1, kept.2⟩, fun sound => And.intro sound.distinct sound.proper⟩

instance (p : Program) : Decidable (Formed p) :=
  decidable_of_iff _ ⟨fun kept => ⟨kept.1, kept.2⟩, fun formed => And.intro formed.named formed.filled⟩

def undeclared (scope : List Name) (location : Option Location) (name : Name) : List Rejection :=
  if name ∈ scope then [] else [.undeclared name location]

def misdirected (fs : List Function) (location : Option Location) (name : Name) (count : Nat) :
    List Rejection :=
  match fs.find? fun f => f.name = name with
  | none => [.unknownFunction name location]
  | some f => if count = f.arity then [] else [.wrongArgumentCount name f.arity count location]

def targetBreaches (scope : List Name) : Expr → List Rejection
  | .var location name => undeclared scope location name
  | other => [.notAssignable other.node.location]

mutual

-- A call comes before its arguments, and the targets of an assignment come before its value.
def breaches (fs : List Function) (scope : List Name) : Expr → List Rejection
  | .number _ _ => []
  | .var location name => undeclared scope location name
  | .call location name arguments =>
    misdirected fs location name arguments.length ++ allBreaches fs scope arguments
  | .chain _ .assign sides => sideBreaches fs scope sides
  | .chain _ .sum operands => allBreaches fs scope operands
  | .chain _ .product operands => allBreaches fs scope operands

def allBreaches (fs : List Function) (scope : List Name) : List Expr → List Rejection
  | [] => []
  | e :: rest => breaches fs scope e ++ allBreaches fs scope rest

def sideBreaches (fs : List Function) (scope : List Name) : List Expr → List Rejection
  | [] => []
  | [value] => breaches fs scope value
  | target :: next :: rest => targetBreaches scope target ++ sideBreaches fs scope (next :: rest)

end

def functionBreaches (fs : List Function) (f : Function) : List Rejection :=
  (evaluations f).flatMap fun (scope, e) => breaches fs scope e

-- A second definition counts against the first one.
def redefinitions (earlier : List Function) : List Function → List Rejection
  | [] => []
  | f :: rest =>
    match earlier.find? fun g => g.name = f.name with
    | some first => .redefinition f.name f.location first.location :: redefinitions (earlier ++ [f]) rest
    | none => redefinitions (earlier ++ [f]) rest

def programBreaches (p : Program) : List Rejection :=
  redefinitions [] p.functions ++ p.functions.flatMap (functionBreaches p.functions)

theorem mem_parts_self (e : Expr) : e ∈ parts e := by
  cases e <;> simp [parts]

theorem mem_allParts {es : List Expr} : part ∈ allParts es ↔ ∃ e ∈ es, part ∈ parts e := by
  induction es with
  | nil => simp [allParts]
  | cons e rest ih => simp [allParts, ih]

theorem forall_mem_allParts {es : List Expr} {Holds : Expr → Prop} :
    (∀ part ∈ allParts es, Holds part) ↔ ∀ e ∈ es, ∀ part ∈ parts e, Holds part := by
  simp only [mem_allParts]
  constructor
  · exact fun all e member part inside => all part ⟨e, member, inside⟩
  · intro all part inside
    obtain ⟨e, member, inside⟩ := inside
    exact all e member part inside

theorem mem_parts_call (member : e ∈ arguments) : e ∈ parts (.call location name arguments) :=
  List.mem_cons_of_mem _ (mem_allParts.mpr ⟨e, member, mem_parts_self e⟩)

theorem mem_parts_chain (member : e ∈ sides) : e ∈ parts (.chain location tier sides) :=
  List.mem_cons_of_mem _ (mem_allParts.mpr ⟨e, member, mem_parts_self e⟩)

-- What stands inside of a part stands inside of the whole.
theorem parts_subset_of_mem (e : Expr) (inside : part ∈ parts e) : parts part ⊆ parts e := by
  induction e with
  | number | var =>
    rw [List.mem_singleton.mp inside]
    exact List.Subset.refl _
  | call location name arguments ih =>
    rcases List.mem_cons.mp inside with rfl | deeper
    · exact List.Subset.refl _
    · obtain ⟨e, member, deeper⟩ := mem_allParts.mp deeper
      intro inner further
      exact List.mem_cons_of_mem _ (mem_allParts.mpr ⟨e, member, ih e member deeper further⟩)
  | chain location tier operands ih =>
    rcases List.mem_cons.mp inside with rfl | deeper
    · exact List.Subset.refl _
    · obtain ⟨e, member, deeper⟩ := mem_allParts.mp deeper
      intro inner further
      exact List.mem_cons_of_mem _ (mem_allParts.mpr ⟨e, member, ih e member deeper further⟩)

theorem undeclared_eq_nil : undeclared scope location name = [] ↔ name ∈ scope := by
  unfold undeclared
  split <;> simp [*]

theorem misdirected_eq_nil {fs : List Function} (distinct : (fs.map Function.name).Nodup) :
    misdirected fs location name count = [] ↔ ∃ f ∈ fs, f.name = name ∧ f.arity = count := by
  unfold misdirected
  split
  · rename_i missing
    simp only [List.find?_eq_none, decide_eq_true_eq] at missing
    simp only [List.cons_ne_nil, false_iff, not_exists, not_and]
    exact fun f member same => absurd same (missing f member)
  · rename_i f found
    have member := List.mem_of_find?_eq_some found
    have same : f.name = name := by simpa using List.find?_some found
    split
    · rename_i fits
      simpa using ⟨f, member, same, fits.symm⟩
    · rename_i unfit
      simp only [List.cons_ne_nil, false_iff, not_exists, not_and]
      intro g listed equal
      have only : g = f := List.inj_on_of_nodup_map distinct listed member (equal.trans same.symm)
      rw [only]
      exact fun fits => unfit fits.symm

theorem allBreaches_eq_nil {es : List Expr} :
    allBreaches fs scope es = [] ↔ ∀ e ∈ es, breaches fs scope e = [] := by
  induction es with
  | nil => simp [allBreaches]
  | cons e rest ih => simp [allBreaches, ih]

theorem targetBreaches_eq_nil (fs : List Function) :
    targetBreaches scope target = [] ↔
      isVar target ∧ ∀ part ∈ parts target, Proper fs scope part := by
  cases target with
  | var location name => simp [targetBreaches, isVar, parts, Proper, undeclared_eq_nil]
  | number | call | chain => simp [targetBreaches, isVar]

theorem sideBreaches_eq_nil {sides : List Expr}
    (each : ∀ e ∈ sides, breaches fs scope e = [] ↔ ∀ part ∈ parts e, Proper fs scope part) :
    sideBreaches fs scope sides = [] ↔
      (∀ target ∈ sides.dropLast, isVar target) ∧ ∀ part ∈ allParts sides, Proper fs scope part := by
  induction sides with
  | nil => simp [sideBreaches, allParts]
  | cons first rest ih =>
    cases rest with
    | nil => simpa [sideBreaches, allParts] using each first (by simp)
    | cons next rest =>
      have later := ih fun e member => each e (List.mem_cons_of_mem _ member)
      simp only [sideBreaches, List.append_eq_nil_iff, targetBreaches_eq_nil fs, later,
        List.dropLast_cons_cons, List.forall_mem_cons, allParts, List.forall_mem_append]
      exact and_and_and_comm

-- An expression has no breach exactly when it and all expressions inside it keep to the rules.
theorem breaches_eq_nil {fs : List Function} (distinct : (fs.map Function.name).Nodup) (e : Expr) :
    breaches fs scope e = [] ↔ ∀ part ∈ parts e, Proper fs scope part := by
  induction e with
  | number location value => simp [breaches, parts, Proper]
  | var location name => simp [breaches, parts, Proper, undeclared_eq_nil]
  | call location name arguments each =>
    simp only [breaches, parts, List.append_eq_nil_iff, misdirected_eq_nil distinct, allBreaches_eq_nil,
      List.forall_mem_cons, forall_mem_allParts, Proper]
    exact and_congr_right fun _ => forall₂_congr each
  | chain location tier operands each =>
    cases tier with
    | assign => simp only [breaches, parts, sideBreaches_eq_nil each, List.forall_mem_cons, Proper]
    | sum | product =>
      simp only [breaches, parts, allBreaches_eq_nil, List.forall_mem_cons, forall_mem_allParts, Proper,
        true_and]
      exact forall₂_congr each

theorem functionBreaches_eq_nil {fs : List Function} (distinct : (fs.map Function.name).Nodup) (f : Function) :
    functionBreaches fs f = [] ↔
      ∀ evaluated ∈ evaluations f, ∀ part ∈ parts evaluated.2, Proper fs evaluated.1 part := by
  simp only [functionBreaches, List.flatMap_eq_nil_iff]
  exact forall₂_congr fun evaluated _ => breaches_eq_nil distinct evaluated.2

theorem redefinitions_eq_nil {earlier fs : List Function} (distinct : (earlier.map Function.name).Nodup) :
    redefinitions earlier fs = [] ↔ ((earlier ++ fs).map Function.name).Nodup := by
  induction fs generalizing earlier with
  | nil => simpa [redefinitions] using distinct
  | cons f rest ih =>
    unfold redefinitions
    split
    · rename_i first found
      have member := List.mem_of_find?_eq_some found
      have same : first.name = f.name := by simpa using List.find?_some found
      simp only [List.cons_ne_nil, List.map_append, List.map_cons, List.nodup_append, false_iff]
      intro apart
      exact apart.2.2 _ (List.mem_map_of_mem member) _ List.mem_cons_self same
    · rename_i missing
      simp only [List.find?_eq_none, decide_eq_true_eq] at missing
      have further : ((earlier ++ [f]).map Function.name).Nodup := by
        simp only [List.map_append, List.map_cons, List.map_nil, List.nodup_append]
        refine ⟨distinct, List.nodup_singleton _, fun name member other single same => ?_⟩
        obtain ⟨g, listed, rfl⟩ := List.mem_map.mp member
        exact missing g listed (same.trans (List.mem_singleton.mp single))
      rw [ih further, List.append_assoc, List.singleton_append]

theorem programBreaches_eq_nil {p : Program} : programBreaches p = [] ↔ Sound p := by
  have distinct : redefinitions [] p.functions = [] ↔ (p.functions.map Function.name).Nodup :=
    redefinitions_eq_nil List.nodup_nil
  simp only [programBreaches, List.append_eq_nil_iff, List.flatMap_eq_nil_iff, distinct]
  constructor
  · intro kept
    exact ⟨kept.1, fun f member => (functionBreaches_eq_nil kept.1 f).mp (kept.2 f member)⟩
  · intro sound
    exact ⟨sound.distinct, fun f member => (functionBreaches_eq_nil sound.distinct f).mpr (sound.proper f member)⟩

end WordC.Lower
