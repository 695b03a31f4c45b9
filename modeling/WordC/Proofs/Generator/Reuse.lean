import WordC.Compile
import WordC.Proofs.Generator.Visit
import WordC.Proofs.Lower.Declare

namespace WordC.Generator

open Lower (Progress Rejection Signatures Signature)

variable {g : Generator} {table : Signatures}

-- A function that is declared and not yet entered.
def declaredDraft (signature : Signature) : Draft := Draft.declared signature.name signature.arity

-- What a call leaves of a generator as it was: its settings, and the modules in front of the one that it adds.
structure Grown (front : List (List Draft)) (g g' : Generator) : Prop where
  moduleName : g'.moduleName = g.moduleName
  lines : g'.lines = g.lines
  modules : ∃ now, g'.modules = front ++ [now]

theorem Grown.trans {g' g'' : Generator} (grown : Grown front g g') (later : Grown front g' g'') : Grown front g g'' :=
  ⟨later.moduleName.trans grown.moduleName, later.lines.trans grown.lines, later.modules⟩

theorem Frame.grown {g' : Generator} (frame : Frame g g') (modules : g.modules = front ++ [now]) :
    Grown front g g' := by
  obtain ⟨moduleName, lines, front', now', last, before, after, -⟩ := frame
  obtain ⟨rfl, -⟩ := List.append_inj' (modules.symm.trans before) rfl
  exact ⟨moduleName, lines, last, after⟩

-- A generator in the middle of its declarations.
structure Declaring (front : List (List Draft)) (table : Signatures) (g : Generator) : Prop where
  modules : g.modules = front ++ [table.map declaredDraft]
  definitions : ∀ name, g.definitions.lookup name = (table.find? name).map Signature.location

theorem Declaring.grown (declaring : g.Declaring front table) : Grown front g g :=
  ⟨rfl, rfl, _, declaring.modules⟩

theorem Declaring.add (declaring : g.Declaring front table) (missing : table.find? name = none) (arity : Nat)
    (location : Option Location) :
    Declaring front (table ++ [⟨name, arity, location⟩])
      { g with
        definitions := g.definitions.bind name location
        modules := g.modules.modify (g.modules.length - 1) (· ++ [Draft.declared name arity]) } := by
  constructor
  · simp [declaring.modules, modify_last, declaredDraft]
  · intro other
    have appended : Signatures.find? (table ++ [⟨name, arity, location⟩]) other =
        (table.find? other).or (if name = other then some ⟨name, arity, location⟩ else none) := by
      rw [Signatures.find?, List.find?_append, Signatures.find?, List.find?_singleton]
      simp
    rw [appended]
    by_cases same : other = name
    · subst same
      simp [missing]
    · rw [Bindings.lookup_bind_other _ _ same, declaring.definitions, if_neg (Ne.symm same), Option.or_none]

theorem declareAll_follows (functions : List Node) (declaring : g.Declaring front table) :
    ∃ g', Grown front g g' ∧
      match Lower.declareFrom table functions with
      | .error rejection => declareAll functions g = (.error rejection, g')
      | .ok later => declareAll functions g = (.ok (), g') ∧ g'.modules = front ++ [later.map declaredDraft] := by
  induction functions generalizing g table with
  | nil => exact ⟨g, declaring.grown, rfl, declaring.modules⟩
  | cons node rest ih =>
    simp only [Lower.declareFrom, declareAll, Work.andThen, declare, declaring.definitions]
    cases node.name? with
    | none => exact ⟨g, declaring.grown, rfl⟩
    | some name =>
      dsimp only
      cases missing : table.find? name with
      | some earlier => exact ⟨g, declaring.grown, rfl⟩
      | none =>
        simp only [Option.map_none]
        cases node with
        | function location named returnType listed statements result =>
          by_cases empty : name = some ""
          · simp only [empty, if_true]
            refine ⟨_, ?_, rfl⟩
            exact ⟨rfl, rfl, _, declaring.modules⟩
          · simp only [empty, if_false]
            obtain ⟨g', grown, declared⟩ := ih (declaring.add missing listed.length location)
            exact ⟨g', ⟨grown.moduleName, grown.lines, grown.modules⟩, declared⟩
        | _ =>
          refine ⟨_, ?_, rfl⟩
          exact ⟨rfl, rfl, _, declaring.modules⟩

-- A module whose functions are all declared knows them.
theorem knows_declared (declared : Lower.Declared functions table)
    (modules : g.modules = front ++ [table.map declaredDraft]) : g.Knows table := by
  have current := current_eq modules
  refine ⟨by simp [modules], ?_, ?_⟩
  · rw [current, List.map_map]
    exact declared.distinct
  · intro name
    rw [find?, current, List.find?_map, Option.map_map]
    rfl

theorem function_eq (table : Signatures) (location : Option Location) (name returnType : Name)
    (listed statements : List Node) (result : Node) :
    Lower.function table (.function location name returnType listed statements result) =
      (Plan.node table (.function location name returnType listed statements result) none).map fun (code, _, _) =>
        { (Draft.declared name listed.length).code with body := code } := by
  simp only [Lower.function, Plan.node]
  cases Lower.node table (.function location name returnType listed statements result) none <;> rfl

theorem exists_signature (knows : g.Knows table) (found : g.find? name = some draft) :
    ∃ signature, table.find? name = some signature := by
  apply Option.ne_none_iff_exists'.mp
  rw [Ne, ← find?_none_iff knows, found]
  nofun

theorem code_of_heading {draft declared : Draft} (heading : draft.heading = declared.heading)
    (body : draft.body = declared.body ++ code) :
    draft.code = { declared.code with body := declared.body ++ code } := by
  have whole : draft.code = { draft.heading with body := draft.body } := rfl
  rw [whole, heading, body]
  rfl

-- Visiting the functions of a program one by one makes the same code of each as lowering it. The functions before are
-- finished, and those behind are declared.
theorem visitAll_follows (functions : List Node) (definitions : ∀ f ∈ functions, (Lower.signature? f).isSome)
    (knows : g.Knows table)
    (modules : g.modules = front ++ [done ++ (functions.filterMap Lower.signature?).map declaredDraft]) :
    ∃ g', Grown front g g' ∧
      match functions.mapM (Lower.function table) with
      | .error rejection => visitAll functions g = (.error rejection, g')
      | .ok codes => visitAll functions g = (.ok none, g') ∧
        ∃ drafts, g'.modules = front ++ [done ++ drafts] ∧ drafts.map Draft.code = codes := by
  induction functions generalizing g done with
  | nil => exact ⟨g, ⟨rfl, rfl, _, modules⟩, rfl, [], modules, rfl⟩
  | cons f rest ih =>
    obtain ⟨here, later⟩ := List.forall_mem_cons.mp definitions
    cases f with
    | function location name returnType listed statements result =>
      have split : g.Split ⟨front.length, name⟩ front done (Draft.declared name listed.length)
          ((rest.filterMap Lower.signature?).map declaredDraft) := split_of_modules knows modules rfl
      obtain ⟨signature, declared⟩ := exists_signature knows split.find?
      obtain ⟨g', frame, visited⟩ := split.visit knows declared location returnType
        (functionBody_simulates listed statements result) none
      have named : (Draft.declared name listed.length).name = name := rfl
      rw [named] at visited
      rw [List.mapM_cons, function_eq, visitAll, Work.andThen]
      generalize Plan.node table (.function location name returnType listed statements result) none = planned
        at visited ⊢
      rcases planned with rejection | ⟨code, value, left⟩
      · rw [visited]
        exact ⟨g', frame.grown modules, rfl⟩
      · obtain ⟨rfl, rfl, finished, -, draft, modules', heading, body⟩ := visited
        rw [finished]
        have modules'' : g'.modules =
            front ++ [(done ++ [draft]) ++ (rest.filterMap Lower.signature?).map declaredDraft] := by
          simpa using modules'
        obtain ⟨g'', grown, outcome⟩ := ih later (frame.knows knows) modules''
        have written : draft.code = { (Draft.declared name listed.length).code with body := code } :=
          code_of_heading heading body
        refine ⟨g'', (frame.grown modules).trans grown, ?_⟩
        simp only [Except.map, ok_bind]
        generalize rest.mapM (Lower.function table) = codes at outcome ⊢
        cases codes with
        | error rejection => exact outcome
        | ok codes =>
          obtain ⟨visited, drafts, final, each⟩ := outcome
          refine ⟨visited, draft :: drafts, by simpa using final, ?_⟩
          rw [List.map_cons, written, each]
    | _ => cases here

theorem module_last {g : Generator} (modules : g.modules = front ++ [now]) :
    g.module front.length = ⟨g.moduleName, now.map Draft.code⟩ := by
  simp [module, modules]

-- Whatever the calls before have left behind, a call makes the module that lowering makes, and it is refused where
-- lowering is. Only the table of definitions is cleared: the place and the variables of an earlier call are never
-- looked at, since every function enters itself before anything of it is visited.
theorem build_follows (g : Generator) (tree : Node) :
    ∃ g', Grown g.modules g g' ∧
      match Lower.program g.moduleName tree with
      | .error rejection => build tree g = (.error rejection, g')
      | .ok m => build tree g = (.ok g.modules.length, g') ∧ g'.module g.modules.length = m := by
  cases tree with
  | program location functions =>
    have declaring : Declaring g.modules []
        { g with modules := g.modules ++ [[]], definitions := .empty } := ⟨rfl, fun _ => rfl⟩
    obtain ⟨g', ⟨moduleName, lines, begun⟩, outcome⟩ := declareAll_follows functions declaring
    have grown : Grown g.modules g g' := ⟨moduleName, lines, begun⟩
    simp only [Lower.program, Lower.declare, build, begin, Work.andThen]
    cases declares : Lower.declareFrom [] functions with
    | error rejection =>
      rw [declares] at outcome
      dsimp only at outcome
      exact ⟨g', grown, by rw [outcome]; rfl⟩
    | ok table =>
      rw [declares] at outcome
      obtain ⟨declared, modules⟩ := outcome
      have known := Lower.declare_eq_ok_iff.mp declares
      have listed : g'.modules = g.modules ++ [[] ++ (functions.filterMap Lower.signature?).map declaredDraft] := by
        rw [modules, known.listed, List.nil_append]
      obtain ⟨g'', later, outcome⟩ := visitAll_follows functions known.definitions (knows_declared known modules) listed
      refine ⟨g'', grown.trans later, ?_⟩
      rw [declared]
      simp only [ok_bind]
      cases lowers : functions.mapM (Lower.function table) with
      | error rejection =>
        rw [lowers] at outcome
        dsimp only at outcome
        rw [outcome]
        rfl
      | ok codes =>
        rw [lowers] at outcome
        obtain ⟨visited, drafts, final, rfl⟩ := outcome
        rw [visited]
        refine ⟨rfl, ?_⟩
        rw [module_last final, (grown.trans later).moduleName]
        rfl
  | _ =>
    refine ⟨_, ?_, rfl⟩
    exact ⟨rfl, rfl, [], rfl⟩

theorem emit_follows (g : Generator) (tree : Node) :
    Grown g.modules g (g.emit tree).2 ∧
      (g.emit tree).1 = (lowerTree g.moduleName g.lines tree).map (fun _ => g.modules.length) ∧
      ∀ m, lowerTree g.moduleName g.lines tree = .ok m → (g.emit tree).2.module g.modules.length = m := by
  obtain ⟨g', grown, outcome⟩ := g.build_follows tree
  unfold emit lowerTree
  generalize Lower.program g.moduleName tree = lowered at outcome ⊢
  cases lowered with
  | error rejection =>
    dsimp only at outcome
    rw [outcome]
    exact ⟨grown, rfl, nofun⟩
  | ok m =>
    obtain ⟨built, made⟩ := outcome
    rw [built]
    refine ⟨grown, rfl, ?_⟩
    rintro _ ⟨⟩
    exact made

-- What a generator answers for a tree: the module it has made, or why there is none.
def answer (g : Generator) (tree : Node) : Except Failure Module :=
  (g.emit tree).1.map (g.emit tree).2.module

theorem answer_eq (g : Generator) (tree : Node) : g.answer tree = lowerTree g.moduleName g.lines tree := by
  obtain ⟨-, result, made⟩ := g.emit_follows tree
  rw [answer, result]
  generalize lowerTree g.moduleName g.lines tree = lowered at made ⊢
  cases lowered with
  | error failed => rfl
  | ok m => exact congrArg Except.ok (made m rfl)

theorem lt_length_of_emit (emitted : (g.emit tree).1 = .ok number) : number < (g.emit tree).2.modules.length := by
  obtain ⟨⟨-, -, now, modules⟩, result, -⟩ := g.emit_follows tree
  have numbered : number = g.modules.length := by
    rw [result] at emitted
    cases lowered : lowerTree g.moduleName g.lines tree with
    | error failed => simp [lowered, Except.map] at emitted
    | ok m => simpa [lowered, Except.map, eq_comm] using emitted
  simp [numbered, modules]

-- A generator keeps its settings and every module that it has begun, however it is used.
structure Keeps (g g' : Generator) : Prop where
  moduleName : g'.moduleName = g.moduleName
  lines : g'.lines = g.lines
  modules : g.modules <+: g'.modules

theorem Grown.keeps {g' : Generator} (grown : Grown g.modules g g') : g.Keeps g' := by
  obtain ⟨moduleName, lines, now, modules⟩ := grown
  exact ⟨moduleName, lines, [now], modules.symm⟩

theorem keeps_used (g : Generator) (trees : List Node) : g.Keeps (g.used trees) := by
  induction trees generalizing g with
  | nil => exact ⟨rfl, rfl, List.prefix_rfl⟩
  | cons tree rest ih =>
    have first := (g.emit_follows tree).1.keeps
    have later := ih (g.emit tree).2
    exact ⟨later.moduleName.trans first.moduleName, later.lines.trans first.lines,
      first.modules.trans later.modules⟩

theorem Keeps.module {g' : Generator} (keeps : g.Keeps g') (begun : number < g.modules.length) :
    g'.module number = g.module number := by
  obtain ⟨moduleName, -, more, modules⟩ := keeps
  simp [Generator.module, moduleName, ← modules, List.getElem?_append_left begun]

-- A generator that was used for any trees, refused ones among them, answers for the next tree as a new one does, and
-- the module of that answer stays as it is however the generator is used afterwards.
theorem used_answers_as_new (moduleName : String) (lines : List String) (before : List Node) (tree : Node)
    (afterwards : List Node) :
    let fresh := start moduleName lines
    let old := fresh.used before
    old.answer tree = fresh.answer tree ∧
      fresh.answer tree = lowerTree moduleName lines tree ∧
      ∀ number, (old.emit tree).1 = .ok number →
        ((old.emit tree).2.used afterwards).module number = (old.emit tree).2.module number := by
  intro fresh old
  have keeps : fresh.Keeps old := fresh.keeps_used before
  refine ⟨?_, fresh.answer_eq tree, ?_⟩
  · rw [answer_eq, answer_eq, keeps.moduleName, keeps.lines]
  · intro number emitted
    exact (keeps_used _ afterwards).module (lt_length_of_emit emitted)

end WordC.Generator
