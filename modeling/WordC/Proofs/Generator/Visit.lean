import WordC.Proofs.Generator.Simulation

namespace WordC

open Lower (Progress Rejection Signatures)

theorem Work.andThen_assoc (first : Work α) (next : α → Work β) (last : β → Work γ) :
    (first.andThen next).andThen last = first.andThen fun result => (next result).andThen last := by
  funext g
  unfold Work.andThen
  rcases first g with ⟨_ | result, g'⟩ <;> rfl

namespace Generator

variable {g : Generator} {site : Site} {table : Signatures}

theorem split_of_modules (knows : g.Knows table) (modules : g.modules = front ++ [before ++ draft :: after])
    (named : draft.name = name) : g.Split ⟨front.length, name⟩ front before draft after := by
  refine ⟨modules, by rw [named], ?_⟩
  have distinct := knows.distinct
  rw [current_eq modules, List.map_append, List.map_cons, List.nodup_middle, ← List.map_append] at distinct
  intro other member same
  exact (List.nodup_cons.mp distinct).1 (same ▸ List.mem_map_of_mem member)

theorem exists_split (knows : g.Knows table) (declared : table.find? name = some signature) :
    ∃ front before draft after, g.Split ⟨g.modules.length - 1, name⟩ front before draft after ∧ draft.name = name := by
  obtain ⟨draft, found⟩ : ∃ draft, g.find? name = some draft := by
    apply Option.ne_none_iff_exists'.mp
    rw [Ne, find?_none_iff knows, declared]
    nofun
  have modules := (List.dropLast_append_getLast knows.begun).symm
  obtain ⟨same, before, after, listed, -⟩ := List.find?_eq_some_iff_append.mp found
  have named : draft.name = name := by simpa using same
  rw [← current_eq modules, listed] at modules
  refine ⟨g.modules.dropLast, before, draft, after, ?_, named⟩
  simpa using split_of_modules knows modules named

-- The generator at the beginning of a function.
def entering (g : Generator) (site : Site) (front : List (List Draft)) (before : List Draft) (draft : Draft)
    (after : List Draft) : Generator :=
  { g with modules := front ++ [before ++ draft.entered :: after], site := some site, slots := some .empty }

theorem Split.find? (split : g.Split site front before draft after) : g.find? draft.name = some draft := by
  rw [Generator.find?, current_eq split.modules, List.find?_append,
    List.find?_eq_none.mpr fun other member => by simpa using split.apart other (by simp [member])]
  simp

-- A function is entered wherever the generator was before.
theorem Split.enter (split : g.Split site front before draft after) (knows : g.Knows table)
    (declared : table.find? draft.name = some signature) :
    draft.arguments.length = signature.arity ∧
      enter draft.name g = (.ok (Lower.entryNames signature.arity).1, g.entering site front before draft after) := by
  have arguments := arguments_of_find? knows split.find? declared
  have here : (⟨g.modules.length - 1, draft.name⟩ : Site) = site := by simp [split.site, split.modules]
  refine ⟨by rw [arguments, length_entryNames], ?_⟩
  simp only [Generator.enter, split.find?, arguments, here, split.alter]
  rfl

theorem Split.entering (split : g.Split site front before draft after) :
    (g.entering site front before draft after).Split site front before draft.entered after :=
  ⟨rfl, split.site, split.apart⟩

theorem Split.working_entering (split : g.Split site front before draft after) (arity : draft.arguments.length = n) :
    (g.entering site front before draft after).Working site (Plan.emptyBody n) :=
  ⟨rfl, rfl, front, before, draft.entered, after, split.entering, by rw [← arity]; rfl, rfl⟩

theorem Split.frame_entering (split : g.Split site front before draft after) :
    Frame g (g.entering site front before draft after) :=
  ⟨rfl, rfl, front, _, _, split.modules, rfl, by simp [Draft.heading, Draft.code, Draft.entered]⟩

theorem visit_function_eq (location : Option Location) (name returnType : Name) (listed statements : List Node)
    (result : Node) :
    visit (.function location name returnType listed statements result) =
      (enter name).andThen fun arguments =>
        ((bindParameters (listed.zip arguments)).andThen fun _ =>
          (visitAll statements).andThen fun _ => visit result).andThen fun _ => leave := by
  simp only [visit, Work.andThen_assoc]

theorem visit_undefined (knows : g.Knows table) (missing : table.find? name = none) (location : Option Location)
    (returnType : Name) (listed statements : List Node) (result : Node) :
    visit (.function location name returnType listed statements result) g =
      (.error (.defective .undefinedFunction), g) := by
  have undefined : enter name g = (.error (.defective .undefinedFunction), g) := by
    simp only [enter, (find?_none_iff knows).mpr missing]
  rw [visit_function_eq]
  simp only [Work.andThen, undefined]

-- A function that is lowered adds its code to its draft, and leaves the generator outside of all functions.
structure Finishes (front : List (List Draft)) (before : List Draft) (draft : Draft) (after : List Draft)
    (code : List Instr) (g : Generator) : Prop where
  idle : g.Idle
  draft : ∃ draft', g.modules = front ++ [before ++ draft' :: after] ∧ draft'.heading = draft.heading ∧
    draft'.body = draft.body ++ code

theorem Split.visit (split : g.Split site front before draft after) (knows : g.Knows table)
    (declared : table.find? draft.name = some signature) (location : Option Location) (returnType : Name)
    {listed statements : List Node} {result : Node}
    (inner : ∀ arguments, Simulates table
      ((bindParameters (listed.zip arguments)).andThen fun _ =>
        (visitAll statements).andThen fun _ => Generator.visit result)
      (Plan.functionBody table listed statements result arguments))
    (body : Option Progress) :
    ∃ g', Frame g g' ∧
      match Plan.node table (.function location draft.name returnType listed statements result) body with
      | .error rejection =>
        Generator.visit (.function location draft.name returnType listed statements result) g = (.error rejection, g')
      | .ok (code, value, left) => value = none ∧ left = none ∧
        Generator.visit (.function location draft.name returnType listed statements result) g = (.ok none, g') ∧
        Finishes front before draft after code g' := by
  obtain ⟨arity, entered⟩ := split.enter knows declared
  have frame := split.frame_entering
  obtain ⟨frame', outcome⟩ := inner (Lower.entryNames signature.arity).1 _ (some (Plan.emptyBody signature.arity))
    (frame.knows knows) ⟨site, split.working_entering arity⟩
  rw [visit_function_eq, Plan.node_function declared, Work.andThen, entered]
  simp only
  rw [Work.andThen]
  generalize ((bindParameters (listed.zip (Lower.entryNames signature.arity).1)).andThen fun _ =>
    (visitAll statements).andThen fun _ => Generator.visit result) _ = done at frame' outcome
  generalize Plan.functionBody table listed statements result _ _ = planned at outcome ⊢
  obtain ⟨reached, left⟩ := done
  rcases planned with rejection | ⟨code, value, _ | final⟩
  · cases outcome
    exact ⟨left, frame.trans frame', rfl⟩
  · obtain ⟨rfl, idle, -⟩ := outcome
    have unbound : left.slots = none := idle.2
    exact ⟨left, frame.trans frame', by simp [leave, unbound]⟩
  · obtain ⟨rfl, -, wrote⟩ := outcome
    obtain ⟨site', here, written⟩ := wrote final rfl
    cases here
    rw [split.entering.wrote] at written
    cases written
    have whole := frame.trans frame'
    refine ⟨_, ?_, rfl, rfl, rfl, ⟨rfl, rfl⟩, _, rfl, rfl, rfl⟩
    exact ⟨whole.moduleName, whole.lines, whole.modules⟩

theorem newSlot_simulates (name : Name) : Simulates table (newSlot name) (.newSlot name) := by
  apply (simulates_addNamed _ _).andThen
  intro slot
  apply (simulates_bindSlot name slot).andThen
  intro _
  exact simulates_give slot

theorem storeAll_simulates (value : Operand) (slots : List String) :
    Simulates table (storeAll value slots) (.storeAll value slots) := by
  induction slots with
  | nil => exact simulates_give ()
  | cons slot rest ih => exact (simulates_addUnnamed _).andThen fun _ => ih

theorem addCall_simulates (function : Name) (values : Option (List Operand)) :
    Simulates table (addCall function values) (.addCall function values) := by
  apply (simulates_inside _).andThen
  intro _
  cases values with
  | none => exact simulates_reject _
  | some values => exact (simulates_addNamed _ _).andThen fun result => simulates_give _

theorem addJoin_simulates (op : Arith) (reached : Operand) (value : Option Operand) :
    Simulates table (addJoin op reached value) (.addJoin op reached value) := by
  cases value with
  | none => exact simulates_reject _
  | some value =>
    apply (simulates_inside _).andThen
    intro _
    exact (simulates_addNamed _ _).andThen fun result => simulates_give _

theorem storeIn_simulates (targets : List String) (value : Option Operand) :
    Simulates table (storeIn targets value) (.storeIn targets value) := by
  cases targets with
  | nil => exact simulates_give value
  | cons slot rest =>
    cases value with
    | none => exact simulates_reject _
    | some stored =>
      apply (simulates_inside _).andThen
      intro _
      exact (storeAll_simulates stored (slot :: rest)).andThen fun _ => simulates_give _

theorem bindParameters_simulates (listed : List (Node × String)) :
    Simulates table (bindParameters listed) (.bindParameters listed) := by
  induction listed with
  | nil => exact simulates_give ()
  | cons first rest ih =>
    obtain ⟨node, argument⟩ := first
    unfold bindParameters Plan.bindParameters
    cases node.name? with
    | none => exact simulates_reject _
    | some name => exact (newSlot_simulates name).andThen fun slot => (simulates_addUnnamed _).andThen fun _ => ih

mutual

-- Visiting a node does what lowering it plans, from wherever it is begun in the module of a table.
theorem visit_simulates (n : Node) : Simulates table (visit n) (.node table n) := by
  match n with
  | .absent => exact simulates_reject _
  | .bare .. | .parameter .. => exact simulates_give none
  | .program _ functions => exact visitPresent_simulates functions
  | .function location name returnType listed statements result =>
    intro g body knows stands
    have inner (arguments : List String) := (bindParameters_simulates (listed.zip arguments)).andThen fun _ =>
      (visitAll_simulates statements).andThen fun _ => visit_simulates result
    cases declared : table.find? name with
    | none =>
      rw [visit_undefined knows declared]
      have planned : Plan.node table (.function location name returnType listed statements result) body =
          .error (.defective .undefinedFunction) := by
        simp only [Plan.node, Lower.node, declared, Except.map]
      rw [planned]
      exact ⟨.refl knows.begun, rfl⟩
    | some signature =>
      obtain ⟨front, before, draft, after, split, rfl⟩ := exists_split knows declared
      obtain ⟨g', frame, visited⟩ := split.visit knows declared location returnType inner body
      unfold Follows
      generalize Plan.node table (.function location draft.name returnType listed statements result) body = planned
        at visited ⊢
      rcases planned with rejection | ⟨code, value, left⟩
      · rw [visited]
        exact ⟨frame, rfl⟩
      · obtain ⟨rfl, rfl, done, finishes⟩ := visited
        rw [done]
        exact ⟨frame, rfl, finishes.idle, nofun⟩
  | .declare location typeName name =>
    rw [Plan.node_declare]
    exact (newSlot_simulates name).andThen fun _ => simulates_give none
  | .expression location value =>
    rw [Plan.node_expression]
    exact (visit_simulates value).andThen fun _ => simulates_give none
  | .ret location value =>
    rw [Plan.node_ret]
    exact (visit_simulates value).andThen simulates_giveBack
  | .number _ none => exact simulates_reject _
  | .number _ (some value) => exact simulates_give _
  | .var location name =>
    rw [Plan.node_var]
    exact (simulates_slotFor name location).andThen fun slot =>
      (simulates_addNamed _ _).andThen fun result => simulates_give _
  | .call location function arguments =>
    rw [Plan.node_call]
    exact (simulates_checkCall function arguments.length location).andThen fun _ =>
      (visitOperands_simulates arguments).andThen (addCall_simulates function)
  | .chain _ .sum terms => exact visitFold_simulates .add (.constant 0) terms
  | .chain _ .product factors => exact visitFold_simulates .mul (.constant 1) factors
  | .chain _ .assign sides => exact visitAssign_simulates [] sides

theorem visitAll_simulates (ns : List Node) : Simulates table (visitAll ns) (.nodes table ns) := by
  match ns with
  | [] => exact simulates_give none
  | first :: rest =>
    rw [Plan.nodes_cons]
    exact (visit_simulates first).andThen fun _ => visitAll_simulates rest

theorem visitPresent_simulates (ns : List Node) : Simulates table (visitPresent ns) (.present table ns) := by
  match ns with
  | [] => exact simulates_give none
  | first :: rest =>
    have here := visit_simulates first
    have later := visitPresent_simulates rest
    rw [Plan.present_cons, visitPresent]
    split_ifs
    · exact later
    · exact here.andThen fun _ => later

theorem visitOperands_simulates (ns : List Node) : Simulates table (visitOperands ns) (.operands table ns) := by
  match ns with
  | [] => exact simulates_give _
  | first :: rest =>
    rw [Plan.operands_cons]
    exact (visit_simulates first).andThen fun value =>
      (visitOperands_simulates rest).andThen fun values => simulates_give _

theorem visitFold_simulates (op : Arith) (reached : Operand) (ns : List Node) :
    Simulates table (visitFold op reached ns) (.fold table op reached ns) := by
  match ns with
  | [] => exact simulates_give _
  | first :: rest =>
    rw [Plan.fold_cons]
    exact (simulates_inside _).andThen fun _ => (visit_simulates first).andThen fun value =>
      (addJoin_simulates op reached value).andThen fun joined => visitFold_simulates op joined rest

theorem visitAssign_simulates (targets : List String) (ns : List Node) :
    Simulates table (visitAssign targets ns) (.assign table targets ns) := by
  match ns with
  | [] => exact simulates_reject _
  | [last] =>
    rw [Plan.assign_single]
    exact (visit_simulates last).andThen (storeIn_simulates targets)
  | target :: next :: rest =>
    have later (slot : String) := visitAssign_simulates (slot :: targets) (next :: rest)
    rw [Plan.assign_cons]
    cases target with
    | absent => exact simulates_reject _
    | var location name => exact (simulates_slotFor name location).andThen later
    | _ => exact simulates_reject _

end

theorem functionBody_simulates (listed statements : List Node) (result : Node) (arguments : List String) :
    Simulates table
      ((bindParameters (listed.zip arguments)).andThen fun _ => (visitAll statements).andThen fun _ => visit result)
      (.functionBody table listed statements result arguments) :=
  (bindParameters_simulates _).andThen fun _ => (visitAll_simulates statements).andThen fun _ => visit_simulates result

end Generator

end WordC
