import Mathlib.Tactic.SplitIfs
import WordC.Module.Lower

namespace WordC

open Lower (Progress Rejection Signatures)

def Lower.Lowered.parts (lowered : Lower.Lowered) : List Instr × Option Operand × Option Progress :=
  (lowered.code, lowered.value, lowered.body)

-- What lowering makes of a part of a body: the code, what it comes to, and the body after it.
abbrev Plan (α : Type) := Option Progress → Except Rejection (List Instr × α × Option Progress)

namespace Plan

def give (result : α) : Plan α := fun body => .ok ([], result, body)

def reject (rejection : Rejection) : Plan α := fun _ => .error rejection

def andThen (first : Plan α) (next : α → Plan β) : Plan β := fun body =>
  match first body with
  | .error rejection => .error rejection
  | .ok (code, result, body) =>
    match next result body with
    | .error rejection => .error rejection
    | .ok (later, result, body) => .ok (code ++ later, result, body)

-- One step of a body that is open.
def step (defect : Defect) (edit : Progress → Except Rejection (List Instr × α × Progress)) : Plan α
  | none => .error (.defective defect)
  | some body => (edit body).map fun (code, result, body) => (code, result, some body)

theorem step_some (defect : Defect) (edit : Progress → Except Rejection (List Instr × α × Progress)) (body : Progress) :
    step defect edit (some body) = (edit body).map fun (code, result, body) => (code, result, some body) := rfl

def named (hint : String) (instruction : String → Instr) : Plan String :=
  step .outsideFunction fun body =>
    let (name, names) := body.names.fresh hint
    .ok ([instruction name], name, { body with names })

def unnamed (instruction : Instr) : Plan Unit :=
  step .outsideFunction fun body => .ok ([instruction], (), { body with names := body.names.skip })

def giveBack (value : Option Operand) : Plan (Option Operand) :=
  step .outsideFunction fun body =>
    if body.closed then .error (.defective .secondReturn)
    else .ok ([.ret value], none, { body with names := body.names.skip, closed := true })

def bindSlot (name : Name) (slot : String) : Plan Unit :=
  step .outsideFunction fun body => .ok ([], (), { body with slots := body.slots.bind name slot })

def slotFor (name : Name) (location : Option Location) : Plan String :=
  step .outsideFunction fun body => (Lower.slotOf body.slots name location).map fun slot => ([], slot, body)

def inside (defect : Defect) : Plan Unit := step defect fun body => .ok ([], (), body)

def checkCall (table : Signatures) (function : Name) (given : Nat) (location : Option Location) : Plan Unit :=
  fun body =>
    match table.find? function with
    | none => .error (.unknownFunction function location)
    | some signature =>
      if given ≠ signature.arity then .error (.wrongArgumentCount function signature.arity given location)
      else .ok ([], (), body)

variable {table : Signatures}

-- The functions of lowering as plans, each put together from the same steps as the work it stands for.

def node (table : Signatures) (n : Node) : Plan (Option Operand) :=
  fun body => (Lower.node table n body).map Lower.Lowered.parts

def nodes (table : Signatures) (ns : List Node) : Plan (Option Operand) :=
  fun body => (Lower.nodes table ns body).map Lower.Lowered.parts

def present (table : Signatures) (ns : List Node) : Plan (Option Operand) :=
  fun body => (Lower.present table ns body).map Lower.Lowered.parts

def fold (table : Signatures) (op : Arith) (reached : Operand) (ns : List Node) : Plan (Option Operand) :=
  fun body => (Lower.fold table op reached ns body).map Lower.Lowered.parts

def assign (table : Signatures) (targets : List String) (ns : List Node) : Plan (Option Operand) :=
  fun body => (Lower.assign table targets ns body).map Lower.Lowered.parts

def operands (table : Signatures) (ns : List Node) : Plan (Option (List Operand)) := Lower.operands table ns

def newSlot (name : Name) : Plan String :=
  (named name.text .alloca).andThen fun slot => (bindSlot name slot).andThen fun _ => give slot

def storeAll (value : Operand) : List String → Plan Unit
  | [] => give ()
  | slot :: rest => (unnamed (.store value slot)).andThen fun _ => storeAll value rest

def addCall (function : Name) (values : Option (List Operand)) : Plan (Option Operand) :=
  (inside .outsideFunction).andThen fun _ =>
  match values with
  | none => reject (.defective .noValue)
  | some values => (named "call" (.call · function values)).andThen fun result => give (some (.register result))

def addJoin (op : Arith) (reached : Operand) (value : Option Operand) : Plan Operand :=
  match value with
  | none => reject (.defective .noValue)
  | some value =>
    (inside .noValue).andThen fun _ =>
    (named (Lower.joinHint op) (.arith op · reached value)).andThen fun result =>
    give (.register result)

def storeIn (targets : List String) (value : Option Operand) : Plan (Option Operand) :=
  if targets.isEmpty then give value
  else match value with
  | none => reject (.defective .noValue)
  | some stored =>
    (inside .noValue).andThen fun _ => (storeAll stored targets).andThen fun _ => give value

def bindParameters : List (Node × String) → Plan Unit
  | [] => give ()
  | (node, argument) :: rest =>
    match node.name? with
    | none => reject (.defective .misplaced)
    | some name =>
      (newSlot name).andThen fun slot =>
      (unnamed (.store (.register argument) slot)).andThen fun _ =>
      bindParameters rest

theorem andThen_of_error {first : Plan α} (failed : first body = .error rejection) (next : α → Plan β) :
    first.andThen next body = .error rejection := by
  simp only [andThen, failed]

theorem andThen_of_ok {first : Plan α} (done : first body = .ok (code, result, left)) (next : α → Plan β) :
    first.andThen next body = (next result left).map fun (later, result, body) => (code ++ later, result, body) := by
  simp only [andThen, done]
  rcases next result left with rejection | ⟨later, result, body⟩ <;> rfl

theorem inside_andThen (defect : Defect) (next : Unit → Plan α) (body : Progress) :
    (inside defect).andThen next (some body) = next () (some body) := by
  rw [andThen_of_ok rfl]
  rcases next () (some body) with rejection | ⟨later, result, body⟩ <;> rfl

theorem node_expression (location : Option Location) (value : Node) :
    node table (.expression location value) = (node table value).andThen fun _ => give none := by
  funext body
  simp only [node, Lower.node, andThen]
  cases Lower.node table value body with
  | error rejection => rfl
  | ok lowered => simp [Except.map, Lower.Lowered.parts, give]

theorem node_ret (location : Option Location) (value : Node) :
    node table (.ret location value) = (node table value).andThen giveBack := by
  funext body
  simp only [node, Lower.node, andThen]
  rcases Lower.node table value body with rejection | ⟨code, value, _ | left⟩
  · rfl
  · rfl
  · simp only [Except.map, Lower.Lowered.parts, giveBack, step]
    cases left.closed <;> rfl

theorem node_declare (location : Option Location) (typeName name : Name) :
    node table (.declare location typeName name) =
      (newSlot name).andThen fun _ => give none := by
  funext body
  cases body <;> rfl

theorem node_var (location : Option Location) (name : Name) :
    node table (.var location name) =
      (slotFor name location).andThen fun slot => (named name.text (.load · slot)).andThen fun result =>
        give (some (.register result)) := by
  funext body
  cases body with
  | none => rfl
  | some body =>
    simp only [node, Lower.node, andThen, slotFor, step]
    cases Lower.slotOf body.slots name location <;> rfl

theorem node_call (location : Option Location) (function : Name) (arguments : List Node) :
    node table (.call location function arguments) =
      (checkCall table function arguments.length location).andThen fun _ =>
      (operands table arguments).andThen fun values =>
      addCall function values := by
  funext body
  simp only [node, operands, Lower.node, andThen, checkCall]
  cases table.find? function with
  | none => rfl
  | some signature =>
    simp only
    split_ifs
    · rfl
    · dsimp only
      rcases Lower.operands table arguments body with rejection | ⟨code, _ | values, _ | left⟩ <;> rfl

theorem nodes_cons (first : Node) (rest : List Node) :
    nodes table (first :: rest) = (node table first).andThen fun _ => nodes table rest := by
  funext body
  simp only [nodes, node, Lower.nodes, andThen]
  rcases Lower.node table first body with rejection | here
  · rfl
  · simp only [Except.map, Lower.Lowered.parts]
    cases Lower.nodes table rest here.body <;> rfl

theorem present_cons (first : Node) (rest : List Node) :
    present table (first :: rest) =
      if first.isAbsent then present table rest else (node table first).andThen fun _ => present table rest := by
  funext body
  simp only [present, Lower.present]
  split_ifs
  · rfl
  · simp only [andThen, node, present]
    rcases Lower.node table first body with rejection | here
    · rfl
    · simp only [Except.map, Lower.Lowered.parts]
      cases Lower.present table rest here.body <;> rfl

theorem operands_cons (first : Node) (rest : List Node) :
    operands table (first :: rest) =
      (node table first).andThen fun value =>
      (operands table rest).andThen fun values =>
      give (value.bind fun value => values.map (value :: ·)) := by
  funext body
  simp only [node, operands, Lower.operands, andThen]
  rcases Lower.node table first body with rejection | here
  · rfl
  · simp only [Except.map, Lower.Lowered.parts]
    rcases Lower.operands table rest here.body with rejection | ⟨code, values, left⟩
    · rfl
    · simp [give]

theorem addJoin_some (op : Arith) (reached value : Operand) (body : Progress) :
    addJoin op reached (some value) (some body) =
      .ok ([.arith op (body.names.fresh (Lower.joinHint op)).1 reached value],
        .register (body.names.fresh (Lower.joinHint op)).1,
        some { body with names := (body.names.fresh (Lower.joinHint op)).2 }) := rfl

theorem fold_cons (op : Arith) (reached : Operand) (first : Node) (rest : List Node) :
    fold table op reached (first :: rest) =
      (inside .outsideFunction).andThen fun _ =>
      (node table first).andThen fun value =>
      (addJoin op reached value).andThen fun joined =>
      fold table op joined rest := by
  funext body
  cases body with
  | none => rfl
  | some body =>
    rw [inside_andThen]
    cases lowered : Lower.node table first (some body) with
    | error rejection =>
      rw [andThen_of_error (by rw [node, lowered]; rfl), fold, Lower.fold, lowered]
      rfl
    | ok here =>
      rw [andThen_of_ok (by rw [node, lowered]; rfl), fold, Lower.fold, lowered]
      rcases here with ⟨code, _ | value, _ | left⟩
      · rfl
      · rfl
      · rfl
      · rw [andThen_of_ok (addJoin_some op reached value left), fold]
        simp only
        cases Lower.fold table op _ rest _ <;> rfl

theorem storeAll_some (value : Operand) (targets : List String) (body : Progress) :
    storeAll value targets (some body) = .ok ((Lower.storeAll value targets body.names).1, (),
      some { body with names := (Lower.storeAll value targets body.names).2 }) := by
  induction targets generalizing body with
  | nil => rfl
  | cons slot rest ih =>
    rw [storeAll, andThen_of_ok rfl, ih]
    rfl

theorem storeIn_nil (value : Option Operand) : storeIn [] value = give value := rfl

theorem storeIn_some (value : Operand) (slot : String) (rest : List String) (body : Progress) :
    storeIn (slot :: rest) (some value) (some body) =
      .ok ((Lower.storeAll value (slot :: rest) body.names).1, some value,
        some { body with names := (Lower.storeAll value (slot :: rest) body.names).2 }) := by
  have opened : storeIn (slot :: rest) (some value) =
    (inside .noValue).andThen fun _ => (storeAll value (slot :: rest)).andThen fun _ => give (some value) := rfl
  rw [opened, inside_andThen, andThen_of_ok (storeAll_some value (slot :: rest) body)]
  simp [give, Except.map]

theorem assign_single (targets : List String) (last : Node) :
    assign table targets [last] = (node table last).andThen (storeIn targets) := by
  funext body
  cases lowered : Lower.node table last body with
  | error rejection =>
    rw [andThen_of_error (by rw [node, lowered]; rfl), assign, Lower.assign, lowered]
    rfl
  | ok here =>
    rw [andThen_of_ok (by rw [node, lowered]; rfl), assign, Lower.assign, lowered]
    rcases here with ⟨code, value, left⟩
    cases targets with
    | nil =>
      rw [storeIn_nil]
      rcases value with _ | value <;> rcases left with _ | left <;>
        simp [Except.map, Lower.Lowered.parts, give, Lower.storeAll]
    | cons slot rest =>
      rcases value with _ | value <;> rcases left with _ | left
      · rfl
      · rfl
      · rfl
      · rw [storeIn_some]
        rfl

theorem assign_cons (targets : List String) (target next : Node) (rest : List Node) :
    assign table targets (target :: next :: rest) =
      match target with
      | .absent => reject (.defective .absentNode)
      | .var location name =>
        (slotFor name location).andThen fun slot => assign table (slot :: targets) (next :: rest)
      | other => reject (.notAssignable other.location) := by
  funext body
  cases target with
  | var location name =>
    cases body with
    | none => rfl
    | some body =>
      simp only [assign, Lower.assign, slotFor, step, andThen]
      cases Lower.slotOf body.slots name location with
      | error rejection => rfl
      | ok slot =>
        simp only [Except.map]
        cases Lower.assign table (slot :: targets) (next :: rest) (some body) <;> rfl
  | _ => cases body <;> rfl

theorem newSlot_some (name : Name) (body : Progress) :
    newSlot name (some body) =
      .ok ([.alloca (Lower.openSlot name body).1], (Lower.openSlot name body).1,
        some (Lower.openSlot name body).2) := rfl

theorem bindParameters_some (listed : List (Node × String)) (body : Progress) :
    bindParameters listed (some body) =
      (Lower.parameters body listed).map fun (code, body) => (code, (), some body) := by
  induction listed generalizing body with
  | nil => rfl
  | cons first rest ih =>
    obtain ⟨node, argument⟩ := first
    rw [bindParameters, Lower.parameters]
    cases node.name? with
    | none => rfl
    | some name =>
      simp only
      rw [andThen_of_ok (newSlot_some name body), andThen_of_ok rfl, ih]
      simp only
      rcases Lower.parameters _ rest with rejection | ⟨later, left⟩ <;> rfl

-- What stands between the beginning of a function and its end.
def functionBody (table : Signatures) (listed statements : List Node) (result : Node) (arguments : List String) :
    Plan (Option Operand) :=
  (bindParameters (listed.zip arguments)).andThen fun _ => (nodes table statements).andThen fun _ => node table result

def emptyBody (arity : Nat) : Progress := ⟨(Lower.entryNames arity).2.2, .empty, false⟩

theorem node_function (declared : table.find? name = some signature) (location : Option Location) (returnType : Name)
    (listed statements : List Node) (result : Node) (body : Option Progress) :
    node table (.function location name returnType listed statements result) body =
      match functionBody table listed statements result (Lower.entryNames signature.arity).1
        (some (emptyBody signature.arity)) with
      | .error rejection => .error rejection
      | .ok (_, _, none) => .error (.defective .functionInside)
      | .ok (code, _, some _) => .ok (code, none, none) := by
  simp only [node, nodes, Lower.node, declared, functionBody, andThen, bindParameters_some, Lower.enter, emptyBody]
  rcases Lower.parameters _ (listed.zip _) with rejection | ⟨entry, entered⟩
  · rfl
  · simp only [Except.map]
    rcases Lower.nodes table statements (some entered) with rejection | ⟨middle, value, between⟩
    · rfl
    · simp only [Lower.Lowered.parts]
      rcases Lower.node table result between with rejection | ⟨last, value, _ | left⟩
      · rfl
      · rfl
      · simp [List.append_assoc]

end Plan

end WordC
