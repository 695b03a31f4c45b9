import WordC.Module.Generator
import WordC.Proofs.Except
import WordC.Proofs.Generator.Plan
import WordC.Proofs.Names

namespace WordC

open Lower (Progress Rejection Signatures)

-- What is settled of a function when it is declared.
def Draft.heading (draft : Draft) : Code := { draft.code with body := [] }

namespace Generator

variable {g g' : Generator} {site : Site} {p p' : Progress} {table : Signatures}

theorem modify_last (front : List β) (now : β) (change : β → β) :
    (front ++ [now]).modify front.length change = front ++ [change now] := by
  induction front with
  | nil => rfl
  | cons first rest ih => simpa using ih

theorem map_only {before after : List Draft} {draft : Draft}
    (apart : ∀ other ∈ before ++ after, other.name ≠ draft.name) (change : Draft → Draft) :
    ((before ++ draft :: after).map fun other => if other.name = draft.name then change other else other) =
      before ++ change draft :: after := by
  have kept (drafts : List Draft) (apart : ∀ other ∈ drafts, other.name ≠ draft.name) :
      (drafts.map fun other => if other.name = draft.name then change other else other) = drafts := by
    rw [List.map_congr_left fun other member => if_neg (apart other member)]
    exact List.map_id drafts
  rw [List.map_append, List.map_cons, if_pos rfl, kept before fun other member => apart other (by simp [member]),
    kept after fun other member => apart other (by simp [member])]

-- A function of the last module, and what stands around it.
structure Split (g : Generator) (site : Site) (front : List (List Draft)) (before : List Draft) (draft : Draft)
    (after : List Draft) : Prop where
  modules : g.modules = front ++ [before ++ draft :: after]
  site : site = ⟨front.length, draft.name⟩
  apart : ∀ other ∈ before ++ after, other.name ≠ draft.name

theorem Split.alter (split : g.Split site front before draft after) (change : Draft → Draft) :
    g.alter site change = { g with modules := front ++ [before ++ change draft :: after] } := by
  obtain ⟨modules, rfl, apart⟩ := split
  simp only [Generator.alter, modules, modify_last, map_only apart]

theorem Split.draft? (split : g.Split site front before draft after) : g.draft? site = some draft := by
  obtain ⟨modules, rfl, apart⟩ := split
  have found : (before ++ draft :: after).find? (fun other => other.name = draft.name) = some draft := by
    rw [List.find?_append, List.find?_eq_none.mpr fun other member => by simpa using apart other (by simp [member])]
    simp
  simp [Generator.draft?, modules, found]

-- A generator that is inside of a function of its last module.
structure Working (g : Generator) (site : Site) (p : Progress) : Prop where
  here : g.site = some site
  slots : g.slots = some p.slots
  split : ∃ front before draft after, g.Split site front before draft after ∧ draft.names = p.names ∧
    draft.closed = p.closed

def Idle (g : Generator) : Prop := g.site = none ∧ g.slots = none

def At (g : Generator) : Option Progress → Prop
  | none => g.Idle
  | some p => ∃ site, g.Working site p

theorem At.exists_of_site {body : Option Progress} (stands : g.At body) (here : g.site = some site) :
    ∃ p, body = some p := by
  cases body with
  | none => cases stands.1.symm.trans here
  | some p => exact ⟨p, rfl⟩

-- The generator with some code added to a function.
def wrote (g : Generator) (site : Site) (code : List Instr) (p : Progress) : Generator :=
  { g.alter site fun draft => { draft with names := p.names, body := draft.body ++ code, closed := p.closed } with
    slots := some p.slots }

theorem Split.wrote (split : g.Split site front before draft after) (code : List Instr) (p : Progress) :
    g.wrote site code p =
      { g with
        modules := front ++ [before ++
          { draft with names := p.names, body := draft.body ++ code, closed := p.closed } :: after]
        slots := some p.slots } := by
  rw [Generator.wrote, split.alter]

theorem Split.of_wrote (split : g.Split site front before draft after) (code : List Instr) (p : Progress) :
    (g.wrote site code p).Split site front before
      { draft with names := p.names, body := draft.body ++ code, closed := p.closed } after := by
  rw [split.wrote]
  exact ⟨rfl, split.site, split.apart⟩

theorem Working.wrote (working : g.Working site p) (code : List Instr) (p' : Progress) :
    (g.wrote site code p').Working site p' := by
  obtain ⟨front, before, draft, after, split, -, -⟩ := working.split
  exact ⟨working.here, rfl, front, before, _, after, split.of_wrote code p', rfl, rfl⟩

theorem Working.wrote_nil (working : g.Working site p) : g.wrote site [] p = g := by
  obtain ⟨here, slots, front, before, draft, after, split, names, closed⟩ := working
  rw [split.wrote, ← names, ← closed, ← slots, List.append_nil, ← split.modules]

theorem Working.wrote_wrote (working : g.Working site p) (code later : List Instr) (q r : Progress) :
    (g.wrote site code q).wrote site later r = g.wrote site (code ++ later) r := by
  obtain ⟨front, before, draft, after, split, -, -⟩ := working.split
  rw [(split.of_wrote code q).wrote, split.wrote, split.wrote]
  simp

-- What work inside of a module leaves as it is: the modules before it, and which functions it has.
structure Frame (g g' : Generator) : Prop where
  moduleName : g'.moduleName = g.moduleName
  lines : g'.lines = g.lines
  modules : ∃ front now now', g.modules = front ++ [now] ∧ g'.modules = front ++ [now'] ∧
    now'.map Draft.heading = now.map Draft.heading

theorem current_eq (modules : g.modules = front ++ [now]) : g.current = now := by
  simp [current, modules]

theorem Frame.refl (begun : g.modules ≠ []) : Frame g g := by
  refine ⟨rfl, rfl, g.modules.dropLast, g.modules.getLast begun, g.modules.getLast begun, ?_, ?_, rfl⟩ <;>
    exact (List.dropLast_append_getLast begun).symm

theorem Frame.trans {g'' : Generator} (frame : Frame g g') (later : Frame g' g'') : Frame g g'' := by
  obtain ⟨name, lines, front, now, now', modules, modules', headings⟩ := frame
  obtain ⟨name', lines', front', now'', last, again, modules'', headings'⟩ := later
  obtain ⟨rfl, same⟩ := List.append_inj' (modules'.symm.trans again) rfl
  cases same
  exact ⟨name'.trans name, lines'.trans lines, front, now, last, modules, modules'', headings'.trans headings⟩

theorem frame_wrote (working : g.Working site p) (code : List Instr) (p' : Progress) :
    Frame g (g.wrote site code p') := by
  obtain ⟨front, before, draft, after, split, -, -⟩ := working.split
  rw [split.wrote]
  exact ⟨rfl, rfl, front, _, _, split.modules, rfl, by simp [Draft.heading, Draft.code]⟩

-- The functions of the last module are those of a table, each declared once.
structure Knows (g : Generator) (table : Signatures) : Prop where
  begun : g.modules ≠ []
  distinct : (g.current.map Draft.name).Nodup
  arguments : ∀ name, (g.find? name).map Draft.arguments =
    (table.find? name).map fun signature => (Lower.entryNames signature.arity).1

theorem find?_heading (g : Generator) (name : Name) :
    (g.find? name).map Draft.heading = (g.current.map Draft.heading).find? fun code => code.name = name := by
  rw [List.find?_map]
  rfl

theorem Frame.knows (frame : Frame g g') (knows : g.Knows table) : g'.Knows table := by
  obtain ⟨-, -, front, now, now', modules, modules', headings⟩ := frame
  have same : g'.current.map Draft.heading = g.current.map Draft.heading := by
    rw [current_eq modules, current_eq modules', headings]
  have names (g : Generator) : g.current.map Draft.name = (g.current.map Draft.heading).map Code.name := by
    rw [List.map_map]
    rfl
  have arguments (g : Generator) (name : Name) :
      (g.find? name).map Draft.arguments = ((g.find? name).map Draft.heading).map Code.arguments := by
    rw [Option.map_map]
    rfl
  refine ⟨by simp [modules'], ?_, ?_⟩
  · rw [names, same, ← names]
    exact knows.distinct
  · intro name
    rw [arguments, find?_heading, same, ← find?_heading, ← arguments]
    exact knows.arguments name

-- Work that does what lowering plans for it. Where the function stays open, its code is all that was added.
def Follows (g : Generator) (planned : Except Rejection (List Instr × α × Option Progress))
    (done : Except Rejection α × Generator) : Prop :=
  Frame g done.2 ∧
  match planned with
  | .error rejection => done.1 = .error rejection
  | .ok (code, result, body) => done.1 = .ok result ∧ done.2.At body ∧
    ∀ p, body = some p → ∃ site, g.site = some site ∧ done.2 = g.wrote site code p

-- Work that follows a plan from wherever it is begun in the module of a table.
def Simulates (table : Signatures) (work : Work α) (plan : Plan α) : Prop :=
  ∀ g body, g.Knows table → g.At body → Follows g (plan body) (work g)

theorem simulates_give (result : α) : Simulates table (.give result) (.give result) := by
  intro g body knows stands
  refine ⟨.refl knows.begun, rfl, stands, ?_⟩
  rintro p rfl
  obtain ⟨site, working⟩ := stands
  exact ⟨site, working.here, working.wrote_nil.symm⟩

theorem simulates_reject (rejection : Rejection) :
    Simulates table (.reject rejection : Work α) (.reject rejection) :=
  fun _ _ knows _ => ⟨.refl knows.begun, rfl⟩

theorem Simulates.andThen {first : Work α} {next : α → Work β} {plan : Plan α} {later : α → Plan β}
    (here : Simulates table first plan) (there : ∀ result, Simulates table (next result) (later result)) :
    Simulates table (first.andThen next) (plan.andThen later) := by
  intro g body knows stands
  obtain ⟨frame, outcome⟩ := here g body knows stands
  unfold Plan.andThen Work.andThen
  generalize first g = done at frame outcome
  obtain ⟨reached, between⟩ := done
  cases planned : plan body with
  | error rejection =>
    rw [planned] at outcome
    cases outcome
    exact ⟨frame, rfl⟩
  | ok triple =>
    obtain ⟨code, result, body'⟩ := triple
    rw [planned] at outcome
    obtain ⟨rfl, stands', wrote⟩ := outcome
    obtain ⟨frame', outcome'⟩ := there result between body' (frame.knows knows) stands'
    simp only
    cases planned' : later result body' with
    | error rejection =>
      rw [planned'] at outcome'
      exact ⟨frame.trans frame', outcome'⟩
    | ok triple =>
      obtain ⟨code', result', body''⟩ := triple
      rw [planned'] at outcome'
      obtain ⟨reached, stands'', wrote'⟩ := outcome'
      refine ⟨frame.trans frame', reached, stands'', ?_⟩
      intro p final
      obtain ⟨site, here', written⟩ := wrote' p final
      obtain ⟨q, rfl⟩ := stands'.exists_of_site here'
      obtain ⟨site', open', rfl⟩ := wrote q rfl
      obtain ⟨p₀, rfl⟩ := stands.exists_of_site open'
      obtain ⟨site₀, working⟩ := stands
      have same : site' = site := Option.some.inj (open'.symm.trans here')
      have same₀ : site₀ = site := Option.some.inj (working.here.symm.trans here')
      subst same same₀
      exact ⟨_, here', written.trans (working.wrote_wrote code code' q p)⟩

-- One step inside of a function, or a rejection that leaves everything as it is.
theorem simulates_step {work : Work α} {defect : Defect}
    {edit : Progress → Except Rejection (List Instr × α × Progress)}
    (idle : ∀ g, g.Idle → work g = (.error (.defective defect), g))
    (working : ∀ g site p, g.Working site p →
      match edit p with
      | .error rejection => work g = (.error rejection, g)
      | .ok (code, result, p') => work g = (.ok result, g.wrote site code p')) :
    Simulates table work (.step defect edit) := by
  intro g body knows stands
  cases body with
  | none =>
    rw [idle g stands]
    exact ⟨.refl knows.begun, rfl⟩
  | some p =>
    obtain ⟨site, stands⟩ := stands
    have done := working g site p stands
    rw [Plan.step_some]
    cases edited : edit p with
    | error rejection =>
      rw [edited] at done
      rw [done]
      exact ⟨.refl knows.begun, rfl⟩
    | ok triple =>
      obtain ⟨code, result, p'⟩ := triple
      rw [edited] at done
      rw [done]
      refine ⟨frame_wrote stands code p', rfl, ⟨site, stands.wrote code p'⟩, ?_⟩
      rintro _ ⟨⟩
      exact ⟨site, stands.here, rfl⟩

theorem simulates_inside (defect : Defect) : Simulates table (inside defect) (.inside defect) := by
  apply simulates_step
  · intro g idle
    simp [inside, idle.1]
  · intro g site p working
    simp [inside, working.here, working.wrote_nil]

theorem simulates_change {edit : Draft → Except Defect (α × Draft)}
    {plan : Progress → Except Rejection (List Instr × α × Progress)}
    (follows : ∀ draft p, draft.names = p.names → draft.closed = p.closed →
      match edit draft with
      | .error defect => plan p = .error (.defective defect)
      | .ok (result, edited) => ∃ code p', plan p = .ok (code, result, p') ∧ p'.slots = p.slots ∧
        edited = { draft with names := p'.names, body := draft.body ++ code, closed := p'.closed }) :
    Simulates table (change edit) (.step .outsideFunction plan) := by
  apply simulates_step
  · intro g idle
    simp [change, idle.1]
  · intro g site p working
    obtain ⟨front, before, draft, after, split, names, closed⟩ := working.split
    have agrees := follows draft p names closed
    simp only [change, working.here, split.draft?]
    cases edited : edit draft with
    | error defect =>
      rw [edited] at agrees
      rw [agrees]
    | ok pair =>
      obtain ⟨result, draft'⟩ := pair
      rw [edited] at agrees
      obtain ⟨code, p', planned, slots, rfl⟩ := agrees
      rw [planned]
      simp only [split.alter, split.wrote, slots, ← working.slots]

theorem simulates_addNamed (hint : String) (instruction : String → Instr) :
    Simulates table (addNamed hint instruction) (.named hint instruction) := by
  apply simulates_change
  intro draft p names closed
  rw [names]
  rcases p.names.fresh hint with ⟨name, later⟩
  exact ⟨_, _, rfl, rfl, by rw [closed]⟩

theorem simulates_addUnnamed (instruction : Instr) :
    Simulates table (addUnnamed instruction) (.unnamed instruction) := by
  apply simulates_change
  intro draft p names closed
  exact ⟨_, _, rfl, rfl, by rw [names, closed]⟩

theorem simulates_giveBack (value : Option Operand) : Simulates table (giveBack value) (.giveBack value) := by
  apply simulates_change
  intro draft p names closed
  rw [closed]
  cases p.closed with
  | true => rfl
  | false => exact ⟨_, _, rfl, rfl, by rw [names]⟩

theorem simulates_bindSlot (name : Name) (slot : String) :
    Simulates table (bindSlot name slot) (.bindSlot name slot) := by
  apply simulates_step
  · intro g idle
    simp [bindSlot, idle.2]
  · intro g site p working
    obtain ⟨front, before, draft, after, split, names, closed⟩ := working.split
    simp only [bindSlot, working.slots, split.wrote, ← names, ← closed, List.append_nil, ← split.modules]

theorem simulates_slotFor (name : Name) (location : Option Location) :
    Simulates table (slotFor name location) (.slotFor name location) := by
  apply simulates_step
  · intro g idle
    simp [slotFor, idle.2]
  · intro g site p working
    simp only [slotFor, working.slots]
    cases Lower.slotOf p.slots name location with
    | error rejection => rfl
    | ok slot => simp [Except.map, working.wrote_nil]

theorem find?_none_iff (knows : g.Knows table) : g.find? name = none ↔ table.find? name = none := by
  have same := knows.arguments name
  rw [← Option.map_eq_none_iff, same, Option.map_eq_none_iff]

theorem arguments_of_find? (knows : g.Knows table) (found : g.find? name = some draft)
    (declared : table.find? name = some signature) : draft.arguments = (Lower.entryNames signature.arity).1 := by
  have same := knows.arguments name
  rw [found, declared] at same
  exact Option.some.inj same

theorem length_entryNames (arity : Nat) : (Lower.entryNames arity).1.length = arity :=
  Names.freshList_length _ _ _

theorem simulates_checkCall (function : Name) (given : Nat) (location : Option Location) :
    Simulates table (checkCall function given location) (.checkCall table function given location) := by
  intro g body knows stands
  unfold checkCall Plan.checkCall
  cases declared : table.find? function with
  | none =>
    rw [(find?_none_iff knows).mpr declared]
    exact ⟨.refl knows.begun, rfl⟩
  | some signature =>
    cases found : g.find? function with
    | none => cases declared.symm.trans ((find?_none_iff knows).mp found)
    | some draft =>
      have arity : draft.arguments.length = signature.arity := by
        rw [arguments_of_find? knows found declared, length_entryNames]
      simp only [arity]
      split_ifs
      · exact ⟨.refl knows.begun, rfl⟩
      · exact simulates_give () g body knows stands

end Generator

end WordC
