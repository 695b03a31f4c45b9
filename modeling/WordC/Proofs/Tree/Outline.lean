import Mathlib.Data.String.Basic
import WordC.Proofs.Tree.Unplaced
import WordC.Tree.Outline

namespace WordC

theorem map_eq_map_of {f : α → β} {g : α → γ} {as bs : List α}
    (each : ∀ a ∈ as, ∀ b ∈ bs, f a = f b → g a = g b) (same : as.map f = bs.map f) : as.map g = bs.map g := by
  induction as generalizing bs with
  | nil =>
    rw [List.map_eq_nil_iff.mp same.symm]
  | cons a as ih =>
    cases bs with
    | nil => cases same
    | cons b bs =>
      obtain ⟨first, later⟩ := List.cons.inj same
      have rest := ih (fun a member b member' => each a (.tail _ member) b (.tail _ member')) later
      simp only [List.map_cons, each a (.head _) b (.head _) first, rest]

-- The lines of an outline put back into the tree that their depths describe.
inductive Branch where
  | branch (content : String) (below : List Branch)

namespace Branch

mutual

def outline (depth : Nat) : Branch → Outline
  | .branch content below => ⟨depth, content⟩ :: outlines (depth + 1) below

def outlines (depth : Nat) : List Branch → Outline
  | [] => []
  | first :: rest => first.outline depth ++ outlines depth rest

end

-- Lines that do not go on below a depth.
def Returns (depth : Nat) (lines : Outline) : Prop := ∀ line ∈ lines.head?, line.depth ≤ depth

theorem returns_nil (depth : Nat) : Returns depth [] := by
  intro line member
  cases member

theorem not_returns_outline (b : Branch) (lines : Outline) : ¬Returns depth (b.outline (depth + 1) ++ lines) := by
  cases b
  simp [Returns, outline]

theorem returns_outlines (bs : List Branch) (back : Returns depth lines) :
    Returns (depth + 1) (outlines (depth + 1) bs ++ lines) := by
  cases bs with
  | nil =>
    intro line first
    exact Nat.le_succ_of_le (back line first)
  | cons b bs =>
    cases b
    simp [Returns, outline, outlines]

mutual

-- Depths in front of the lines say where each branch ends, so no line is needed that says so.
theorem outline_inj (a b : Branch) (same : a.outline depth ++ lines = b.outline depth ++ lines')
    (back : Returns depth lines) (back' : Returns depth lines') : a = b ∧ lines = lines' := by
  match a, b with
  | .branch content below, .branch content' below' =>
    simp only [outline, List.cons_append, List.cons.injEq, OutlineLine.mk.injEq, true_and] at same
    obtain ⟨rfl, deeper⟩ := same
    obtain ⟨rfl, rest⟩ := outlines_inj below below' deeper back back'
    exact ⟨rfl, rest⟩

theorem outlines_inj (as bs : List Branch)
    (same : outlines (depth + 1) as ++ lines = outlines (depth + 1) bs ++ lines')
    (back : Returns depth lines) (back' : Returns depth lines') : as = bs ∧ lines = lines' := by
  match as, bs with
  | [], [] => exact ⟨rfl, same⟩
  | [], b :: bs =>
    simp only [outlines, List.nil_append, List.append_assoc] at same
    exact absurd (same ▸ back) (not_returns_outline b _)
  | a :: as, [] =>
    simp only [outlines, List.nil_append, List.append_assoc] at same
    exact absurd (same ▸ back') (not_returns_outline a _)
  | a :: as, b :: bs =>
    simp only [outlines, List.append_assoc] at same
    obtain ⟨rfl, later⟩ := outline_inj a b same (returns_outlines as back) (returns_outlines bs back')
    obtain ⟨rfl, rest⟩ := outlines_inj as bs later back back'
    exact ⟨rfl, rest⟩

end

theorem mem_outlines {bs : List Branch} : line ∈ outlines depth bs ↔ ∃ b ∈ bs, line ∈ b.outline depth := by
  induction bs with
  | nil => simp [outlines]
  | cons b bs ih => simp [outlines, ih]

end Branch

-- A content that can be told from the bars in front of it and from the lines around it.
def Clean (content : String) : Prop :=
  content.toList.head?.any (· ≠ '|') = true ∧ '\n' ∉ content.toList

instance : DecidablePred Clean := fun _ => inferInstanceAs (Decidable (_ ∧ _))

theorem clean_append (clean : Clean first) (oneLine : '\n' ∉ rest.toList) : Clean (first ++ rest) := by
  obtain ⟨unbarred, whole⟩ := clean
  constructor
  · rw [String.toList_append]
    cases spelled : first.toList with
    | nil => simp [spelled] at unbarred
    | cons c more => simpa [spelled] using unbarred
  · simp [whole, oneLine]

namespace Outline

theorem toList_text (line : OutlineLine) :
    line.text.toList = (List.replicate line.depth ['|', ' ']).flatten ++ line.content.toList := by
  have bars (depth : Nat) :
      (String.join (List.replicate depth "| ")).toList = (List.replicate depth ['|', ' ']).flatten := by
    rw [String.toList_join]
    induction depth with
    | zero => rfl
    | succ depth ih =>
      rw [List.replicate_succ, List.flatMap_cons, ih]
      rfl
  rw [OutlineLine.text, String.toList_append, bars]

theorem bars_inj {first second : List Char} (unbarred : first.head?.any (· ≠ '|') = true)
    (unbarred' : second.head?.any (· ≠ '|') = true)
    (same : (List.replicate m ['|', ' ']).flatten ++ first = (List.replicate n ['|', ' ']).flatten ++ second) :
    m = n ∧ first = second := by
  induction m generalizing n with
  | zero =>
    cases n with
    | zero => exact ⟨rfl, same⟩
    | succ n =>
      rw [List.replicate_zero, List.flatten_nil, List.nil_append] at same
      simp [same, List.replicate_succ] at unbarred
  | succ m ih =>
    cases n with
    | zero =>
      rw [List.replicate_zero, List.flatten_nil, List.nil_append] at same
      simp [← same, List.replicate_succ] at unbarred'
    | succ n =>
      simp only [List.replicate_succ, List.flatten_cons, List.append_assoc, List.append_cancel_left_eq] at same
      obtain ⟨rfl, rest⟩ := ih same
      exact ⟨rfl, rest⟩

theorem line_inj {a b : OutlineLine} (clean : Clean a.content) (clean' : Clean b.content)
    (same : a.text.toList = b.text.toList) : a = b := by
  rw [toList_text, toList_text] at same
  obtain ⟨depths, contents⟩ := bars_inj clean.1 clean'.1 same
  cases a
  cases b
  simp_all [String.toList_inj]

theorem feed_not_mem {line : OutlineLine} (clean : Clean line.content) : '\n' ∉ line.text.toList := by
  rw [toList_text]
  simp [clean.2]

theorem text_inj {as bs : Outline} (filled : as ≠ []) (filled' : bs ≠ []) (clean : ∀ line ∈ as, Clean line.content)
    (clean' : ∀ line ∈ bs, Clean line.content) (same : as.text = bs.text) : as = bs := by
  have read (outline : Outline) (filled : outline ≠ []) (clean : ∀ line ∈ outline, Clean line.content) :
      outline.text.toList.splitOn '\n' = outline.map fun line => line.text.toList := by
    rw [Outline.text, String.toList_intercalate, List.map_map]
    apply List.splitOn_intercalate '\n'
    · intro text member
      obtain ⟨line, inside, rfl⟩ := List.mem_map.mp member
      exact feed_not_mem (clean line inside)
    · simpa using filled
  have lines := read as filled clean
  rw [same, read bs filled' clean'] at lines
  have equal := map_eq_map_of (g := id)
    (fun a member b member' => line_inj (clean a member) (clean' b member')) lines.symm
  simpa using equal

end Outline

mutual

def Expr.branch : Expr → Branch
  | .number _ value => .branch s!"number: {valueText value}" []
  | .var _ name => .branch s!"identifier: {name.text}" []
  | .call _ callee arguments => .branch s!"function_call: {callee.text}" (Expr.branches arguments)
  | .chain _ tier operands => .branch s!"operator: {tier.symbol}" (Expr.branches operands)

def Expr.branches : List Expr → List Branch
  | [] => []
  | e :: rest => e.branch :: Expr.branches rest

end

def Parameter.branch (parameter : Parameter) : Branch :=
  .branch s!"{parameter.typeName.text} {parameter.name.text}" []

def Stmt.branch : Stmt → Branch
  | .declare _ typeName name => .branch s!"declare: {typeName.text} {name.text}" []
  | .expression _ value => .branch "expression_statement:" [value.branch]

def Return.branch (statement : Return) : Branch := .branch "return:" [statement.value.branch]

def Function.branch (function : Function) : Branch :=
  .branch s!"function: {function.name.text}"
    [.branch s!"return_type: {function.returnType.text}" [],
      .branch "parameters:" (function.parameters.map Parameter.branch),
      .branch "statements:" (function.statements.map Stmt.branch),
      function.result.branch]

def Program.branch (program : Program) : Branch := .branch "program" (program.functions.map Function.branch)

theorem Expr.branches_eq_map (es : List Expr) : Expr.branches es = es.map Expr.branch := by
  induction es with
  | nil => rfl
  | cons e rest ih => simp [Expr.branches, ih]

section

open Branch

theorem outlineList_map {node : α → Node} {branch : α → Branch} {as : List α}
    (each : ∀ a ∈ as, (node a).outline depth = some ((branch a).outline depth)) :
    Node.outlineList depth (as.map node) = some (outlines depth (as.map branch)) := by
  induction as with
  | nil => rfl
  | cons a as ih =>
    have later := ih fun b member => each b (.tail _ member)
    simp only [List.map_cons, Node.outlineList, each a (.head _), later, followed, outlines]

theorem Expr.outline_eq (e : Expr) (depth : Nat) : e.node.outline depth = some (e.branch.outline depth) := by
  induction e generalizing depth with
  | number | var => rfl
  | call location function arguments ih =>
    have below := outlineList_map fun e member => ih e member (depth + 1)
    simp only [Expr.node, Expr.branch, Node.outline, Expr.nodes_eq_map, Expr.branches_eq_map, below, headed, outline,
      Option.map_some]
  | chain location tier operands ih =>
    have below := outlineList_map fun e member => ih e member (depth + 1)
    simp only [Expr.node, Expr.branch, Node.outline, Expr.nodes_eq_map, Expr.branches_eq_map, below, headed, outline,
      Option.map_some]

theorem Stmt.outline_eq (s : Stmt) (depth : Nat) : s.node.outline depth = some (s.branch.outline depth) := by
  cases s with
  | declare => rfl
  | expression location value =>
    simp [Stmt.node, Stmt.branch, Node.outline, Expr.outline_eq, headed, outline, outlines]

theorem Function.outline_eq (f : Function) (depth : Nat) :
    f.node.outline depth = some (f.branch.outline depth) := by
  have parameters : Node.outlineList (depth + 2) (f.parameters.map Parameter.node) =
      some (outlines (depth + 2) (f.parameters.map Parameter.branch)) := outlineList_map fun _ _ => rfl
  have statements := outlineList_map fun s (_ : s ∈ f.statements) => s.outline_eq (depth + 2)
  simp [Function.node, Function.branch, Node.outline, parameters, statements, Return.node, Return.branch,
    Node.isAbsent, Expr.outline_eq, headed, followed, outline, outlines]

theorem Program.outline_eq (p : Program) : p.outline = some (p.branch.outline 0) := by
  have functions := outlineList_map fun f (_ : f ∈ p.functions) => f.outline_eq 1
  simp only [Program.outline, Program.node, Node.outline, functions, headed, Option.map_some, Program.branch,
    Branch.outline]

end

mutual

-- Locations are not shown.
theorem Node.outline_unplaced (node : Node) (depth : Nat) : node.unplaced.outline depth = node.outline depth := by
  match node with
  | .absent | .bare .. | .parameter .. | .declare .. | .number .. | .var .. => rfl
  | .program _ functions => simp only [Node.unplaced, Node.outline, Node.outlineList_unplaced functions]
  | .function _ _ _ parameters statements result =>
    simp only [Node.unplaced, Node.outline, Node.outlineList_unplaced parameters,
      Node.outlineList_unplaced statements, Node.isAbsent_unplaced, Node.outline_unplaced result]
  | .expression _ value | .ret _ value => simp only [Node.unplaced, Node.outline, Node.outline_unplaced value]
  | .call _ _ operands | .chain _ _ operands =>
    simp only [Node.unplaced, Node.outline, Node.outlineList_unplaced operands]

theorem Node.outlineList_unplaced (nodes : List Node) (depth : Nat) :
    Node.outlineList depth (Node.allUnplaced nodes) = Node.outlineList depth nodes := by
  match nodes with
  | [] => rfl
  | node :: rest =>
    simp only [Node.allUnplaced, Node.outlineList, Node.outline_unplaced node, Node.outlineList_unplaced rest]

end

end WordC
