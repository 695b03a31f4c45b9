import WordC.Compile
import WordC.Proofs.Parse.Derivation
import WordC.Proofs.Parse.Extent

namespace WordC.Parse

-- The tokens of a list from one number up to another.
structure Segment where
  start : Nat
  stop : Nat
deriving DecidableEq

def Segment.Inside (inner outer : Segment) : Prop := outer.start ≤ inner.start ∧ inner.stop ≤ outer.stop

-- The tokens in front of those left over.
def Segment.between (all tokens rest : List Token) : Segment :=
  ⟨all.length - tokens.length, all.length - rest.length⟩

-- A node that was read from a segment of the tokens, and stands where the first of them does.
structure ReadFrom (tokens : List Token) (own : Segment) (node : Node) : Prop where
  found : Finds (tokens.drop own.start) node (tokens.drop own.stop)
  filled : own.start < own.stop ∧ own.stop ≤ tokens.length
  located : ∃ token, tokens[own.start]? = some token ∧ node.location = some token.location

-- A segment for every node of a tree, by the way to the node.
structure Laid (tokens : List Token) (tree : Node) (extent : Way → Segment) : Prop where
  each : tree.at? way = some node → ReadFrom tokens (extent way) node
  inside : (tree.at? (way ++ [i])).isSome → (extent (way ++ [i])).Inside (extent way)
  inOrder : i < j → (tree.at? (way ++ [j])).isSome → (extent (way ++ [i])).stop ≤ (extent (way ++ [j])).start

-- The same for trees that stand one after the other within a segment.
structure LaidOut (tokens : List Token) (trees : List Node) (outer : Segment) (extents : Nat → Way → Segment) :
    Prop where
  each : trees[i]? = some tree → Laid tokens tree (extents i)
  within : trees[i]? = some tree → (extents i []).Inside outer
  inOrder : i < j → trees[j]? = some tree → (extents i []).stop ≤ (extents j []).start

-- The extents of a node, from its own and those below it.
def extentOf (own : Segment) (below : Nat → Way → Segment) : Way → Segment
  | [] => own
  | i :: way => below i way

def extentsOf (first : Way → Segment) (later : Nat → Way → Segment) : Nat → Way → Segment
  | 0 => first
  | i + 1 => later i

theorem child_of_at? {tree : Node} (there : (tree.at? (i :: way)).isSome) :
    ∃ child, tree.children[i]? = some child ∧ (child.at? way).isSome := by
  cases found : tree.children[i]? with
  | none => simp [Node.at?, found] at there
  | some child => exact ⟨child, rfl, by simpa [Node.at?, found] using there⟩

theorem eq_of_at?_nil {tree : Node} (found : tree.at? [] = some node) : tree = node := by
  simp only [Node.at?] at found
  split at found
  · cases found
  · exact Option.some.inj found

theorem Laid.of_children {tree : Node} {own : Segment} (read : ReadFrom tokens own tree)
    (below : LaidOut tokens tree.children own extents) : Laid tokens tree (extentOf own extents) where
  each := by
    intro way node found
    cases way with
    | nil =>
      rw [← eq_of_at?_nil found]
      exact read
    | cons i way =>
      obtain ⟨child, listed, found⟩ := Option.bind_eq_some_iff.mp found
      exact (below.each listed).each found
  inside := by
    intro way i there
    cases way with
    | nil =>
      obtain ⟨child, listed, -⟩ := child_of_at? there
      exact below.within listed
    | cons k way =>
      obtain ⟨child, listed, there⟩ := child_of_at? there
      exact (below.each listed).inside there
  inOrder := by
    intro i j way less there
    cases way with
    | nil =>
      obtain ⟨child, listed, -⟩ := child_of_at? there
      exact below.inOrder less listed
    | cons k way =>
      obtain ⟨child, listed, there⟩ := child_of_at? there
      exact (below.each listed).inOrder less there

theorem LaidOut.nil : LaidOut tokens [] outer extents where
  each := nofun
  within := nofun
  inOrder := nofun

theorem LaidOut.cons {tree : Node} {extent : Way → Segment} (first : Laid tokens tree extent)
    (within : (extent []).Inside outer) (filled : (extent []).start < (extent []).stop)
    (later : LaidOut tokens trees ⟨(extent []).stop, outer.stop⟩ extents) :
    LaidOut tokens (tree :: trees) outer (extentsOf extent extents) where
  each := by
    intro i other listed
    cases i with
    | zero =>
      cases listed
      exact first
    | succ i => exact later.each listed
  within := by
    intro i other listed
    cases i with
    | zero => exact within
    | succ i =>
      obtain ⟨behind, ends⟩ := later.within listed
      exact ⟨Nat.le_trans within.1 (Nat.le_trans filled.le behind), ends⟩
  inOrder := by
    intro i j other less listed
    cases j with
    | zero => exact absurd less (Nat.not_lt_zero _)
    | succ j =>
      cases i with
      | zero => exact (later.within listed).1
      | succ i => exact later.inOrder (Nat.lt_of_succ_lt_succ less) listed

theorem drop_start (within : rest <:+ tokens) : tokens.drop (tokens.length - rest.length) = rest :=
  (List.suffix_iff_eq_drop.mp within).symm

theorem ReadFrom.of_finds (found : Finds tokens node rest) (located : node.location = here tokens)
    (shorter : rest.length < tokens.length) (left : rest <:+ tokens) (within : tokens <:+ all) :
    ReadFrom all (.between all tokens rest) node where
  found := by
    rw [Segment.between, drop_start within, drop_start (left.trans within)]
    exact found
  filled := by
    have longer := within.length_le
    simp only [Segment.between]
    omega
  located := by
    rw [Segment.between, ← List.head?_drop, drop_start within]
    cases tokens with
    | nil => exact absurd shorter (Nat.not_lt_zero _)
    | cons token after => exact ⟨token, rfl, located⟩

mutual

theorem Lies.laid (lies : Lies tokens tree rest) (within : tokens <:+ all) :
    ∃ extent, extent [] = .between all tokens rest ∧ Laid all tree extent := by
  match lies with
  | .node found located shorter below =>
    obtain ⟨extents, laid⟩ := below.laidOut within
    have read := ReadFrom.of_finds found located shorter below.suffix within
    exact ⟨extentOf (.between all tokens rest) extents, rfl, .of_children read laid⟩

theorem LieBetween.laidOut (lie : LieBetween tokens trees rest) (within : tokens <:+ all) :
    ∃ extents, LaidOut all trees (.between all tokens rest) extents := by
  match lie with
  | .none _ => exact ⟨fun _ _ => ⟨0, 0⟩, .nil⟩
  | .next started first later =>
    obtain ⟨extent, own, laid⟩ := first.laid (started.trans within)
    obtain ⟨extents, laidOut⟩ := later.laidOut (first.suffix.trans (started.trans within))
    have longer := started.length_le
    have shorter := first.shorter
    have shortest := later.suffix.length_le
    have whole := within.length_le
    refine ⟨extentsOf extent extents, .cons laid ?_ ?_ ?_⟩
    · simp only [own, Segment.Inside, Segment.between]
      omega
    · simp only [own, Segment.between]
      omega
    · rw [own]
      exact laidOut

end

-- Of two ways in the order of a walk, the second goes on from the first or leaves it to the right.
theorem split_of_before (earlier : Way.Before way way') :
    (∃ more, way' = way ++ more) ∨
      ∃ shared i j below below', i < j ∧ way = shared ++ i :: below ∧ way' = shared ++ j :: below' := by
  induction earlier with
  | nil => exact .inl ⟨_, rfl⟩
  | rel less => exact .inr ⟨[], _, _, _, _, less, rfl, rfl⟩
  | cons _ ih =>
    rcases ih with ⟨more, rfl⟩ | ⟨shared, i, j, below, below', less, rfl, rfl⟩
    · exact .inl ⟨more, rfl⟩
    · exact .inr ⟨_ :: shared, i, j, below, below', less, rfl, rfl⟩

theorem at?_isSome_of_append {tree : Node} (there : (tree.at? (way ++ more)).isSome) : (tree.at? way).isSome := by
  induction way generalizing tree with
  | nil =>
    cases absent : tree.isAbsent with
    | true => simp [Node.eq_absent absent, Node.at?_absent] at there
    | false => simp [Node.at?, absent]
  | cons i way ih =>
    obtain ⟨child, listed, there⟩ := child_of_at? there
    simpa [Node.at?, listed] using ih there

section

variable {tree : Node} {extent : Way → Segment}

theorem Laid.below (laid : Laid tokens tree extent) (there : (tree.at? (way ++ more)).isSome) :
    (extent (way ++ more)).Inside (extent way) := by
  induction more generalizing way with
  | nil =>
    rw [List.append_nil]
    exact ⟨Nat.le_refl _, Nat.le_refl _⟩
  | cons i more ih =>
    rw [List.append_cons] at there ⊢
    obtain ⟨starts, stops⟩ := laid.inside (at?_isSome_of_append there)
    obtain ⟨starts', stops'⟩ := ih there
    exact ⟨Nat.le_trans starts starts', Nat.le_trans stops' stops⟩

-- Nodes neither of which is below the other have no token in common.
theorem Laid.apart (laid : Laid tokens tree extent) (less : i < j)
    (there : (tree.at? (way ++ i :: rest)).isSome) (there' : (tree.at? (way ++ j :: rest')).isSome) :
    (extent (way ++ i :: rest)).stop ≤ (extent (way ++ j :: rest')).start := by
  rw [List.append_cons] at there there'
  calc (extent (way ++ i :: rest)).stop
      = (extent (way ++ [i] ++ rest)).stop := by rw [List.append_cons]
    _ ≤ (extent (way ++ [i])).stop := (laid.below there).2
    _ ≤ (extent (way ++ [j])).start := laid.inOrder less (at?_isSome_of_append there')
    _ ≤ (extent (way ++ [j] ++ rest')).start := (laid.below there').1
    _ = (extent (way ++ j :: rest')).start := by rw [← List.append_cons]

-- A node that a walk comes to later is below the other and within its tokens, or behind all of them.
theorem Laid.later (laid : Laid tokens tree extent) (there : (tree.at? way).isSome)
    (there' : (tree.at? way').isSome) (earlier : Way.Before way way') :
    way <+: way' ∧ (extent way').Inside (extent way) ∨ (extent way).stop ≤ (extent way').start := by
  rcases split_of_before earlier with ⟨more, rfl⟩ | ⟨shared, i, j, rest, rest', less, rfl, rfl⟩
  · exact .inl ⟨List.prefix_append _ _, laid.below there'⟩
  · exact .inr (laid.apart less there there')

theorem Laid.starts (laid : Laid tokens tree extent) (there : (tree.at? way).isSome)
    (there' : (tree.at? way').isSome) (earlier : Way.Before way way') :
    (extent way).start < (extent way').start ∨ way <+: way' ∧ (extent way).start = (extent way').start := by
  obtain ⟨node, found⟩ := Option.isSome_iff_exists.mp there
  have filled := (laid.each found).filled.1
  rcases laid.later there there' earlier with ⟨onward, starts, -⟩ | behind
  · rcases Nat.lt_or_eq_of_le starts with less | same
    · exact .inl less
    · exact .inr ⟨onward, same⟩
  · exact .inl (Nat.lt_of_lt_of_le filled behind)

end

theorem ways_nodup (tree : Node) : tree.ways.Nodup :=
  tree.ways_inOrder.imp fun earlier same => by
    subst same
    exact irrefl_of (List.Lex (· < ·)) _ earlier

-- A walk that comes to every node once, by the first tokens of their segments. One token may be the first of a
-- node and of nodes below it.
structure Walked (tree : Node) (extent : Way → Segment) : Prop where
  visits : (tree.walk []).map some = tree.ways.map tree.sight
  once : ∀ way, tree.ways.count way = if (tree.at? way).isSome then 1 else 0
  inOrder : tree.ways.Pairwise fun way way' =>
    (extent way).start < (extent way').start ∨ way <+: way' ∧ (extent way).start = (extent way').start

theorem Laid.walked (laid : Laid tokens tree extent) : Walked tree extent where
  visits := tree.walk_ways
  once := by
    intro way
    rw [(ways_nodup tree).count]
    simp only [Node.mem_ways_iff]
  inOrder := by
    apply tree.ways_inOrder.imp_of_mem
    intro way way' there there' earlier
    exact laid.starts (tree.mem_ways_iff.mp there) (tree.mem_ways_iff.mp there') earlier

theorem nodes_stand_at_first_tokens (read : parseTokens lines tokens = .ok p) :
    ∃ extent : Way → Segment,
      extent [] = ⟨0, tokens.length⟩ ∧ Laid tokens p.node extent ∧ Walked p.node extent := by
  obtain ⟨extent, whole, laid⟩ := (program_lies (mapError_eq_ok.mp read)).laid List.suffix_rfl
  refine ⟨extent, ?_, laid, laid.walked⟩
  rw [whole, Segment.between, Nat.sub_self, List.length_nil, Nat.sub_zero]

theorem statement_ends_before_return :
    ∃ p, parseTokens [] (sampleTokens "int f(int a)\x7ba=f(a)+2*a;return a;\x7d") = .ok p ∧
      ∃ extent : Way → Segment, (extent [0, 1]).stop ≤ (extent [0, 2]).start ∧
        ReadFrom (sampleTokens "int f(int a)\x7ba=f(a)+2*a;return a;\x7d") (extent []) p.node ∧ Walked p.node extent := by
  have there : (parseTokens [] (sampleTokens "int f(int a)\x7ba=f(a)+2*a;return a;\x7d")).toOption.any
      (fun p => (p.node.at? [0, 2]).isSome) = true := by decide +kernel
  cases read : parseTokens [] (sampleTokens "int f(int a)\x7ba=f(a)+2*a;return a;\x7d") with
  | error failure => simp [read, Except.toOption] at there
  | ok p =>
    obtain ⟨extent, -, laid, walked⟩ := nodes_stand_at_first_tokens read
    simp only [read, Except.toOption, Option.any_some] at there
    have ordered : (extent ([0] ++ [1])).stop ≤ (extent ([0] ++ [2])).start := laid.inOrder (by decide) there
    exact ⟨p, rfl, extent, ordered, laid.each rfl, walked⟩

end WordC.Parse
