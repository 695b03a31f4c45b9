namespace WordC.Text

-- How alike two texts are: how much of them stands in common runs, taken in order.

def commonStart : List Char → List Char → Nat
  | a :: as, b :: bs => if a = b then commonStart as bs + 1 else 0
  | _, _ => 0

structure CommonRun where
  left : Nat
  right : Nat
  length : Nat
deriving DecidableEq, Repr

-- The longest common run. Of several it is the first in the left text, and there the first in the right.
def longestRun (as bs : List Char) : CommonRun :=
  (List.range as.length).foldl (fun best i =>
    (List.range bs.length).foldl (fun best j =>
      let length := commonStart (as.drop i) (bs.drop j)
      if best.length < length then ⟨i, j, length⟩ else best) best) ⟨0, 0, 0⟩

-- The size of the longest common run, of the longest ones before it and behind it, and so on. The left text
-- loses a character with every level, so its length bounds their number.
def sharedWithin : (levels : Nat) → List Char → List Char → Nat
  | 0, _, _ => 0
  | levels + 1, as, bs =>
    let run := longestRun as bs
    if run.length = 0 then 0
    else
      run.length + sharedWithin levels (as.take run.left) (bs.take run.right)
        + sharedWithin levels (as.drop (run.left + run.length)) (bs.drop (run.right + run.length))

structure Likeness where
  shared : Nat
  total : Nat
deriving DecidableEq, Repr

-- Texts whose lengths are too far apart to be alike are not compared any further.
def likeness (left right : String) : Likeness :=
  let as := left.toList
  let bs := right.toList
  let total := as.length + bs.length
  if 10 * min as.length bs.length < 3 * total then ⟨0, total⟩ else ⟨sharedWithin as.length as bs, total⟩

-- Texts are alike if three fifths of both are shared.
def Likeness.isHigh (likeness : Likeness) : Bool := 3 * likeness.total ≤ 10 * likeness.shared

-- The first text is more like the given one than the second. Of equals it is the later in the alphabet.
def isLiker (text first second : String) : Bool :=
  let a := likeness first text
  let b := likeness second text
  a.shared * b.total > b.shared * a.total
    || (a.shared * b.total = b.shared * a.total && second < first)

-- The texts of a list that are most like a given one, in the order of the list and `most` at most.
def likest (most : Nat) (choices : List String) (text : String) : List String :=
  let alike := choices.filter fun choice => (likeness choice text).isHigh
  alike.filter fun choice => (alike.filter fun other => isLiker text other choice).length < most

end WordC.Text
