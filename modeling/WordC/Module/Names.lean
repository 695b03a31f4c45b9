namespace WordC

-- The names that the values of one function have, and how far each hint has been numbered.
structure Names where
  used : List String
  counts : List (String × Nat)
deriving DecidableEq, Repr

namespace Names

-- The empty name is never given to a value.
def start : Names := ⟨[""], []⟩

def count (names : Names) (hint : String) : Nat := (names.counts.lookup hint).getD 0

def numbered (hint : String) (n : Nat) : String := s!"{hint}.{n}"

-- The first number after `n` whose name is free, looking at `tries` of them.
def freeAfter (used : List String) (hint : String) : (tries n : Nat) → Nat
  | 0, n => n + 1
  | tries + 1, n =>
    if used.contains (numbered hint (n + 1)) then freeAfter used hint tries (n + 1) else n + 1

def setCount (counts : List (String × Nat)) (hint : String) (n : Nat) : List (String × Nat) :=
  (hint, n) :: counts.filter fun entry => entry.1 ≠ hint

-- A free name for a value: the hint itself, or the hint with the next number that makes it free. Numbered
-- names differ from each other, so one try more than there are used names is enough.
def fresh (names : Names) (hint : String) : String × Names :=
  if names.used.contains hint then
    let n := freeAfter names.used hint names.used.length (names.count hint)
    (numbered hint n, ⟨numbered hint n :: names.used, setCount names.counts hint n⟩)
  else (hint, ⟨hint :: names.used, names.counts⟩)

def freshList (names : Names) (hint : String) : Nat → List String × Names
  | 0 => ([], names)
  | n + 1 =>
    let (first, names) := names.fresh hint
    let (more, names) := names.freshList hint n
    (first :: more, names)

-- An instruction without a result takes a name all the same.
def skip (names : Names) : Names := (names.fresh "").2

end Names

end WordC
