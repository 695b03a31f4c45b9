import WordC.Tree.Node

namespace WordC

-- Two trees are the same when they differ in locations at most.
mutual

def Node.same : Node → Node → Bool
  | .absent, .absent => true
  | .bare _ a, .bare _ b => a = b
  | .program _ as, .program _ bs => Node.sameList as bs
  | .function _ f s ps as a, .function _ g t qs bs b =>
    f = g && s = t && Node.sameList ps qs && Node.sameList as bs && a.same b
  | .parameter _ a s, .parameter _ b t => a = b && s = t
  | .declare _ s a, .declare _ t b => s = t && a = b
  | .expression _ a, .expression _ b => a.same b
  | .ret _ a, .ret _ b => a.same b
  | .number _ a, .number _ b => a = b
  | .var _ a, .var _ b => a = b
  | .call _ f as, .call _ g bs => f = g && Node.sameList as bs
  | .chain _ s as, .chain _ t bs => s = t && Node.sameList as bs
  | _, _ => false

def Node.sameList : List Node → List Node → Bool
  | [], [] => true
  | a :: as, b :: bs => a.same b && Node.sameList as bs
  | _, _ => false

end

def Program.same (a b : Program) : Bool := a.node.same b.node

end WordC
