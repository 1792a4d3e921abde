/-!
Source spans: half-open ranges of byte offsets.
-/

namespace MiniC

/-- The bytes from `start` up to, and not including, `finish`. -/
structure Span where
  start : Nat
  finish : Nat
deriving DecidableEq, Repr, Inhabited

def Span.merge (left right : Span) : Span :=
  ⟨min left.start right.start, max left.finish right.finish⟩

end MiniC
