/-! Sets of characters given by ascending ranges of code points. -/

namespace FlowGraph.Text

/-- Whether a code point lies in one of the ranges. The ranges ascend, so the search stops at
the first one that begins above it. -/
def inRanges : List (Nat × Nat) → Nat → Bool
  | [], _ => false
  | (first, last) :: rest, n =>
    if n < first then false else if n ≤ last then true else inRanges rest n

end FlowGraph.Text
