/-! # Ranges of code points

Tables of character properties are lists of closed ranges in increasing order.
-/

namespace ModalEditor

/-- Closed ranges of code points, in increasing order and apart from each other. -/
abbrev CodeRanges := List (Nat × Nat)

def CodeRanges.covers : CodeRanges → Nat → Bool
  | [], _ => false
  | (low, high) :: rest, code => decide (low ≤ code) && (decide (code ≤ high) || covers rest code)

end ModalEditor
