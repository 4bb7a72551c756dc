import ModalEditor.Cluster.Segmentation

/-! # Classes of clusters

A line is read as runs of letters and runs of separators, parted by blanks. Which characters are
separators is a setting; a blank is a space or a tab and is never a separator.
-/

namespace ModalEditor

inductive WordClass where
  | letter
  | separator
  | blank
  deriving DecidableEq, Repr

/-- The characters that form words of their own. Their order and repetition do not matter. -/
abbrev Separators := List Char

namespace Separators

def standard : Separators :=
  "`~!@#$%^&*()-=+[\x7b]\x7d\\|;:'\",.<>/?".toList

def classOf (separators : Separators) (c : Char) : WordClass :=
  if c = ' ' ∨ c = '\t' then .blank
  else if c ∈ separators then .separator
  else .letter

/-- The class of a cluster is that of its first character. An empty cluster counts as blank. -/
def clusterClass (separators : Separators) (g : Cluster) : WordClass :=
  match g with
  | [] => .blank
  | c :: _ => separators.classOf c

/-- The separators beyond ASCII, each once, in the order of first mention. -/
def beyondAscii (separators : Separators) : List Char :=
  (separators.filter fun c => decide (128 ≤ c.toNat)).eraseDups

/-- Whether two settings class all ASCII characters alike and mention the same further separators
in the same order. -/
def alike (a b : Separators) : Bool :=
  (List.range 128).all (fun n => a.classOf (Char.ofNat n) == b.classOf (Char.ofNat n))
    && a.beyondAscii == b.beyondAscii

theorem classOf_congr {a b : Separators} {c : Char} (same : c ∈ a ↔ c ∈ b) :
    a.classOf c = b.classOf c := by
  simp [classOf, same]

end Separators

end ModalEditor
