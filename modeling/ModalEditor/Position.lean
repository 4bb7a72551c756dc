/-! # Positions and spans

A position names a line and a column; columns count clusters. Positions are ordered by line and,
on one line, by column.
-/

namespace ModalEditor

/-- A place between the clusters of a line. Both numbers count from zero. -/
structure Position where
  line : Nat
  col : Nat
  deriving DecidableEq, Repr

namespace Position

def zero : Position := ⟨0, 0⟩

instance : LT Position where
  lt a b := a.line < b.line ∨ a.line = b.line ∧ a.col < b.col

instance : LE Position where
  le a b := a.line < b.line ∨ a.line = b.line ∧ a.col ≤ b.col

theorem lt_def {a b : Position} : a < b ↔ a.line < b.line ∨ a.line = b.line ∧ a.col < b.col :=
  Iff.rfl

theorem le_def {a b : Position} : a ≤ b ↔ a.line < b.line ∨ a.line = b.line ∧ a.col ≤ b.col :=
  Iff.rfl

theorem le_antisymm {a b : Position} (h : a ≤ b) (h' : b ≤ a) : a = b := by
  obtain ⟨l, c⟩ := a
  obtain ⟨l', c'⟩ := b
  rw [le_def] at h h'
  rw [mk.injEq]
  simp only at h h'
  omega

theorem lt_of_le_of_ne {a b : Position} (h : a ≤ b) (ne : a ≠ b) : a < b := by
  obtain ⟨l, c⟩ := a
  obtain ⟨l', c'⟩ := b
  rw [Ne, mk.injEq] at ne
  rw [le_def] at h
  rw [lt_def]
  simp only at h ⊢
  omega

theorem le_of_lt {a b : Position} (h : a < b) : a ≤ b :=
  h.imp_right fun ⟨line, col⟩ => ⟨line, Nat.le_of_lt col⟩

theorem le_trans {a b c : Position} (h : a ≤ b) (h' : b ≤ c) : a ≤ c := by
  rw [le_def] at *
  omega

theorem not_le {a b : Position} : ¬ a ≤ b ↔ b < a := by
  rw [le_def, lt_def]
  omega

theorem not_lt {a b : Position} : ¬ a < b ↔ b ≤ a := by
  rw [← not_le, Classical.not_not]

instance (a b : Position) : Decidable (a < b) := inferInstanceAs (Decidable (_ ∨ _))

instance (a b : Position) : Decidable (a ≤ b) := inferInstanceAs (Decidable (_ ∨ _))

instance : Ord Position where
  compare a b := (compare a.line b.line).then (compare a.col b.col)

end Position

/-- The stretch of text from `start` up to but not including `stop`. -/
structure Span where
  start : Position
  stop : Position
  deriving DecidableEq, Repr

namespace Span

def between (a b : Position) : Span :=
  if a ≤ b then ⟨a, b⟩ else ⟨b, a⟩

def isEmpty (r : Span) : Bool :=
  decide (r.stop ≤ r.start)

theorem between_start_le (a b : Position) : (between a b).start ≤ (between a b).stop := by
  unfold between
  split
  · assumption
  · rw [Position.le_def] at *; simp only; omega

theorem between_comm (a b : Position) : between a b = between b a := by
  obtain ⟨l, c⟩ := a
  obtain ⟨l', c'⟩ := b
  simp only [between, Position.le_def]
  split <;> split <;> simp <;> omega

end Span

end ModalEditor
