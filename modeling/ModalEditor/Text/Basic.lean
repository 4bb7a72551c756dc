/-! # Text

Text is a list of characters. `Copies` stands for a text repeated a number of times without
writing it out, so that the size of a large repetition is known before it is made.
-/

namespace ModalEditor

/-- A text, one character after the other. -/
abbrev Text := List Char

namespace Text

def byteSize : Text → Nat
  | [] => 0
  | c :: rest => c.utf8Size + byteSize rest

@[simp] theorem byteSize_append (a b : Text) : byteSize (a ++ b) = byteSize a + byteSize b := by
  induction a with
  | nil => simp [byteSize]
  | cons c a ih => rw [List.cons_append, byteSize, byteSize, ih, Nat.add_assoc]

end Text

structure Copies where
  unit : Text
  times : Nat
  deriving DecidableEq, Repr

namespace Copies

def text (copies : Copies) : Text :=
  (List.replicate copies.times copies.unit).flatten

def byteSize (copies : Copies) : Nat :=
  copies.unit.byteSize * copies.times

theorem byteSize_text (copies : Copies) : copies.text.byteSize = copies.byteSize := by
  obtain ⟨unit, times⟩ := copies
  induction times with
  | zero => rfl
  | succ times ih =>
    simp only [text, byteSize, List.replicate_succ, List.flatten_cons] at ih ⊢
    rw [Text.byteSize_append, ih, Nat.mul_succ, Nat.add_comm]

end Copies

end ModalEditor
