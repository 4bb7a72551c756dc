import ModalEditor.Text.Basic

/-! # The register

What was deleted last, kept for putting it back. Whole lines are kept without their last break, so
it does not matter which break the deletion took along.
-/

namespace ModalEditor

inductive Register where
  /-- A stretch of text. -/
  | chars (text : Text)
  /-- Whole lines joined by line feeds. -/
  | lines (text : Text)
  deriving DecidableEq, Repr

namespace Register

def isWholeLine : Register → Bool
  | chars _ => false
  | lines _ => true

/-- The text as it is put: whole lines end with a line feed each. -/
def content : Register → Text
  | chars text => text
  | lines text => text ++ ['\n']

def isEmpty (register : Register) : Bool :=
  register.content.isEmpty

/-- The number of line feeds in the content, which is the number of lines if whole lines are
held. -/
def lineCount (register : Register) : Nat :=
  register.content.count '\n'

@[simp] theorem isEmpty_lines (text : Text) : (lines text).isEmpty = false := by
  simp [isEmpty, content]

end Register

end ModalEditor
