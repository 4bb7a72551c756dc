import ModalEditor.Mode

/-! # Signals

What an engine tells its host besides the edits that it asks for.
-/

namespace ModalEditor

structure Context where
  inNormalMode : Bool
  hasInput : Bool
  deriving DecidableEq, Repr

inductive Signal where
  /-- The pending keys were not a command. -/
  | beep
  /-- The shape of the caret has changed. -/
  | style (style : CaretStyle)
  /-- The context has changed. -/
  | context (context : Context)
  deriving DecidableEq, Repr

end ModalEditor
