import ModalEditor.Text.Basic

/-! # Modes

In normal mode keys are commands, in insert mode they are text. The caret is drawn in a shape of
its own in each.
-/

namespace ModalEditor

inductive Mode where
  | normal
  | insert
  deriving DecidableEq, Repr

inductive CaretStyle where
  | block
  | line
  deriving DecidableEq, Repr

namespace Mode

def name : Mode → Text
  | normal => "NORMAL".toList
  | insert => "INSERT".toList

def style : Mode → CaretStyle
  | normal => .block
  | insert => .line

def isNormal : Mode → Bool
  | normal => true
  | insert => false

end Mode

end ModalEditor
