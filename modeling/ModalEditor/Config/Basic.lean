import ModalEditor.Mode
import ModalEditor.Word.Separators

/-! # Settings
-/

namespace ModalEditor

structure Config where
  initialMode : Mode := .normal
  separators : Separators := Separators.standard
  deriving DecidableEq, Repr

end ModalEditor
