import ModalEditor.Edit
import ModalEditor.Page

/-! # Hosts

A host owns the text and the caret. It shows the text as a page, moves the caret where it is told,
and makes edits or refuses them. A refusal may change the host as well.
-/

namespace ModalEditor

class Host (β : Type) where
  page : β → Page
  caret : β → Position
  /-- Moves the caret. A selection ends with it. -/
  moveCaret : Position → β → β
  /-- Whether some text is selected. -/
  hasSelection : β → Bool
  /-- Makes an edit. The reason is given if it was not made. -/
  perform : Edit → β → Option Failure × β

end ModalEditor
