import ModalEditor.Buffer.Document
import ModalEditor.Host

/-! # A host with a clamped caret

The caret of a `ClampedBuffer` is pulled into the text whenever it is moved. Nothing is ever
selected and no edit is refused. Lines show no carriage returns or line feeds at their end.
-/

namespace ModalEditor

structure ClampedBuffer where
  document : Document
  deriving DecidableEq, Repr

namespace ClampedBuffer

def ofText (text : Text) : ClampedBuffer :=
  ⟨⟨text, .zero⟩⟩

def page (b : ClampedBuffer) : Page :=
  b.document.page Text.dropReturns

def moveCaret (p : Position) (b : ClampedBuffer) : ClampedBuffer :=
  ⟨{ b.document with caret := b.page.clamp p }⟩

/-- The offset a number of columns before the caret. At the start of a line one character before
the caret is taken instead, which joins the line with the one before it. -/
def reach (d : Document) (count : Nat) : Nat :=
  if d.caret.col = 0 ∧ 0 < count then d.offset Text.dropReturns d.caret - 1
  else d.offset Text.dropReturns ⟨d.caret.line, d.caret.col - count⟩

def perform (e : Edit) (b : ClampedBuffer) : Option Failure × ClampedBuffer :=
  match b.document.edit Text.dropReturns reach e with
  | .ok document => (none, ⟨document⟩)
  | .error failure => (some failure, b)

instance : Host ClampedBuffer where
  page := page
  caret b := b.document.caret
  moveCaret := moveCaret
  hasSelection _ := false
  perform := perform

end ClampedBuffer

end ModalEditor
