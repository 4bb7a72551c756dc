import ModalEditor.Buffer.Document
import ModalEditor.Host

/-! # A host with a free caret

The caret of an `OpenBuffer` is put wherever it is told, also outside the text. Text may be
selected, and edits may be switched off. Lines show everything but a line feed at their end.
-/

namespace ModalEditor

structure OpenBuffer where
  document : Document
  selection : Bool := false
  readOnly : Bool := false
  deriving DecidableEq, Repr

namespace OpenBuffer

def ofText (text : Text) (caret : Position) : OpenBuffer :=
  { document := ⟨text, caret⟩ }

def page (b : OpenBuffer) : Page :=
  b.document.page Text.dropFeed

def moveCaret (p : Position) (b : OpenBuffer) : OpenBuffer :=
  { b with document := { b.document with caret := p }, selection := false }

def reach (d : Document) (count : Nat) : Nat :=
  d.offset Text.dropFeed ⟨d.caret.line, d.caret.col - count⟩

def perform (e : Edit) (b : OpenBuffer) : Option Failure × OpenBuffer :=
  if b.readOnly then (some (.refused .readOnly), b)
  else
    match b.document.edit Text.dropFeed reach e with
    | .ok document => (none, { b with document })
    | .error failure => (some failure, b)

instance : Host OpenBuffer where
  page := page
  caret b := b.document.caret
  moveCaret := moveCaret
  hasSelection b := b.selection
  perform := perform

end OpenBuffer

end ModalEditor
