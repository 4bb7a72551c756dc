import ModalEditor.Buffer.Open

/-! # A recording host

A `Recorder` is an `OpenBuffer` that keeps the edits it is asked for, refused ones included. One
refusal can be planned ahead, and it can pretend to have no lines or no selection.
-/

namespace ModalEditor

/-- A refusal of one edit, after letting a number of edits pass. -/
structure PlannedRefusal where
  after : Nat
  refusal : Refusal
  deriving DecidableEq, Repr

structure Recorder where
  buffer : OpenBuffer
  /-- The edits asked for, the latest last. -/
  edits : List Edit := []
  planned : Option PlannedRefusal := none
  /-- Whether no lines are shown. Edits still reach the text. -/
  hidesLines : Bool := false
  /-- Whether a selection is kept to itself. -/
  hidesSelection : Bool := false
  deriving DecidableEq, Repr

namespace Recorder

def page (r : Recorder) : Page :=
  if r.hidesLines then [] else r.buffer.page

def pass (e : Edit) (r : Recorder) : Option Failure × Recorder :=
  let (failure, buffer) := r.buffer.perform e
  (failure, { r with buffer })

def perform (e : Edit) (r : Recorder) : Option Failure × Recorder :=
  let r := { r with edits := r.edits ++ [e] }
  match r.planned with
  | none => r.pass e
  | some ⟨0, refusal⟩ => (some (.refused refusal), { r with planned := none })
  | some ⟨after + 1, refusal⟩ => ({ r with planned := some ⟨after, refusal⟩ }).pass e

instance : Host Recorder where
  page := page
  caret r := r.buffer.document.caret
  moveCaret p r := { r with buffer := r.buffer.moveCaret p }
  hasSelection r := !r.hidesSelection && r.buffer.selection
  perform := perform

end Recorder

end ModalEditor
