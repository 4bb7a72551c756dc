import ModalEditor.Buffer.Recorder
import ModalEditor.Session

/-! # Scripts

A script is what happens to a session step by step: calls to the engine, and what the user or the
host does besides.
-/

namespace ModalEditor

inductive Step where
  | typeText (text : Text)
  | retype (text : Text) (count : Nat)
  | toNormalMode
  | clearInput
  | settle
  | operate (op : Operator) (count : Nat) (argument : Text)
  | setSeparators (separators : Separators)
  /-- The user moves the caret. -/
  | moveCaret (pos : Position)
  /-- Text is selected or no longer selected. -/
  | select (on : Bool)
  /-- Edits are switched off or on again. -/
  | lock (on : Bool)
  /-- The host stops showing lines or shows them again. -/
  | hideLines (on : Bool)
  | planRefusal (planned : PlannedRefusal)
  deriving DecidableEq, Repr

inductive Answer where
  | nothing
  | signals (signals : List Signal)
  | resolution (resolution : Resolution)
  | failure (why : Failure)
  deriving DecidableEq, Repr

namespace Answer

def ofReply : Reply → Answer
  | .ok list => signals list
  | .error why => failure why

def ofResolution : Except Failure Resolution → Answer
  | .ok outcome => resolution outcome
  | .error why => failure why

end Answer

namespace Step

def onHost (f : Recorder → Recorder) (s : Session Recorder) : Answer × Session Recorder :=
  (.nothing, { s with host := f s.host })

def run (step : Step) (s : Session Recorder) : Answer × Session Recorder :=
  match step with
  | typeText text => (s.typeText text).map Answer.ofReply id
  | retype text count => (s.retype text count).map Answer.ofReply id
  | toNormalMode => s.toNormalMode.map Answer.signals id
  | clearInput => s.clearInput.map Answer.signals id
  | settle => (.nothing, s.settle)
  | operate op count argument => (s.operate op count argument).map Answer.ofResolution id
  | setSeparators separators => (.nothing, s.setSeparators separators)
  | moveCaret pos => onHost (Host.moveCaret pos) s
  | select on => onHost (fun r => { r with buffer := { r.buffer with selection := on } }) s
  | lock on => onHost (fun r => { r with buffer := { r.buffer with readOnly := on } }) s
  | hideLines on => onHost (fun r => { r with hidesLines := on }) s
  | planRefusal planned => onHost (fun r => { r with planned := some planned }) s

end Step

/-- Runs a script. The answer of each step comes with the session after it, whose host has recorded
the edits of that step alone. -/
def runScript : List Step → Session Recorder → List (Answer × Session Recorder)
  | [], _ => []
  | step :: rest, s =>
    let result := step.run { s with host := { s.host with edits := [] } }
    result :: runScript rest result.2

end ModalEditor
