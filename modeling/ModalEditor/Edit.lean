import ModalEditor.Position
import ModalEditor.Text.Basic

/-! # Edits and refusals

The changes that a host is asked to make to its text, and the ways in which it may decline.
-/

namespace ModalEditor

/-- A change of the text of a host. The last two go through the typing of the host itself. -/
inductive Edit where
  | delete (span : Span)
  | insert (pos : Position) (copies : Copies)
  | replace (span : Span) (copies : Copies)
  /-- Text typed at the caret. -/
  | typeIn (text : Text)
  /-- Text put in place of a number of clusters before the caret. -/
  | retype (text : Text) (count : Nat)
  deriving DecidableEq, Repr

inductive Refusal where
  | readOnly
  | outOfBounds (pos : Position)
  | rejected (reason : Text)
  deriving DecidableEq, Repr

def Refusal.message : Refusal → Text
  | readOnly => "buffer is read-only".toList
  | outOfBounds pos =>
    "position ".toList ++ pos.line.repr.toList ++ ':' :: pos.col.repr.toList
      ++ " is outside the buffer".toList
  | rejected reason => "edit rejected: ".toList ++ reason

inductive Failure where
  | refused (why : Refusal)
  /-- The end of a span lies before its start in the text, so there is nothing to remove. -/
  | crossed
  deriving DecidableEq, Repr

def Failure.message : Failure → Text
  | refused why => "buffer edit failed: ".toList ++ why.message
  | crossed => "buffer edit failed: the span ends before it starts".toList

end ModalEditor
