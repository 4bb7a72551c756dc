import ModalEditor.Motion

/-! # Commands

A command is complete: it has its count, and its argument if it takes one. Deleting the cluster
under the caret is deleting to the right.
-/

namespace ModalEditor

/-- What a deletion or a change acts on. -/
inductive Target where
  /-- The text between the caret and where a stride leads. -/
  | stride (stride : Stride)
  /-- Whole lines from that of the caret on. -/
  | lines (count : Nat)
  deriving DecidableEq, Repr

inductive Command where
  | move (stride : Stride)
  | insert
  | append
  | appendAtEnd
  | delete (target : Target)
  | change (target : Target)
  | put (count : Nat)
  | replace (cluster : Cluster) (count : Nat)
  deriving DecidableEq, Repr

end ModalEditor
