import ModalEditor.Command.Basic
import ModalEditor.Keys.Binding
import ModalEditor.Keys.Count

/-! # Reading keys

The pending keys are read from the start whenever one is added. They are a whole command, the
beginning of one, or neither.

A command is an optional count followed by a motion, by an operator that needs nothing more, or by
an operator and its argument. The argument of `d` and `c` is again an optional count followed by a
motion, or by the key of the operator itself for whole lines; both counts multiply. The argument
of `r` is one cluster.
-/

namespace ModalEditor

inductive Parse (α : Type) where
  | needsMore
  | invalid
  | complete (value : α)
  deriving DecidableEq, Repr

def Parse.map {α β : Type} (f : α → β) : Parse α → Parse β
  | needsMore => needsMore
  | invalid => invalid
  | complete value => complete (f value)

namespace Keys

/-- Reads the argument of an operator that takes a motion. `trigger` is the key of the operator and
`count` the count before it. -/
def argument (trigger : Char) (count : Nat) (keys : Text) : Parse Target :=
  let inner := splitCount keys
  let total := countProduct count inner.count
  match inner.rest with
  | [] => .needsMore
  | rest =>
    if rest = [trigger] then .complete (.lines total)
    else match motion? rest with
      | some m => .complete (.stride (m.repeated total))
      | none => .invalid

end Keys

/-- Reads what follows the key of an operator. A count of zero counts as one. -/
def Operator.parse (op : Operator) (count : Nat) (keys : Text) : Parse Command :=
  let count := max count 1
  match op with
  | insert => .complete .insert
  | append => .complete .append
  | appendAtEnd => .complete .appendAtEnd
  | deleteChar => .complete (.delete (.stride (Motion.right.repeated count)))
  | deleteLine => .complete (.delete (.lines count))
  | delete => (Keys.argument 'd' count keys).map .delete
  | change => (Keys.argument 'c' count keys).map .change
  | put => .complete (.put count)
  | replace =>
    match clusters keys with
    | [] => .needsMore
    | g :: _ => .complete (.replace g count)

def Keys.parse (keys : Text) : Parse Command :=
  let counted := splitCount keys
  match counted.rest with
  | [] => .needsMore
  | c :: rest =>
    match operator? c with
    | some op => op.parse counted.count rest
    | none =>
      match motion? (c :: rest) with
      | some m => .complete (.move (m.repeated counted.count))
      | none => .invalid

end ModalEditor
