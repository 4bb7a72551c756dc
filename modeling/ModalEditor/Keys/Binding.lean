import ModalEditor.Motion

/-! # Keys

The keys of motions and operators. Every key is one character, and no motion shares its key with an
operator.
-/

namespace ModalEditor

/-- What the keys other than motions do. Deleting whole lines has no key of its own. -/
inductive Operator where
  | insert
  | append
  | appendAtEnd
  | deleteChar
  | deleteLine
  | delete
  | change
  | put
  | replace
  deriving DecidableEq, Repr

namespace Keys

def motions : List (Char × Motion) :=
  [('w', .nextWordStart), ('e', .nextWordEnd), ('$', .lineEnd), ('0', .lineStart), ('h', .left),
    ('j', .down), ('k', .up), ('l', .right)]

def operators : List (Char × Operator) :=
  [('x', .deleteChar), ('i', .insert), ('a', .append), ('A', .appendAtEnd), ('d', .delete),
    ('c', .change), ('p', .put), ('r', .replace)]

def motion? (key : Text) : Option Motion :=
  match key with
  | [c] => motions.lookup c
  | _ => none

def operator? (c : Char) : Option Operator :=
  operators.lookup c

theorem operators_disjoint_motions :
    ∀ entry ∈ operators, motion? [entry.1] = none := by
  decide

end Keys

end ModalEditor
