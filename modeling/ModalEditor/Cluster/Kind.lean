import ModalEditor.Cluster.Table.Consonant
import ModalEditor.Cluster.Table.Control
import ModalEditor.Cluster.Table.Extender
import ModalEditor.Cluster.Table.Linker
import ModalEditor.Cluster.Table.Pictograph
import ModalEditor.Cluster.Table.Prepended
import ModalEditor.Cluster.Table.SpacingMark

/-! # Kinds of characters

How a character takes part in clusters. The kinds do not overlap. Printable ASCII characters are
`plain`, which is decided before any table is searched.
-/

namespace ModalEditor

/-- The part that a character plays in the forming of clusters. -/
inductive CharKind where
  | carriageReturn
  | lineFeed
  | control
  | extender
  | linker
  | nonJoiner
  | joiner
  | spacingMark
  | prepended
  | flagLetter
  | leadJamo
  | vowelJamo
  | tailJamo
  | openSyllable
  | closedSyllable
  | pictograph
  | consonant
  | plain
  deriving DecidableEq, Repr

namespace CharKind

/-- The kind of a Hangul character: the conjoining letters, and the syllables with and without a
final consonant. Syllables come in blocks of 28 that begin with the one that has no final. -/
def ofHangul (code : Nat) : Option CharKind :=
  if 0x1100 ≤ code ∧ code ≤ 0x115F ∨ 0xA960 ≤ code ∧ code ≤ 0xA97C then some leadJamo
  else if 0x1160 ≤ code ∧ code ≤ 0x11A7 ∨ 0xD7B0 ≤ code ∧ code ≤ 0xD7C6 then some vowelJamo
  else if code = 0x16D63 ∨ 0x16D67 ≤ code ∧ code ≤ 0x16D6A then some vowelJamo
  else if 0x11A8 ≤ code ∧ code ≤ 0x11FF ∨ 0xD7CB ≤ code ∧ code ≤ 0xD7FB then some tailJamo
  else if 0xAC00 ≤ code ∧ code ≤ 0xD7A3 then
    some (if (code - 0xAC00) % 28 = 0 then openSyllable else closedSyllable)
  else none

def ofCode (code : Nat) : CharKind :=
  match ofHangul code with
  | some kind => kind
  | none =>
    if code = 0x200C then nonJoiner
    else if code = 0x200D then joiner
    else if 0x1F1E6 ≤ code ∧ code ≤ 0x1F1FF then flagLetter
    else if Table.control.covers code then control
    else if Table.linker.covers code then linker
    else if Table.extender.covers code then extender
    else if Table.spacingMark.covers code then spacingMark
    else if Table.prepended.covers code then prepended
    else if Table.consonant.covers code then consonant
    else if Table.pictograph.covers code then pictograph
    else plain

def of (c : Char) : CharKind :=
  if c = '\r' then .carriageReturn
  else if c = '\n' then lineFeed
  else if 0x20 ≤ c.toNat ∧ c.toNat ≤ 0x7E then plain
  else ofCode c.toNat

theorem of_printable {c : Char} (low : 0x20 ≤ c.toNat) (high : c.toNat ≤ 0x7E) :
    of c = plain := by
  have notReturn : c ≠ '\r' := by rintro rfl; simp at low
  have notFeed : c ≠ '\n' := by rintro rfl; simp at low
  simp [of, notReturn, notFeed, low, high]

end CharKind

end ModalEditor
