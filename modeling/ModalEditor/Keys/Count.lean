import ModalEditor.Text.Basic

/-! # Repeat counts

A command may begin with a count: decimal digits of which the first is not zero. Counts end at
`maxCount`; whatever would be larger is that.
-/

namespace ModalEditor

def maxCount : Nat := UInt32.size - 1

def digitValue (c : Char) : Nat :=
  c.toNat - '0'.toNat

/-- A count read digit by digit, held at the largest count at every step. -/
def countOf (digits : List Char) : Nat :=
  digits.foldl (fun n c => min (min (n * 10) maxCount + digitValue c) maxCount) 0

def countProduct (outer inner : Nat) : Nat :=
  min (outer * inner) maxCount

structure Counted where
  count : Nat
  rest : Text
  deriving DecidableEq, Repr

/-- Takes the count off the front of the keys. Without a count it is one. -/
def splitCount (keys : Text) : Counted :=
  match keys with
  | [] => ⟨1, []⟩
  | c :: _ =>
    if c.isDigit && c != '0' then
      ⟨countOf (keys.takeWhile Char.isDigit), keys.dropWhile Char.isDigit⟩
    else ⟨1, keys⟩

end ModalEditor
