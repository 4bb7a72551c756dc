import Mathlib.Data.List.Induction
import ModalEditor.Word.Separators

/-! # Separators as they are stored

A setting is read in character by character: ASCII characters into a table of classes, the others
into a list in the order of first mention. Looking a character up there gives the class that the
setting gives it, whatever its order and repetitions.
-/

namespace ModalEditor

namespace Separators

/-- A setting as it is stored: the classes of the ASCII characters by their codes, and the
separators beyond them. -/
structure Stored where
  ascii : List WordClass
  further : List Char
  deriving DecidableEq

namespace Stored

def classOf (stored : Stored) (c : Char) : WordClass :=
  if c.toNat < 128 then stored.ascii.getD c.toNat .letter
  else if c ∈ stored.further then .separator
  else .letter

def mark (c : Char) (kind : WordClass) (stored : Stored) : Stored :=
  { stored with ascii := stored.ascii.set c.toNat kind }

/-- Adds a separator. One beyond ASCII is kept where it is met first. -/
def add (stored : Stored) (c : Char) : Stored :=
  if c.toNat < 128 then stored.mark c .separator
  else if c ∈ stored.further then stored
  else { stored with further := stored.further ++ [c] }

def empty : Stored :=
  ⟨List.replicate 128 .letter, []⟩

end Stored

/-- Stores a setting: its characters one after the other, and then the blanks over whatever the
setting makes of them. -/
def store (separators : Separators) : Stored :=
  ((separators.foldl Stored.add .empty).mark ' ' .blank).mark '\t' .blank

namespace Stored

variable {stored : Stored} {c d : Char} {kind : WordClass}

@[simp] theorem length_mark : (stored.mark c kind).ascii.length = stored.ascii.length := by
  simp [mark]

theorem length_add : (stored.add c).ascii.length = stored.ascii.length := by
  unfold add
  split
  · exact length_mark
  · split <;> rfl

theorem classOf_mark (full : stored.ascii.length = 128) (hc : c.toNat < 128) (d : Char) :
    (stored.mark c kind).classOf d = if d = c then kind else stored.classOf d := by
  unfold classOf mark
  by_cases same : d = c
  · subst same
    simp [hc, full]
  · have other : c.toNat ≠ d.toNat := fun h => same (Char.toNat_inj.mp h).symm
    simp [same, List.getD_eq_getElem?_getD, List.getElem?_set_ne other]

theorem classOf_add (full : stored.ascii.length = 128) (c d : Char) :
    (stored.add c).classOf d = if d = c then .separator else stored.classOf d := by
  unfold add
  split
  · next ascii => exact classOf_mark full ascii d
  · next beyond =>
    by_cases known : c ∈ stored.further
    · rw [if_pos known]
      by_cases same : d = c
      · simp [classOf, same, beyond, known]
      · rw [if_neg same]
    · rw [if_neg known]
      by_cases same : d = c
      · simp [classOf, same, beyond]
      · simp [classOf, same]

theorem length_foldl (separators : Separators) :
    (separators.foldl add empty).ascii.length = 128 := by
  induction separators using List.reverseRec with
  | nil => rfl
  | append_singleton separators c ih =>
    rw [List.foldl_append, List.foldl_cons, List.foldl_nil, length_add, ih]

theorem classOf_foldl (separators : Separators) (d : Char) :
    (separators.foldl add empty).classOf d = if d ∈ separators then .separator else .letter := by
  induction separators using List.reverseRec with
  | nil =>
    by_cases ascii : d.toNat < 128
    · simp only [List.foldl_nil, classOf, empty, ascii, if_true, List.getD_eq_getElem?_getD,
        List.not_mem_nil, List.getElem?_replicate, Option.getD_some, if_false]
    · simp only [List.foldl_nil, classOf, empty, ascii, if_false, List.not_mem_nil]
  | append_singleton separators c ih =>
    rw [List.foldl_append, List.foldl_cons, List.foldl_nil, classOf_add (length_foldl separators),
      ih]
    by_cases same : d = c <;> simp [same]

end Stored

/-- What is looked up in a stored setting is what the setting says. -/
theorem classOf_store (separators : Separators) (c : Char) :
    separators.store.classOf c = separators.classOf c := by
  have full := Stored.length_foldl separators
  rw [store, Stored.classOf_mark (Stored.length_mark.trans full) (by decide),
    Stored.classOf_mark full (by decide), Stored.classOf_foldl, classOf]
  by_cases tab : c = '\t'
  · simp [tab]
  · by_cases space : c = ' ' <;> simp [tab, space]

end Separators

end ModalEditor
