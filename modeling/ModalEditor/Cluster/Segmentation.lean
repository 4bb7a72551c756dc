import ModalEditor.Cluster.Kind
import ModalEditor.Text.Basic

/-! # Clusters

A cluster is what a reader sees as one character: a letter with its marks, a flag, a family of
people tied by joiners, a conjunct of consonants. Columns count clusters.

Whether a boundary lies before a character depends on its kind and on how the open cluster ends.
`Ending` is that much of the open cluster. Reading begins anew at every boundary.
-/

namespace ModalEditor

/-- Characters that are shown and addressed as one. -/
abbrev Cluster := List Char

/-- How the open cluster ends, as far as the next boundary depends on it. -/
inductive Ending where
  /-- Nothing is open: the start of a text or after a character that stands alone. -/
  | closed
  /-- A carriage return, which only a line feed continues. -/
  | carriageReturn
  /-- A sign that takes in the character after it. -/
  | prepended
  | lead
  | vowel
  | tail
  /-- A flag letter without a partner. -/
  | halfFlag
  /-- A pictograph and marks on it. -/
  | pictograph
  /-- A pictograph, marks on it and a joiner. -/
  | joined
  /-- A consonant and marks on it. -/
  | consonant
  /-- A consonant with marks, a linker among them. -/
  | linked
  | plain
  deriving DecidableEq, Repr

namespace Ending

/-- Whether a character of the given kind continues the open cluster. -/
def continues : Ending → CharKind → Bool
  | closed, _ => false
  | .carriageReturn, kind => kind = .lineFeed
  | _, .carriageReturn | _, .lineFeed | _, .control => false
  | _, .extender | _, .linker | _, .nonJoiner | _, .joiner | _, .spacingMark => true
  | prepended, _ => true
  | lead, .leadJamo | lead, .vowelJamo | lead, .openSyllable | lead, .closedSyllable => true
  | vowel, .vowelJamo | vowel, .tailJamo => true
  | tail, .tailJamo => true
  | halfFlag, .flagLetter => true
  | joined, .pictograph => true
  | linked, .consonant => true
  | _, _ => false

def after : Ending → CharKind → Ending
  | _, .carriageReturn => .carriageReturn
  | _, .lineFeed | _, .control => closed
  | _, .prepended => prepended
  | _, .leadJamo => lead
  | _, .vowelJamo | _, .openSyllable => vowel
  | _, .tailJamo | _, .closedSyllable => tail
  | halfFlag, .flagLetter => plain
  | _, .flagLetter => halfFlag
  | _, .pictograph => pictograph
  | _, .consonant => consonant
  | pictograph, .extender | pictograph, .linker | pictograph, .nonJoiner => pictograph
  | pictograph, .joiner => joined
  | consonant, .extender | consonant, .joiner => consonant
  | consonant, .linker | linked, .linker => linked
  | linked, .extender | linked, .joiner => linked
  | _, _ => plain

def start (kind : CharKind) : Ending :=
  closed.after kind

end Ending

/-- The characters of a text that continue the open cluster, and the clusters after them. -/
def segment (ending : Ending) : Text → Cluster × List Cluster
  | [] => ([], [])
  | c :: rest =>
    let kind := CharKind.of c
    if ending.continues kind then
      let (here, later) := segment (ending.after kind) rest
      (c :: here, later)
    else
      let (here, later) := segment (.start kind) rest
      ([], (c :: here) :: later)

def clusters (text : Text) : List Cluster :=
  (segment .closed text).2

/-- The number of clusters of a text. -/
def columns (text : Text) : Nat :=
  (clusters text).length

@[simp] theorem clusters_nil : clusters [] = [] := rfl

theorem segment_append_flatten (ending : Ending) (text : Text) :
    (segment ending text).1 ++ (segment ending text).2.flatten = text := by
  induction text generalizing ending with
  | nil => rfl
  | cons c rest ih => simp only [segment]; split <;> simp [ih]

theorem segment_closed_fst (text : Text) : (segment .closed text).1 = [] := by
  cases text <;> simp [segment, Ending.continues]

/-- Nothing of a text is lost or moved when it is split into clusters. -/
@[simp] theorem flatten_clusters (text : Text) : (clusters text).flatten = text := by
  simpa [clusters, segment_closed_fst] using segment_append_flatten .closed text

end ModalEditor
