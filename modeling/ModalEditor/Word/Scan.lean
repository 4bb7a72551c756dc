import ModalEditor.Word.Separators

/-! # Words of a line

A word is a run of clusters of one class other than blank that cannot be made longer. A line is
scanned from a column on until a run closes; the run may begin before the column, so its start is
looked for backwards from its end.
-/

namespace ModalEditor

inductive WordKind where
  | letters
  | separators
  deriving DecidableEq, Repr

def WordKind.wanted : WordKind → WordClass
  | letters => .letter
  | separators => .separator

/-- A run of clusters of one class, from `start` up to but not including `stop`. -/
structure Word where
  start : Nat
  stop : Nat
  kind : WordClass
  deriving DecidableEq, Repr

namespace Word

def closes : WordClass → WordKind → Bool
  | .letter, .separators | .separator, .letters | .blank, _ => true
  | .letter, .letters | .separator, .separators => false

def carry (run : Option WordKind) : WordClass → Option WordKind
  | .letter => some .letters
  | .separator => some .separators
  | .blank => run

/-- The column of the last cluster that does not belong to a run. -/
def lastOther? (kind : WordKind) (line : List WordClass) : Option Nat :=
  (line.reverse.findIdx? (· != kind.wanted)).map fun back => line.length - 1 - back

def startOf (classes : List WordClass) (kind : WordKind) (stop : Nat) : Nat :=
  (lastOther? kind (classes.take stop)).elim 0 (· + 1)

def ofRun (classes : List WordClass) (kind : WordKind) (stop : Nat) : Word :=
  ⟨startOf classes kind stop, stop, kind.wanted⟩

/-- Scans what is left of a line from column `i` on, with the run that is open there. -/
def scan (classes : List WordClass) : Nat → Option WordKind → List WordClass → Option Word
  | _, run, [] => run.map fun kind => ofRun classes kind classes.length
  | i, run, k :: rest =>
    match run.filter (closes k) with
    | some kind => some (ofRun classes kind i)
    | none => scan classes (i + 1) (carry run k) rest

end Word

/-- The first word of a line that ends after column `col`, if anything but blanks is left. -/
def nextWord (classes : List WordClass) (col : Nat) : Option Word :=
  let first := min col classes.length
  Word.scan classes first none (classes.drop first)

end ModalEditor
