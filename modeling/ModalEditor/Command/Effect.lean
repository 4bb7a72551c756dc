import ModalEditor.Command.Basic
import ModalEditor.Edit
import ModalEditor.Register

/-! # Effects of commands

What a command does is settled before anything is touched: at most one edit, and what becomes of
the register, the caret, the remembered column and the mode. A command that cannot be carried out
has no effect at all.
-/

namespace ModalEditor

/-- What a command sees. -/
structure View where
  page : Page
  caret : Position
  aim : Option Nat
  separators : Separators
  register : Option Register

/-- Where the caret comes to rest. -/
inductive Landing where
  | at (pos : Position)
  /-- On the last cluster of a text put in, or at its start if it has several lines. -/
  | lastOf (start : Position) (copies : Copies)

def Landing.position : Landing → Position
  | .at pos => pos
  | .lastOf start copies =>
    if '\n' ∈ copies.unit then start else ⟨start.line, start.col + (columns copies.text - 1)⟩

/-- What a command does. The remembered column is kept whether the edit is made or not; the rest
happens only if it is made. -/
structure Effect where
  aim : Option Nat
  edit : Option Edit := none
  register : Option Register := none
  caret : Option Landing := none
  inserts : Bool := false

/-- The largest text in bytes that one put may bring in. -/
def maxPutBytes : Nat := 16 * 1024 * 1024

namespace View

def reach (view : View) (stride : Stride) : Place :=
  stride.run view.page view.separators ⟨view.caret, view.aim⟩

/-- Whole lines that a command acts on, from `first` to `last`. -/
structure Lines where
  first : Nat
  last : Nat

def lines? (view : View) (count : Nat) : Option Lines :=
  if view.page.length = 0 then none
  else
    let first := min view.caret.line view.page.lastLine
    some ⟨first, min (first + (count - 1)) view.page.lastLine⟩

def Lines.span (lines : Lines) (page : Page) : Span :=
  ⟨⟨lines.first, 0⟩, ⟨lines.last, page.width lines.last⟩⟩

/-- The stretch that takes whole lines out, and where the caret goes. It holds the break after the
lines; the break before them if nothing comes after; and neither if the lines are all there is. -/
def Lines.removal (lines : Lines) (page : Page) : Span × Position :=
  if lines.last + 1 < page.length then
    (⟨⟨lines.first, 0⟩, ⟨lines.last + 1, 0⟩⟩, ⟨lines.first, 0⟩)
  else if 0 < lines.first then
    (⟨⟨lines.first - 1, page.width (lines.first - 1)⟩, ⟨lines.last, page.width lines.last⟩⟩,
      ⟨lines.first - 1, 0⟩)
  else (⟨.zero, ⟨lines.last, page.width lines.last⟩⟩, .zero)

def deletion? (span : Span) : Option Edit :=
  if span.isEmpty then none else some (.delete span)

def cut (view : View) (dest : Place) (inserts : Bool) : Effect :=
  let span := Span.between view.caret dest.pos
  if span.isEmpty then { aim := dest.aim, inserts }
  else
    { aim := dest.aim, edit := some (.delete span), register := some (.chars (view.page.slice span)),
      caret := some (.at span.start), inserts }

def cutLines (view : View) (lines : Lines) : Effect :=
  let (span, caret) := lines.removal view.page
  { aim := view.aim, edit := deletion? span,
    register := some (.lines (view.page.slice (lines.span view.page))), caret := some (.at caret) }

/-- Empties whole lines and leaves one blank line to type into. -/
def clearLines (view : View) (lines : Lines) : Effect :=
  let span := lines.span view.page
  { aim := view.aim, edit := deletion? span, register := some (.lines (view.page.slice span)),
    caret := some (.at span.start), inserts := true }

/-- Brings the content of the register in: a stretch of text after the caret, whole lines below the
line of the caret. Below the last line the breaks go before the lines. -/
def put (view : View) (register : Register) (count : Nat) : Effect :=
  match register with
  | .chars text =>
    let copies : Copies := ⟨text, count⟩
    let pos : Position :=
      ⟨view.caret.line, min (view.caret.col + 1) (view.page.width view.caret.line)⟩
    { aim := view.aim, edit := some (.insert pos copies), caret := some (.lastOf pos copies) }
  | .lines text =>
    let l := min view.caret.line view.page.lastLine
    let edit :=
      if l < view.page.lastLine then Edit.insert ⟨l + 1, 0⟩ ⟨text ++ ['\n'], count⟩
      else Edit.insert ⟨l, view.page.width l⟩ ⟨'\n' :: text, count⟩
    { aim := view.aim, edit := some edit, caret := some (.at ⟨l + 1, 0⟩) }

/-- Puts a cluster in place of each of the given number of clusters from the caret on, all of which
have to be on the line. -/
def replace? (view : View) (g : Cluster) (count : Nat) : Option Effect :=
  let stop := view.caret.col + count
  if view.page.width view.caret.line < stop then none
  else some
    { aim := view.aim, edit := some (.replace ⟨view.caret, ⟨view.caret.line, stop⟩⟩ ⟨g, count⟩),
      caret := some (.at ⟨view.caret.line, stop - 1⟩) }

end View

def Command.effect? (command : Command) (view : View) : Option Effect :=
  match command with
  | move stride =>
    let dest := view.reach stride
    some { aim := dest.aim, caret := some (.at dest.pos) }
  | insert => some { aim := view.aim, inserts := true }
  | append =>
    let dest := view.reach ⟨.right, 1⟩
    some { aim := dest.aim, caret := some (.at dest.pos), inserts := true }
  | appendAtEnd =>
    let dest := view.reach ⟨.lineEnd, 1⟩
    some { aim := dest.aim, caret := some (.at dest.pos), inserts := true }
  | delete (.stride stride) => some (view.cut (view.reach stride) false)
  | delete (.lines count) => (view.lines? count).map view.cutLines
  | change (.stride stride) => some (view.cut (view.reach stride) true)
  | change (.lines count) => (view.lines? count).map view.clearLines
  | put count =>
    match view.register with
    | none => none
    | some register =>
      if register.isEmpty ∨ maxPutBytes < register.content.byteSize * count then none
      else some (view.put register count)
  | replace g count => view.replace? g count

namespace Command

variable {view : View} {effect : Effect} {count : Nat}

theorem of_effect?_put (he : (put count).effect? view = some effect) :
    ∃ register ∈ view.register, register.isEmpty = false ∧
      register.content.byteSize * count ≤ maxPutBytes ∧ effect = view.put register count := by
  simp only [effect?] at he
  split at he
  · cases he
  · next register held =>
    split at he
    · cases he
    · next fits =>
      rw [not_or, Bool.not_eq_true, Nat.not_lt] at fits
      exact ⟨register, held, fits.1, fits.2, (Option.some.inj he).symm⟩

theorem of_effect?_replace {g : Cluster} (he : (replace g count).effect? view = some effect) :
    view.caret.col + count ≤ view.page.width view.caret.line ∧
      effect =
        { aim := view.aim
          edit := some (.replace ⟨view.caret, ⟨view.caret.line, view.caret.col + count⟩⟩ ⟨g, count⟩)
          caret := some (.at ⟨view.caret.line, view.caret.col + count - 1⟩) } := by
  simp only [effect?, View.replace?] at he
  split at he
  · cases he
  · next enough => exact ⟨Nat.le_of_not_lt enough, (Option.some.inj he).symm⟩

end Command

end ModalEditor
