import ModalEditor.Text.Lines
import ModalEditor.Edit
import ModalEditor.Page

/-! # Documents

A document is a text with a caret. Positions are turned into offsets, which count characters from
the start of the text, and back. How much of its break a line shows is left open: `shown` gives the
visible part of a line.
-/

namespace ModalEditor

/-- A text and where its caret is. -/
structure Document where
  text : Text
  caret : Position
  deriving DecidableEq, Repr

namespace Document

variable (shown : Text → Text)

def page (d : Document) : Page :=
  d.text.lines.map fun line => clusters (shown line)

/-- The offset of a position. A line past the end counts as the last one, and a column past the end
of the visible line as that end. -/
def offset (d : Document) (p : Position) : Nat :=
  let lines := d.text.lines
  let l := min p.line (lines.length - 1)
  (lines.take l).flatten.length
    + ((clusters (shown (lines[l]?.getD []))).take p.col).flatten.length

/-- The position of an offset within lines. An offset inside a break belongs to the line that the
break ends. -/
def locate : List Text → Nat → Position
  | [], _ => .zero
  | [line], n => ⟨0, columns (line.take n)⟩
  | line :: rest, n =>
    if n < line.length then ⟨0, columns (line.take n)⟩
    else
      let p := locate rest (n - line.length)
      ⟨p.line + 1, p.col⟩

def position (d : Document) (n : Nat) : Position :=
  locate d.text.lines n

/-- The text with the part between two offsets exchanged. -/
def splice (start stop : Nat) (new : Text) (d : Document) : Document :=
  { d with text := d.text.take start ++ new ++ d.text.drop stop }

/-- Exchanges the part between two offsets and moves the caret behind the new text. -/
def enter (start stop : Nat) (new : Text) (d : Document) : Document :=
  let d := d.splice start stop new
  { d with caret := d.position (start + new.length) }

/-- Removes a span, unless its ends fall on offsets in the wrong order. -/
def delete (span : Span) (d : Document) : Except Failure Document :=
  let start := d.offset shown span.start
  let stop := d.offset shown span.stop
  if stop < start then .error .crossed else .ok (d.splice start stop [])

def insert (pos : Position) (new : Text) (d : Document) : Document :=
  let n := d.offset shown pos
  d.splice n n new

/-- Makes an edit. `reach` gives the offset from which on a number of clusters before the caret are
replaced. Only native typing moves the caret. -/
def edit (reach : Document → Nat → Nat) (e : Edit) (d : Document) : Except Failure Document :=
  match e with
  | .delete span => d.delete shown span
  | .insert pos copies => .ok (d.insert shown pos copies.text)
  | .replace span copies =>
    (d.delete shown span).map fun cut => cut.insert shown span.start copies.text
  | .typeIn text =>
    let n := d.offset shown d.caret
    .ok (d.enter n n text)
  | .retype text count =>
    .ok (d.enter (reach d count) (d.offset shown d.caret) text)

end Document

end ModalEditor
