import ModalEditor.Console

/-! # The screen of a console

A frame shows the text in a box with a title and the status in a second box below it, with a margin
of one cell around both. Every cell holds one cluster. The text is shown from its first line on and
cut at the edges of its box.
-/

namespace ModalEditor

inductive Tone where
  | plain
  | bold
  | alarm
  deriving DecidableEq, Repr

structure Cell where
  cluster : Cluster
  tone : Tone
  deriving DecidableEq, Repr

structure Frame where
  rows : List (List Cell)
  caretX : Nat
  caretY : Nat
  deriving DecidableEq, Repr

namespace Frame

def cell (tone : Tone) (c : Char) : Cell :=
  ⟨[c], tone⟩

/-- The first `width` of some cells, filled up with copies of a character. -/
def fit (tone : Tone) (fill : Char) (width : Nat) (cells : List Cell) : List Cell :=
  cells.take width ++ List.replicate (width - cells.length) (cell tone fill)

def margin (row : List Cell) : List Cell :=
  cell .plain ' ' :: row ++ [cell .plain ' ']

def between (tone : Tone) (left right : Char) (row : List Cell) : List Cell :=
  cell tone left :: row ++ [cell tone right]

/-- The rows of a box around `height` lines of `width` cells, with a title in the upper border. -/
def box (tone : Tone) (width height : Nat) (title : Line) (content : List Line) :
    List (List Cell) :=
  let styled (line : Line) : List Cell := line.map (⟨·, tone⟩)
  let shown := (content.take height).map fun line => fit tone ' ' width (styled line)
  let blank := List.replicate (height - content.length) (fit tone ' ' width [])
  between tone '┌' '┐' (fit tone '─' width (styled title))
    :: (shown ++ blank).map (between tone '│' '│')
    ++ [between tone '└' '┘' (fit tone '─' width [])]

def title : Line :=
  clusters "vim_interp demo".toList

def coordinate (n : Nat) : Nat :=
  (2 + n) % UInt16.size

end Frame

namespace Console

def statusLine (console : Console) : Text :=
  match console.message with
  | none => console.session.engine.status
  | some message => console.session.engine.status ++ "  ".toList ++ message

/-- A beep and a message raise the alarm, an empty message too. -/
def tone (console : Console) : Tone :=
  if console.beeped || console.message.isSome then .alarm else .bold

def draw (console : Console) (width height : Nat) : Frame :=
  let blank := List.replicate width (Frame.cell .plain ' ')
  let inner := width - 4
  let text := Frame.box .plain inner (height - 7) Frame.title console.session.host.page
  let status := Frame.box console.tone inner 1 [] [clusters console.statusLine]
  let caret := console.session.host.document.caret
  { rows := blank :: (text ++ status).map Frame.margin ++ [blank]
    caretX := Frame.coordinate caret.col
    caretY := Frame.coordinate caret.line }

end Console

end ModalEditor
