import ModalEditor.Page
import ModalEditor.Word.Scan

/-! # Motions

A motion takes a place on a page to another. A place is a position together with the column that
vertical motions try to return to. One past the last cluster of a line is a legal column, on which
appending relies.
-/

namespace ModalEditor

inductive Motion where
  | left
  | right
  | up
  | down
  | lineStart
  | lineEnd
  | nextWordStart
  | nextWordEnd
  deriving DecidableEq, Repr

/-- A position and the column that vertical motions aim for, once one is remembered. -/
structure Place where
  pos : Position
  aim : Option Nat
  deriving DecidableEq, Repr

namespace Motion

def classes (page : Page) (separators : Separators) (l : Nat) : List WordClass :=
  (page.line l).map separators.clusterClass

def endOfLine (page : Page) (p : Position) : Position :=
  ⟨p.line, page.width p.line⟩

/-- Where a word motion goes from the last cluster of a line or beyond: to the next line, and
nowhere from the last line. -/
def wrap (page : Page) (p : Position) : Position :=
  if p.line + 1 < page.length then ⟨p.line + 1, 0⟩ else p

/-- The start of the next word on the line, or the end of the line. -/
def wordStart (page : Page) (separators : Separators) (p : Position) : Position :=
  let classes := classes page separators p.line
  match nextWord classes p.col with
  | none => endOfLine page p
  | some word =>
    if word.start ≤ p.col ∧ p.col < word.stop then
      match nextWord classes word.stop with
      | none => endOfLine page p
      | some next => ⟨p.line, next.start⟩
    else ⟨p.line, word.start⟩

/-- The end of the word at or after a position, or the end of the line. -/
def wordEnd (page : Page) (separators : Separators) (p : Position) : Position :=
  match nextWord (classes page separators p.line) p.col with
  | none => endOfLine page p
  | some word => ⟨p.line, word.stop⟩

def step (page : Page) (separators : Separators) (m : Motion) (place : Place) : Place :=
  let p := place.pos
  match m with
  | left => if 0 < p.col then ⟨⟨p.line, p.col - 1⟩, some (p.col - 1)⟩ else place
  | right => if p.col < page.width p.line then ⟨⟨p.line, p.col + 1⟩, some (p.col + 1)⟩ else place
  | up =>
    let aim := place.aim.getD p.col
    ⟨if 0 < p.line then ⟨p.line - 1, min aim (page.width (p.line - 1))⟩ else p, some aim⟩
  | down =>
    let aim := place.aim.getD p.col
    ⟨if p.line + 1 < page.length then ⟨p.line + 1, min aim (page.width (p.line + 1))⟩ else p,
      some aim⟩
  | lineStart => ⟨⟨p.line, 0⟩, none⟩
  | lineEnd => ⟨endOfLine page p, none⟩
  | nextWordStart =>
    ⟨if p.col + 1 < page.width p.line then wordStart page separators p else wrap page p, none⟩
  | nextWordEnd =>
    ⟨if p.col + 1 < page.width p.line then wordEnd page separators p else wrap page p, none⟩

/-- A motion repeated. It ends early when a step leaves the position as it is. -/
def walk (page : Page) (separators : Separators) (m : Motion) : Nat → Place → Place
  | 0, place => place
  | times + 1, place =>
    let next := step page separators m place
    if next.pos = place.pos then next else walk page separators m times next

end Motion

/-- A motion with the number of times it is made. -/
structure Stride where
  motion : Motion
  times : Nat
  deriving DecidableEq, Repr

/-- A motion made the given number of times, and at least once. -/
def Motion.repeated (m : Motion) (times : Nat) : Stride :=
  ⟨m, max times 1⟩

def Stride.run (page : Page) (separators : Separators) (stride : Stride) (place : Place) : Place :=
  stride.motion.walk page separators stride.times place

/-- A motion with or without a count. -/
abbrev Move := Motion × Option Nat

def Move.stride? (move : Move) : Option Stride :=
  move.2.map move.1.repeated

def Move.run (page : Page) (separators : Separators) (move : Move) (place : Place) : Place :=
  match move.stride? with
  | none => move.1.step page separators place
  | some stride => stride.run page separators place

def tour (page : Page) (separators : Separators) : List Move → Place → List Place
  | [], _ => []
  | move :: rest, place =>
    let next := move.run page separators place
    next :: tour page separators rest next

end ModalEditor
