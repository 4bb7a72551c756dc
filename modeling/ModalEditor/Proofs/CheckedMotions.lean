import ModalEditor.Command.Effect
import ModalEditor.Keys.Count
import ModalEditor.Proofs.OnPage

/-! # Checked motions

Lines, columns and counts are numbers of one machine word, and the largest count is the largest of
them. Motions and slices are worked out here once more, with every sum and difference checked that
is not held at the ends of that range. As long as the page fits, no check fails, wherever the caret
is, and the outcome is the same.
-/

namespace ModalEditor

inductive Overflow where
  | above
  | below
  deriving DecidableEq, Repr

/-- An outcome, unless a sum or a difference on the way to it does not fit into a word. -/
abbrev Checked (α : Type) := Except Overflow α

namespace Checked

variable {α γ : Type} {a b : Nat}

def sum (a b : Nat) : Checked Nat :=
  if a + b ≤ maxCount then .ok (a + b) else .error .above

def difference (a b : Nat) : Checked Nat :=
  if b ≤ a then .ok (a - b) else .error .below

/-- A sum that is held at the largest number of a word. -/
def heldSum (a b : Nat) : Nat :=
  min (a + b) maxCount

@[simp] theorem ok_bind (x : α) (f : α → Checked γ) : (Except.ok x >>= f) = f x := rfl

theorem sum_eq (h : a + b ≤ maxCount) : sum a b = .ok (a + b) :=
  if_pos h

theorem difference_eq (h : b ≤ a) : difference a b = .ok (a - b) :=
  if_pos h

theorem heldSum_lt_iff {n : Nat} (h : n ≤ maxCount) : heldSum a b < n ↔ a + b < n := by
  rw [heldSum]
  omega

end Checked

open Checked

namespace Page

/-- The lines of the page can be counted, and so can the clusters of each with those of a put. -/
structure InWord (page : Page) : Prop where
  length : page.length ≤ maxCount
  room : ∀ line ∈ page, line.length ≤ maxCount - maxPutBytes

instance (page : Page) : Decidable page.InWord :=
  decidable_of_iff (page.length ≤ maxCount ∧ ∀ line ∈ page, line.length ≤ maxCount - maxPutBytes)
    ⟨fun h => ⟨h.1, h.2⟩, fun h => ⟨h.length, h.room⟩⟩

variable {page : Page}

theorem InWord.width (h : page.InWord) (l : Nat) : page.width l ≤ maxCount - maxPutBytes := by
  rcases Nat.lt_or_ge l page.length with inside | past
  · rw [Page.width, line, List.getElem?_eq_getElem inside]
    exact h.room _ (List.getElem_mem inside)
  · rw [Page.width, line_of_le past]
    exact Nat.zero_le _

theorem InWord.width_le (h : page.InWord) (l : Nat) : page.width l ≤ maxCount :=
  Nat.le_trans (h.width l) (Nat.sub_le ..)

theorem InWord.line_le (h : page.InWord) {l : Nat} (below : l + 1 < page.length) :
    l + 1 ≤ maxCount :=
  Nat.le_trans (Nat.le_of_lt below) h.length

/-! ## Slices -/

def checkedPieces (page : Page) (s : Span) : Checked (List Line) :=
  if s.start.line = s.stop.line then
    .ok [((page.line s.start.line).take s.stop.col).drop s.start.col]
  else do
    let below ← sum s.start.line 1
    .ok ((page.line s.start.line).drop s.start.col :: (page.take s.stop.line).drop below
      ++ [(page.line s.stop.line).take s.stop.col])

def checkedSlice (page : Page) (s : Span) : Checked Text :=
  let start := page.clamp s.start
  let stop := page.clamp s.stop
  if stop ≤ start then .ok []
  else do
    let pieces ← page.checkedPieces ⟨start, stop⟩
    .ok (['\n'].intercalate (pieces.map List.flatten))

theorem checkedPieces_eq (h : page.InWord) {s : Span} (lines : s.start.line ≤ s.stop.line)
    (onPage : s.stop.line ≤ page.lastLine) : page.checkedPieces s = .ok (page.pieces s) := by
  simp only [checkedPieces, pieces]
  split
  · rfl
  · next apart =>
    have below : s.start.line + 1 < page.length + 1 := by
      rw [lastLine] at onPage
      omega
    rw [sum_eq (Nat.le_trans (Nat.le_of_lt_succ below) h.length), ok_bind]

theorem checkedSlice_eq (h : page.InWord) (s : Span) :
    page.checkedSlice s = .ok (page.slice s) := by
  simp only [checkedSlice, slice]
  split
  · rfl
  · next order =>
    have lines : (page.clamp s.start).line ≤ (page.clamp s.stop).line := by
      rw [Position.not_le, Position.lt_def] at order
      omega
    rw [checkedPieces_eq h lines (Nat.min_le_right ..), ok_bind]

end Page

/-! ## Motions -/

namespace Motion

def checkedWrap (page : Page) (p : Position) : Checked Position :=
  if heldSum p.line 1 < page.length then do
    let line ← sum p.line 1
    .ok ⟨line, 0⟩
  else .ok p

def checkedStep (page : Page) (separators : Separators) (m : Motion) (place : Place) :
    Checked Place :=
  let p := place.pos
  match m with
  | left =>
    if 0 < p.col then do
      let col ← difference p.col 1
      .ok ⟨⟨p.line, col⟩, some col⟩
    else .ok place
  | right =>
    if p.col < page.width p.line then do
      let col ← sum p.col 1
      .ok ⟨⟨p.line, col⟩, some col⟩
    else .ok place
  | up =>
    let aim := place.aim.getD p.col
    if 0 < p.line then do
      let line ← difference p.line 1
      .ok ⟨⟨line, min aim (page.width line)⟩, some aim⟩
    else .ok ⟨p, some aim⟩
  | down =>
    let aim := place.aim.getD p.col
    if heldSum p.line 1 < page.length then do
      let line ← sum p.line 1
      .ok ⟨⟨line, min aim (page.width line)⟩, some aim⟩
    else .ok ⟨p, some aim⟩
  | lineStart => .ok ⟨⟨p.line, 0⟩, none⟩
  | lineEnd => .ok ⟨endOfLine page p, none⟩
  | nextWordStart =>
    if heldSum p.col 1 < page.width p.line then .ok ⟨wordStart page separators p, none⟩
    else do
      let pos ← checkedWrap page p
      .ok ⟨pos, none⟩
  | nextWordEnd =>
    if heldSum p.col 1 < page.width p.line then .ok ⟨wordEnd page separators p, none⟩
    else do
      let pos ← checkedWrap page p
      .ok ⟨pos, none⟩

def checkedWalk (page : Page) (separators : Separators) (m : Motion) :
    Nat → Place → Checked Place
  | 0, place => .ok place
  | times + 1, place => do
    let next ← checkedStep page separators m place
    if next.pos = place.pos then .ok next else checkedWalk page separators m times next

variable {page : Page} {separators : Separators} {place : Place} {p : Position}

theorem checkedWrap_eq (h : page.InWord) (p : Position) :
    checkedWrap page p = .ok (wrap page p) := by
  simp only [checkedWrap, wrap, heldSum_lt_iff h.length]
  split
  · next below => rw [sum_eq (h.line_le below), ok_bind]
  · rfl

theorem checkedStep_eq (h : page.InWord) (m : Motion) (place : Place) :
    m.checkedStep page separators place = .ok (m.step page separators place) := by
  obtain ⟨p, aim⟩ := place
  have width := h.width_le p.line
  cases m with
  | left =>
    simp only [checkedStep, step]
    split
    · next some => rw [difference_eq some, ok_bind]
    · rfl
  | right =>
    simp only [checkedStep, step]
    split
    · next before => rw [sum_eq (Nat.le_trans before width), ok_bind]
    · rfl
  | up =>
    simp only [checkedStep, step]
    split
    · next some => rw [difference_eq some, ok_bind]
    · rfl
  | down =>
    simp only [checkedStep, step, heldSum_lt_iff h.length]
    split
    · next below => rw [sum_eq (h.line_le below), ok_bind]
    · rfl
  | lineStart | lineEnd => rfl
  | nextWordStart | nextWordEnd =>
    simp only [checkedStep, step, heldSum_lt_iff width, checkedWrap_eq h, ok_bind]
    split <;> rfl

theorem checkedWalk_eq (h : page.InWord) (m : Motion) (times : Nat) (place : Place) :
    m.checkedWalk page separators times place = .ok (m.walk page separators times place) := by
  induction times generalizing place with
  | zero => rfl
  | succ times ih =>
    simp only [checkedWalk, walk, checkedStep_eq h, ok_bind, ih]
    split <;> rfl

end Motion

def Stride.checkedRun (page : Page) (separators : Separators) (stride : Stride) (place : Place) :
    Checked Place :=
  stride.motion.checkedWalk page separators stride.times place

def Move.checkedRun (page : Page) (separators : Separators) (move : Move) (place : Place) :
    Checked Place :=
  match move.stride? with
  | none => move.1.checkedStep page separators place
  | some stride => stride.checkedRun page separators place

variable {page : Page} {separators : Separators}

theorem Stride.checkedRun_eq (h : page.InWord) (stride : Stride) (place : Place) :
    stride.checkedRun page separators place = .ok (stride.run page separators place) :=
  Motion.checkedWalk_eq h stride.motion stride.times place

theorem Move.checkedRun_eq (h : page.InWord) (move : Move) (place : Place) :
    move.checkedRun page separators place = .ok (move.run page separators place) := by
  simp only [checkedRun, run]
  cases move.stride? with
  | none => exact Motion.checkedStep_eq h move.1 place
  | some stride => exact stride.checkedRun_eq h place

end ModalEditor
