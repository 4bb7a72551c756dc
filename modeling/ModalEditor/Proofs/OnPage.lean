import ModalEditor.Command.Effect
import ModalEditor.Mode
import ModalEditor.Proofs.Words

/-! # Positions on a page

A motion that starts on the page ends on it, one past the last cluster of a line included, however
often it is repeated. Where the caret may rest depends on the mode.
-/

namespace ModalEditor

namespace Page

variable {page : Page} {p q : Position}

/-- The position is on a line of the page, the end of that line included. -/
structure Holds (page : Page) (p : Position) : Prop where
  line : p.line < page.length
  col : p.col ≤ page.width p.line

/-- The caret may rest there: on a cluster in normal mode, at the start of a line that has none, and
in insert mode also at the end of a line. -/
def Rests (page : Page) (mode : Mode) (p : Position) : Prop :=
  p.line < page.length ∧
    match mode with
    | .insert => p.col ≤ page.width p.line
    | .normal => p.col < page.width p.line ∨ page.width p.line = 0 ∧ p.col = 0

instance (page : Page) (mode : Mode) (p : Position) : Decidable (page.Rests mode p) :=
  match mode with
  | .insert => inferInstanceAs (Decidable (_ ∧ _))
  | .normal => inferInstanceAs (Decidable (_ ∧ (_ ∨ _)))

theorem Rests.holds {mode : Mode} (h : page.Rests mode p) : page.Holds p := by
  obtain ⟨line, col⟩ := h
  refine ⟨line, ?_⟩
  cases mode with
  | insert => exact col
  | normal => rcases col with inside | ⟨-, start⟩ <;> omega

theorem holds_start (h : p.line < page.length) : page.Holds ⟨p.line, 0⟩ :=
  ⟨h, Nat.zero_le _⟩

theorem Holds.mono (h : page.Holds q) (line : p.line = q.line) (col : p.col ≤ q.col) :
    page.Holds p := by
  obtain ⟨l, c⟩ := p
  obtain rfl : l = q.line := line
  exact ⟨h.line, Nat.le_trans col h.col⟩

theorem holds_between (hp : page.Holds p) (hq : page.Holds q) :
    page.Holds (Span.between p q).start ∧ page.Holds (Span.between p q).stop := by
  unfold Span.between
  split
  · exact ⟨hp, hq⟩
  · exact ⟨hq, hp⟩

end Page

theorem nextWord_bounds {classes : List WordClass} {col : Nat} {word : Word}
    (h : nextWord classes col = some word) :
    word.start ≤ classes.length ∧ word.stop ≤ classes.length := by
  have next := nextWord_next h
  exact ⟨Nat.le_trans (Nat.le_of_lt next.nonempty) next.stop_le, next.stop_le⟩

namespace Motion

variable {page : Page} {separators : Separators} {place : Place} {p : Position}

theorem length_classes (page : Page) (separators : Separators) (l : Nat) :
    (classes page separators l).length = page.width l := by
  rw [classes, List.length_map, Page.width]

theorem holds_endOfLine (h : page.Holds p) : page.Holds (endOfLine page p) :=
  ⟨h.line, Nat.le_refl _⟩

theorem holds_wrap (h : page.Holds p) : page.Holds (wrap page p) := by
  unfold wrap
  split
  · next below => exact ⟨below, Nat.zero_le _⟩
  · exact h

theorem line_wordStart (page : Page) (separators : Separators) (p : Position) :
    (wordStart page separators p).line = p.line := by
  unfold wordStart
  simp only
  split
  · rfl
  · split
    · split <;> rfl
    · rfl

theorem line_wordEnd (page : Page) (separators : Separators) (p : Position) :
    (wordEnd page separators p).line = p.line := by
  unfold wordEnd
  split <;> rfl

theorem holds_wordStart (h : page.Holds p) : page.Holds (wordStart page separators p) := by
  have width := length_classes page separators p.line
  unfold wordStart
  simp only
  split
  · exact holds_endOfLine h
  · next word found =>
    split
    · split
      · exact holds_endOfLine h
      · next word' found' => exact ⟨h.line, width ▸ (nextWord_bounds found').1⟩
    · exact ⟨h.line, width ▸ (nextWord_bounds found).1⟩

theorem holds_wordEnd (h : page.Holds p) : page.Holds (wordEnd page separators p) := by
  have width := length_classes page separators p.line
  unfold wordEnd
  split
  · exact holds_endOfLine h
  · next word found => exact ⟨h.line, width ▸ (nextWord_bounds found).2⟩

theorem holds_step (m : Motion) (h : page.Holds place.pos) :
    page.Holds (m.step page separators place).pos := by
  obtain ⟨p, aim⟩ := place
  have line := h.line
  have col := h.col
  simp only at line col
  cases m with
  | left =>
    simp only [step]
    split
    · exact h.mono rfl (Nat.sub_le _ _)
    · exact h
  | right =>
    simp only [step]
    split
    · next before => exact ⟨line, before⟩
    · exact h
  | up =>
    simp only [step]
    split
    · exact ⟨by simp only; omega, Nat.min_le_right _ _⟩
    · exact h
  | down =>
    simp only [step]
    split
    · next below => exact ⟨below, Nat.min_le_right _ _⟩
    · exact h
  | lineStart => exact Page.holds_start line
  | lineEnd => exact holds_endOfLine h
  | nextWordStart =>
    simp only [step]
    split
    · exact holds_wordStart h
    · exact holds_wrap h
  | nextWordEnd =>
    simp only [step]
    split
    · exact holds_wordEnd h
    · exact holds_wrap h

theorem holds_walk (m : Motion) (times : Nat) (h : page.Holds place.pos) :
    page.Holds (m.walk page separators times place).pos := by
  induction times generalizing place with
  | zero => exact h
  | succ times ih =>
    simp only [walk]
    split
    · exact holds_step m h
    · exact ih (holds_step m h)

end Motion

theorem View.holds_reach {view : View} (stride : Stride) (h : view.page.Holds view.caret) :
    view.page.Holds (view.reach stride).pos :=
  Motion.holds_walk stride.motion stride.times h

end ModalEditor
