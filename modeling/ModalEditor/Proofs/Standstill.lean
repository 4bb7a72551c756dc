import ModalEditor.Proofs.Repetition
import ModalEditor.Proofs.WordMotions

/-! # Counts that are too large

A step of a motion leads nowhere, or it leads on in the one direction that the motion has. So a
motion that is repeated comes to a standstill before it has made as many steps as the page has
positions, and a larger count leads to no other place.
-/

namespace ModalEditor

namespace Page

variable {page : Page} {p q : Position}

/-- The number of lines together with the number of clusters, which is the number of positions: a
line has one position more than clusters. -/
def size (page : Page) : Nat :=
  page.length + page.flatten.length

/-- The number of positions on the page before a position. -/
def rank (page : Page) (p : Position) : Nat :=
  size (page.take p.line) + p.col

theorem size_append (above below : Page) : size (above ++ below) = size above + size below := by
  simp only [size, List.length_append, List.flatten_append]
  omega

theorem size_take_succ {l : Nat} (h : l < page.length) :
    size (page.take (l + 1)) = size (page.take l) + (page.width l + 1) := by
  have line : page[l]? = some (page.line l) := by
    simp [Page.line, h]
  rw [List.take_add_one, line, size_append]
  simp [size, width, Nat.add_comm]

theorem size_take_mono {l l' : Nat} (h : l ≤ l') : size (page.take l) ≤ size (page.take l') := by
  obtain ⟨between, split⟩ := List.take_prefix_take_left (l := page) h
  rw [← split, size_append]
  exact Nat.le_add_right ..

theorem rank_lt_size_take (h : page.Holds p) : page.rank p < size (page.take (p.line + 1)) := by
  rw [size_take_succ h.line]
  exact Nat.add_lt_add_left (Nat.lt_succ_of_le h.col) _

theorem rank_lt_size (h : page.Holds p) : page.rank p < page.size := by
  calc page.rank p < size (page.take (p.line + 1)) := rank_lt_size_take h
    _ ≤ size (page.take page.length) := size_take_mono h.line
    _ = page.size := by rw [List.take_length]

theorem rank_lt_rank (h : page.Holds p) (lt : p < q) : page.rank p < page.rank q := by
  rcases lt with above | ⟨same, cols⟩
  · calc page.rank p < size (page.take (p.line + 1)) := rank_lt_size_take h
      _ ≤ size (page.take q.line) := size_take_mono above
      _ ≤ page.rank q := Nat.le_add_right ..
  · rw [rank, rank, same]
    exact Nat.add_lt_add_left cols _

end Page

namespace Motion

variable {page : Page} {separators : Separators} {m : Motion} {place : Place}

/-- Whether a motion leads on in the text. The other motions lead back. -/
def forward : Motion → Bool
  | left | up | lineStart => false
  | right | down | lineEnd | nextWordStart | nextWordEnd => true

/-- The second position lies ahead of the first in the direction of the motion. -/
def Heads (m : Motion) (p q : Position) : Prop :=
  if m.forward then p < q else q < p

def ahead (page : Page) (m : Motion) (p : Position) : Nat :=
  if m.forward then page.size - 1 - page.rank p else page.rank p

theorem heads_step (h : page.Holds place.pos) :
    (m.step page separators place).pos = place.pos ∨
      m.Heads place.pos (m.step page separators place).pos := by
  obtain ⟨p, aim⟩ := place
  have col : p.col ≤ page.width p.line := h.col
  cases m with
  | left =>
    simp only [step]
    split
    · next after => exact .inr (.inr ⟨rfl, Nat.sub_lt after Nat.one_pos⟩)
    · exact .inl rfl
  | right =>
    simp only [step]
    split
    · exact .inr (.inr ⟨rfl, Nat.lt_succ_self _⟩)
    · exact .inl rfl
  | up =>
    simp only [step]
    split
    · next below => exact .inr (.inl (Nat.sub_lt below Nat.one_pos))
    · exact .inl rfl
  | down =>
    simp only [step]
    split
    · exact .inr (.inl (Nat.lt_succ_self _))
    · exact .inl rfl
  | lineStart =>
    rcases Nat.eq_zero_or_pos p.col with start | after
    · exact .inl (congrArg (Position.mk p.line) start.symm)
    · exact .inr (.inr ⟨rfl, after⟩)
  | lineEnd =>
    rcases Nat.eq_or_lt_of_le col with ends | before
    · exact .inl (congrArg (Position.mk p.line) ends.symm)
    · exact .inr (.inr ⟨rfl, before⟩)
  | nextWordStart =>
    rcases lt_of_meetsEdge h (meetsEdge_nextWordStart page separators p aim) with on | ⟨stays, -⟩
    · exact .inr on
    · exact .inl stays
  | nextWordEnd =>
    rcases lt_of_meetsEdge h (meetsEdge_nextWordEnd page separators p aim) with on | ⟨stays, -⟩
    · exact .inr on
    · exact .inl stays

theorem ahead_lt_size (m : Motion) {p : Position} (h : page.Holds p) :
    m.ahead page p < page.size := by
  have rank := Page.rank_lt_size h
  unfold ahead
  split <;> omega

/-- What lies ahead becomes less with every step that leads anywhere. -/
theorem ahead_step_lt (h : page.Holds place.pos)
    (moves : (m.step page separators place).pos ≠ place.pos) :
    m.ahead page (m.step page separators place).pos < m.ahead page place.pos := by
  have stays : page.Holds (m.step page separators place).pos := holds_step m h
  have heads := (heads_step h).resolve_left moves
  unfold Heads at heads
  unfold ahead
  split
  · next forward =>
    rw [if_pos forward] at heads
    have rank := Page.rank_lt_rank h heads
    have last := Page.rank_lt_size stays
    omega
  · next back =>
    rw [if_neg back] at heads
    exact Page.rank_lt_rank stays heads

/-- No more steps lead anywhere than there are positions ahead. -/
theorem isFixedPt_iterate_step (h : page.Holds place.pos) {n : Nat}
    (enough : m.ahead page place.pos < n) :
    Function.IsFixedPt (m.step page separators) ((m.step page separators)^[n] place) := by
  induction n generalizing place with
  | zero => exact absurd enough (Nat.not_lt_zero _)
  | succ n ih =>
    rw [Function.iterate_succ_apply]
    by_cases stays : (m.step page separators place).pos = place.pos
    · -- The column aimed for may have changed, but it does so no more.
      have settled := step_of_pos_eq stays
      rw [Function.iterate_fixed settled]
      exact settled
    · have less := ahead_step_lt h stays
      exact ih (holds_step m h) (by omega)

/-- A motion has come to a standstill once it was made as often as the page has lines and clusters.
-/
theorem run_repeated_of_size_le (page : Page) (separators : Separators) (m : Motion) (place : Place)
    (h : page.Holds place.pos) (n : Nat) (large : page.size ≤ n) :
    let last := (m.repeated page.size).run page separators place
    (m.repeated n).run page separators place = last ∧ m.step page separators last = last := by
  intro last
  have some : 0 < page.size := Nat.zero_lt_of_lt (Page.rank_lt_size h)
  have run (times : Nat) (pos : 0 < times) : (m.repeated times).run page separators place =
      (m.step page separators)^[times] place := by
    rw [Stride.run, repeated, Nat.max_eq_left pos]
    exact walk_eq_iterate m times place
  have still : Function.IsFixedPt (m.step page separators) last := by
    rw [show last = _ from run page.size some]
    exact isFixedPt_iterate_step h (ahead_lt_size m h)
  refine ⟨?_, still⟩
  obtain ⟨more, rfl⟩ := Nat.exists_eq_add_of_le' large
  rw [run _ (Nat.add_pos_right more some), Function.iterate_add_apply, ← run page.size some]
  exact Function.iterate_fixed still more

theorem run_repeated_of_maxCount :
    let page := Page.ofLines ["a  b..".toList, [], " \t".toList, "e\u0301x".toList]
    (nextWordEnd.repeated maxCount).run page .standard ⟨⟨0, 1⟩, some 3⟩ = ⟨⟨3, 2⟩, none⟩ ∧
      (up.repeated maxCount).run page .standard ⟨⟨3, 2⟩, none⟩ = ⟨⟨0, 2⟩, some 2⟩ := by
  intro page
  have run (m : Motion) (place : Place) (h : page.Holds place.pos) :=
    run_repeated_of_size_le page .standard m place h maxCount (by decide +kernel)
  constructor
  · rw [(run nextWordEnd _ ⟨by decide +kernel, by decide +kernel⟩).1]
    decide +kernel
  · rw [(run up _ ⟨by decide +kernel, by decide +kernel⟩).1]
    decide +kernel

end Motion

end ModalEditor
