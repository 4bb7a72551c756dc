import Mathlib.Logic.Function.Iterate
import ModalEditor.Proofs.FreeCaret
import ModalEditor.Proofs.OnPage

/-! # Repeated motions

A motion that is repeated stops at the first step that goes nowhere, which makes no difference.
Between the steps of a count the place may lie past the last cluster of a line. It does not matter
either whether it is pulled back onto that cluster after every step or only after the last one.
-/

namespace ModalEditor

namespace Motion

variable {page : Page} {separators : Separators} {m : Motion} {place : Place}

/-- A step that goes nowhere has settled the column aimed for as well. -/
theorem step_of_pos_eq (h : (m.step page separators place).pos = place.pos) :
    m.step page separators (m.step page separators place) = m.step page separators place := by
  obtain ⟨⟨l, c⟩, aim⟩ := place
  cases m with
  | left =>
    by_cases start : 0 < c
    · simp only [step, start, if_true, Position.mk.injEq, true_and] at h
      omega
    · simp [step, start]
  | right =>
    by_cases inside : c < page.width l
    · simp only [step, inside, if_true, Position.mk.injEq, true_and] at h
      omega
    · simp [step, inside]
  | up =>
    by_cases top : 0 < l
    · simp only [step, top, if_true, Position.mk.injEq] at h
      omega
    · simp [step, top]
  | down =>
    by_cases below : l + 1 < page.length
    · simp only [step, below, if_true, Position.mk.injEq] at h
      omega
    · simp [step, below]
  | lineStart => rfl
  | lineEnd => rfl
  | nextWordStart | nextWordEnd =>
    simp only [step] at h ⊢
    simp only [h]

theorem walk_eq_iterate (m : Motion) (n : Nat) (place : Place) :
    m.walk page separators n place = (m.step page separators)^[n] place := by
  induction n generalizing place with
  | zero => rfl
  | succ n ih =>
    rw [walk, Function.iterate_succ_apply]
    split
    · next stays => exact (Function.iterate_fixed (step_of_pos_eq stays) n).symm
    · exact ih _

/-- Stopping early makes no difference: a motion with a count leads where so many steps lead. -/
theorem run_repeated (page : Page) (separators : Separators) (m : Motion) (n : Nat)
    (place : Place) :
    (m.repeated n).run page separators place = (m.step page separators)^[max n 1] place :=
  walk_eq_iterate m (max n 1) place

end Motion

theorem Page.rests_pullBack_iff {page : Page} {p : Position} (h : p.line < page.length) :
    page.Rests .normal (page.pullBack p) ↔ (page.width p.line = 0 → p.col = 0) := by
  have line := page.line_pullBack p
  constructor
  · rintro ⟨-, rests⟩ blank
    rw [pullBack_of_inside (.inr blank)] at rests
    omega
  · intro start
    refine ⟨line.symm ▸ h, ?_⟩
    rw [line]
    by_cases inside : p.col < page.width p.line ∨ page.width p.line = 0
    · rw [pullBack_of_inside inside]
      omega
    · rw [pullBack_of_past (by omega) (by omega)]
      exact .inl (by simp only; omega)

theorem Page.rests_pullBack {page : Page} {p : Position} (h : page.Holds p) :
    page.Rests .normal (page.pullBack p) := by
  have col := h.col
  exact (rests_pullBack_iff h.line).mpr fun blank => by omega

def Place.pullBack (page : Page) (place : Place) : Place :=
  ⟨page.pullBack place.pos, place.aim⟩

namespace Motion

variable {page : Page} {separators : Separators} {m : Motion} {place : Place}

/-- A motion goes on from the end of a line as it does from the last cluster: to the right the end
is where it goes again, and up and down a column is aimed for. To the left it never gets there. -/
def Forgives (page : Page) (m : Motion) (place : Place) : Prop :=
  page.Holds place.pos ∧
    (0 < page.width place.pos.line → place.pos.col = page.width place.pos.line →
      match m with
      | .left => False
      | .right => place.aim = some (page.width place.pos.line)
      | .up | .down => place.aim ≠ none
      | .lineStart | .lineEnd | .nextWordStart | .nextWordEnd => True)

theorem forgives_of_rests (h : page.Rests .normal place.pos) : m.Forgives page place := by
  refine ⟨h.holds, fun some past => ?_⟩
  rcases h.2 with inside | ⟨blank, -⟩ <;> omega

theorem forgives_step (h : m.Forgives page place) :
    m.Forgives page (m.step page separators place) := by
  refine ⟨holds_step m h.1, ?_⟩
  obtain ⟨⟨line, col⟩, past⟩ := h
  obtain ⟨⟨l, c⟩, aim⟩ := place
  simp only at line col past
  cases m with
  | left =>
    by_cases start : 0 < c
    · simp only [step, start, if_true]
      omega
    · simpa [step, start] using past
  | right =>
    by_cases inside : c < page.width l
    · simp only [step, inside, if_true]
      intro _ ends
      rw [ends]
    · simpa [step, inside] using past
  | up | down => simp [step]
  | lineStart | lineEnd | nextWordStart | nextWordEnd => simp

/-- Past the last cluster of a line a step goes to where it goes from that cluster, once both are
pulled back. -/
theorem step_pullBack_of_end {l : Nat} {aim : Option Nat} (some' : 0 < page.width l)
    (h : m.Forgives page ⟨⟨l, page.width l⟩, aim⟩) :
    (m.step page separators ⟨⟨l, page.width l - 1⟩, aim⟩).pullBack page =
      (m.step page separators ⟨⟨l, page.width l⟩, aim⟩).pullBack page := by
  have pulled : page.pullBack ⟨l, page.width l⟩ = ⟨l, page.width l - 1⟩ :=
    Page.pullBack_of_past some' (Nat.le_refl _)
  have twice : page.pullBack ⟨l, page.width l - 1⟩ = page.pullBack ⟨l, page.width l⟩ := by
    rw [← pulled, Page.pullBack_pullBack]
  have last : page.width l - 1 + 1 = page.width l := Nat.sub_add_cancel some'
  have past := h.2 some' rfl
  cases m with
  | left => exact absurd past id
  | right =>
    obtain rfl : aim = some (page.width l) := past
    simp only [step, last, Nat.sub_lt some' Nat.one_pos, Nat.lt_irrefl, if_true, if_false]
  | up | down =>
    obtain ⟨a, rfl⟩ := Option.ne_none_iff_exists'.mp past
    simp only [step, Option.getD_some, Place.pullBack]
    split
    · rfl
    · rw [twice]
  | lineStart | lineEnd => rfl
  | nextWordStart | nextWordEnd =>
    have beyond : ¬ page.width l + 1 < page.width l := by omega
    simp only [step, last, Nat.lt_irrefl, beyond, if_false, wrap, Place.pullBack]
    split
    · rfl
    · rw [twice]

theorem step_pullBack (h : m.Forgives page place) :
    (m.step page separators (place.pullBack page)).pullBack page =
      (m.step page separators place).pullBack page := by
  obtain ⟨⟨l, c⟩, aim⟩ := place
  have col : c ≤ page.width l := h.1.col
  by_cases inside : c < page.width l ∨ page.width l = 0
  · have same : page.pullBack ⟨l, c⟩ = ⟨l, c⟩ := Page.pullBack_of_inside inside
    simp only [Place.pullBack, same]
  · obtain ⟨rfl, some⟩ : c = page.width l ∧ 0 < page.width l := by omega
    have pulled : Place.pullBack page ⟨⟨l, page.width l⟩, aim⟩ = ⟨⟨l, page.width l - 1⟩, aim⟩ :=
      congrArg (Place.mk · aim) (Page.pullBack_of_past some (Nat.le_refl _))
    rw [pulled]
    exact step_pullBack_of_end some h

theorem forgives_iterate (h : m.Forgives page place) (n : Nat) :
    m.Forgives page ((m.step page separators)^[n] place) := by
  induction n with
  | zero => exact h
  | succ n ih =>
    rw [Function.iterate_succ_apply']
    exact forgives_step ih

/-- One press of the key of a motion: a step, and then back onto the line. -/
def press (page : Page) (separators : Separators) (m : Motion) (place : Place) : Place :=
  (m.step page separators place).pullBack page

theorem rests_press (m : Motion) (h : page.Holds place.pos) :
    page.Rests .normal (m.press page separators place).pos :=
  Page.rests_pullBack (holds_step m h)

theorem rests_iterate_press (m : Motion) (h : page.Rests .normal place.pos) (n : Nat) :
    page.Rests .normal ((m.press page separators)^[n] place).pos := by
  induction n with
  | zero => exact h
  | succ n ih =>
    rw [Function.iterate_succ_apply']
    exact rests_press m ih.holds

/-- Pulling back after every step comes to pulling back once, after the last. -/
theorem iterate_press (h : page.Rests .normal place.pos) (n : Nat) :
    (m.press page separators)^[n] place = ((m.step page separators)^[n] place).pullBack page := by
  induction n with
  | zero =>
    have same : page.pullBack place.pos = place.pos :=
      Page.pullBack_of_inside (h.2.imp_right And.left)
    simp only [Function.iterate_zero_apply, Place.pullBack, same]
  | succ n ih =>
    have forgiven : m.Forgives page ((m.step page separators)^[n] place) :=
      forgives_iterate (forgives_of_rests h) n
    rw [Function.iterate_succ_apply', ih, press, step_pullBack forgiven,
      Function.iterate_succ_apply']

end Motion

end ModalEditor
