import ModalEditor.Proofs.Pressing
import ModalEditor.Proofs.Recording

/-! # Hosts with a free caret

On a host that puts its caret wherever it is told, settling pulls the caret back once and for all.
-/

namespace ModalEditor

/-- Moving the caret puts it where it is told and ends a selection. It changes nothing else. -/
class FreeCaret (β : Type) [Host β] : Prop where
  caret_moveCaret : ∀ (p : Position) (host : β), Host.caret (Host.moveCaret p host) = p
  page_moveCaret : ∀ (p : Position) (host : β), Host.page (Host.moveCaret p host) = Host.page host
  hasSelection_moveCaret : ∀ (p : Position) (host : β),
    Host.hasSelection (Host.moveCaret p host) = false
  moveCaret_moveCaret : ∀ (p q : Position) (host : β),
    Host.moveCaret p (Host.moveCaret q host) = Host.moveCaret p host

attribute [simp] FreeCaret.caret_moveCaret FreeCaret.page_moveCaret
  FreeCaret.hasSelection_moveCaret FreeCaret.moveCaret_moveCaret

instance : FreeCaret OpenBuffer where
  caret_moveCaret _ _ := rfl
  page_moveCaret _ _ := rfl
  hasSelection_moveCaret _ _ := rfl
  moveCaret_moveCaret _ _ _ := rfl

instance : FreeCaret Recorder where
  caret_moveCaret _ _ := rfl
  page_moveCaret _ _ := rfl
  hasSelection_moveCaret _ _ := Bool.and_false _
  moveCaret_moveCaret _ _ _ := rfl

/-- Where normal mode pulls a caret back to: from past the last cluster of a line onto it. -/
def Page.pullBack (page : Page) (p : Position) : Position :=
  if 0 < page.width p.line ∧ page.width p.line ≤ p.col then ⟨p.line, page.width p.line - 1⟩ else p

namespace Page

variable {page : Page} {p : Position}

theorem pullBack_of_past (some : 0 < page.width p.line) (past : page.width p.line ≤ p.col) :
    page.pullBack p = ⟨p.line, page.width p.line - 1⟩ :=
  if_pos ⟨some, past⟩

theorem pullBack_of_inside (h : p.col < page.width p.line ∨ page.width p.line = 0) :
    page.pullBack p = p := by
  apply if_neg
  omega

theorem pullBack_zero (page : Page) (l : Nat) : page.pullBack ⟨l, 0⟩ = ⟨l, 0⟩ := by
  apply pullBack_of_inside
  simp only
  omega

theorem pullBack_min (page : Page) (l col : Nat) :
    page.pullBack ⟨l, min col (page.width l)⟩ = ⟨l, min col (max (page.width l) 1 - 1)⟩ := by
  unfold pullBack
  simp only
  split
  · rw [Position.mk.injEq]
    omega
  · rw [Position.mk.injEq]
    omega

theorem line_pullBack (page : Page) (p : Position) : (page.pullBack p).line = p.line := by
  unfold pullBack
  split <;> rfl

theorem pullBack_pullBack (page : Page) (p : Position) :
    page.pullBack (page.pullBack p) = page.pullBack p := by
  apply pullBack_of_inside
  rw [line_pullBack]
  unfold pullBack
  split
  · simp only
    omega
  · omega

end Page

namespace Session

variable {β : Type} [Host β] [FreeCaret β] {s : Session β}

theorem settle_settle (s : Session β) : s.settle.settle = s.settle := by
  by_cases h : s.Overhangs
  · apply settle_of_not_overhangs
    rw [settle_of_overhangs h]
    rintro ⟨-, wide, past⟩
    simp only [FreeCaret.caret_moveCaret, FreeCaret.page_moveCaret] at wide past
    omega
  · rw [settle_of_not_overhangs h, settle_of_not_overhangs h]

/-- After the caret was moved in normal mode, settling is moving it to where it is pulled back. -/
theorem settle_moveCaret (engine : Engine) (normal : engine.mode = .normal) (p : Position)
    (host : β) :
    (⟨engine, Host.moveCaret p host⟩ : Session β).settle =
      ⟨engine, Host.moveCaret ((Host.page host).pullBack p) host⟩ := by
  unfold settle Page.pullBack
  simp only [normal, FreeCaret.hasSelection_moveCaret, FreeCaret.caret_moveCaret,
    FreeCaret.page_moveCaret, FreeCaret.moveCaret_moveCaret, and_self, if_true]
  split <;> rfl

end Session

end ModalEditor
