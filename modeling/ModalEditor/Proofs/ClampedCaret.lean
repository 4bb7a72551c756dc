import ModalEditor.Proofs.ShownLines
import ModalEditor.Proofs.StaleCaret

/-! # A clamped caret

A host that pulls its caret into the text has it on a line at any time, whatever the text and
however its lines end. No stride climbs back from there, so the host makes every edit that it is
asked for and no call fails.
-/

namespace ModalEditor

namespace Document

theorem line_locate_lt {lines : List Text} (some : lines ≠ []) (n : Nat) :
    (locate lines n).line < lines.length := by
  fun_induction locate lines n with
  | case1 => exact absurd rfl some
  | case2 => exact Nat.one_pos
  | case3 => exact Nat.succ_pos _
  | case4 n line rest more _ p ih => exact Nat.succ_lt_succ (ih more)

end Document

namespace ClampedBuffer

variable {b : ClampedBuffer}

def OnLine (b : ClampedBuffer) : Prop :=
  b.document.caret.line < b.page.length

theorem onLine_moveCaret (p : Position) (b : ClampedBuffer) : (Host.moveCaret p b).OnLine :=
  Page.clamp_line_lt (b.document.page_ne_nil Text.dropReturns) p

theorem onLine_enter (start stop : Nat) (new : Text) (d : Document) :
    OnLine ⟨d.enter start stop new⟩ := by
  unfold OnLine page
  rw [Document.length_page]
  exact Document.line_locate_lt (Text.lines_ne_nil _) _

end ClampedBuffer

/-! ## Commands -/

namespace View

variable {view : View}

theorem not_climbsBack_of_onPage (view : View) (onPage : view.caret.line < view.page.length)
    (command : Command) : ¬ command.ClimbsBack view := by
  rintro ⟨-, stride, -, climbs⟩
  have below := climbs.below
  rw [Page.lastLine] at below
  omega

theorem exists_landing_put (register : Register) (count : Nat) :
    ∃ landing, (view.put register count).caret = some landing := by
  cases register <;> exact ⟨_, rfl⟩

theorem exists_landing_cut {dest : Place} {inserts : Bool} {edit : Edit}
    (hedit : (view.cut dest inserts).edit = some edit) :
    ∃ landing, (view.cut dest inserts).caret = some landing := by
  by_cases stays : dest.pos = view.caret
  · rw [cut_of_eq stays] at hedit
    cases hedit
  · rw [cut_of_ne stays]
    exact ⟨_, rfl⟩

end View

theorem Command.exists_landing {command : Command} {view : View} {effect : Effect} {edit : Edit}
    (he : command.effect? view = some effect) (hedit : effect.edit = some edit) :
    ∃ landing, effect.caret = some landing := by
  cases command with
  | move _ | append | appendAtEnd =>
    cases he
    exact ⟨_, rfl⟩
  | insert =>
    cases he
    cases hedit
  | delete target | change target =>
    cases target with
    | stride stride =>
      cases he
      exact View.exists_landing_cut hedit
    | lines count =>
      obtain ⟨lines, -, rfl⟩ := Option.map_eq_some_iff.mp he
      exact ⟨_, rfl⟩
  | put count =>
    obtain ⟨register, -, -, -, rfl⟩ := of_effect?_put he
    exact View.exists_landing_put ..
  | replace g count =>
    obtain ⟨-, rfl⟩ := of_effect?_replace he
    exact ⟨_, rfl⟩

namespace Session

variable {s t : Session ClampedBuffer} {g : Cluster} {failure : Option Failure}

theorem exists_made {command : Command} {effect : Effect} {edit : Edit} (onLine : s.host.OnLine)
    (he : command.effect? s.view = some effect) (hedit : effect.edit = some edit) :
    ∃ host, Host.perform edit s.host = (none, host) := by
  cases made : s.host.document.edit Text.dropReturns ClampedBuffer.reach edit with
  | ok d => exact ⟨⟨d⟩, ClampedBuffer.perform_of_made made⟩
  | error why =>
    obtain ⟨span, removes, lt⟩ := Document.removed_of_crossed made
    obtain ⟨le, crosses⟩ := Command.crosses_iff he hedit removes
    have straight : ¬ s.view.page.Crosses span :=
      crosses.not.mpr (s.view.not_climbsBack_of_onPage onLine command)
    obtain ⟨kept, -⟩ :=
      (Page.clamp_le_or_crosses le).resolve_right fun crossed => straight crossed.1
    have order : s.host.document.offset Text.dropReturns span.start ≤
        s.host.document.offset Text.dropReturns span.stop :=
      Document.offset_le_of_clamp_le Text.length_dropReturns_le kept
    exact absurd lt (Nat.not_lt.mpr order)

theorem onLine_settle (onLine : s.host.OnLine) : s.settle.host.OnLine := by
  rcases s.host_settle_cases with same | ⟨p, moved⟩
  · rwa [same]
  · rw [moved]
    exact ClampedBuffer.onLine_moveCaret ..

/-- A cluster never fails in normal mode, and the host is left as it was or with its caret moved. -/
theorem Pressed.host_cases (onLine : s.host.OnLine) (pressed : s.Pressed g failure t) :
    failure = none ∧ (t.host = s.host ∨ ∃ p b, t.host = Host.moveCaret p b) := by
  cases pressed with
  | waits _ ht | unread _ ht | unable _ _ ht =>
    subst ht
    exact ⟨rfl, .inl rfl⟩
  | @unedited _ _ effect _ _ _ ht =>
    subst ht
    refine ⟨rfl, ?_⟩
    rw [host_carryOut]
    cases effect.caret with
    | none => exact .inl rfl
    | some landing => exact .inr ⟨_, _, rfl⟩
  | @edited _ _ _ _ host _ he hedit _ ht =>
    subst ht
    obtain ⟨landing, lands⟩ := Command.exists_landing he hedit
    refine ⟨rfl, .inr ⟨landing.position, host, ?_⟩⟩
    rw [host_carryOut, lands]
  | refused _ he hedit refused _ =>
    obtain ⟨host, made⟩ := exists_made onLine he hedit
    cases refused.symm.trans made

theorem Pressed.onLine (onLine : s.host.OnLine) (pressed : s.Pressed g failure t) :
    failure = none ∧ t.host.OnLine := by
  obtain ⟨fine, same | ⟨p, b, moved⟩⟩ := pressed.host_cases onLine
  · exact ⟨fine, same ▸ onLine⟩
  · exact ⟨fine, moved ▸ ClampedBuffer.onLine_moveCaret p b⟩

theorem onLine_feed (gs : List Cluster) (onLine : s.host.OnLine) :
    ∃ t, s.feed gs = (none, t) ∧ t.host.OnLine := by
  induction gs generalizing s with
  | nil => exact ⟨s, rfl, onLine⟩
  | cons g gs ih =>
    cases hm : s.engine.mode with
    | insert =>
      refine ⟨_, feed_cons_of_insert gs hm, ?_⟩
      exact ClampedBuffer.onLine_enter ..
    | normal =>
      rcases hp : s.press g with ⟨failure, t⟩
      obtain ⟨rfl, stays⟩ := (Pressed.of_eq hp).onLine onLine
      rw [feed_cons_of_pressed gs hm hp]
      exact ih (onLine_settle stays)

end Session

end ModalEditor
