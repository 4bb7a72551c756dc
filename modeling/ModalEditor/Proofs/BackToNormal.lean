import ModalEditor.Proofs.FreeCaret
import ModalEditor.Proofs.PendingKeys

/-! # Back to normal mode

The call that goes back to normal mode is a switch of the mode, and in normal mode there is nothing
to switch. So it drops no keys: those that are pending stay so, and the text that is typed next is
read after them. All else is as after the same call with nothing pending.
-/

namespace ModalEditor

namespace Engine

variable {keyed : Prop} {engine : Engine}

theorem status_of_idle (normal : engine.mode = .normal) (idle : engine.pending = []) :
    engine.status = "VIM:> -- NORMAL --".toList := by
  obtain ⟨mode, pending⟩ := engine
  obtain rfl : mode = .normal := normal
  obtain rfl : pending = [] := idle
  rfl

theorem pending_enter_normal (orderly : engine.Orderly keyed) :
    (engine.enter .normal).pending = engine.pending := by
  cases hm : engine.mode with
  | normal => simp [enter, hm]
  | insert => simp [enter, hm, orderly.idle hm]

theorem told_enter_normal (orderly : engine.Orderly keyed) :
    (engine.enter .normal).told =
      ((engine.clearPending.enter .normal).told.extend engine.pending).told := by
  cases hm : engine.mode with
  | normal => simp [enter, clearPending, extend, told, style, context, hm]
  | insert => simp [enter, clearPending, extend, told, style, context, hm, orderly.idle hm]

end Engine

namespace Session

variable {β : Type} [Host β] {keyed : Prop} {s : Session β} {keys : Text}

def withoutKeys (s : Session β) : Session β :=
  { s with engine := s.engine.clearPending }

theorem engine_toNormalMode (s : Session β) :
    s.toNormalMode.2.engine = (s.engine.enter .normal).told := by
  simp only [toNormalMode, announce, engine_settle]

theorem host_toNormalMode (s : Session β) :
    s.toNormalMode.2.host =
      (({ s with engine := s.engine.enter .normal } : Session β).settle).host := rfl

theorem host_toNormalMode_withoutKeys (s : Session β) :
    s.withoutKeys.toNormalMode.2.host = s.toNormalMode.2.host := by
  have same : (s.engine.clearPending.enter .normal).mode = (s.engine.enter .normal).mode := by
    rw [Engine.mode_enter, Engine.mode_enter]
  let entered : Session β := { s with engine := s.engine.enter .normal }
  have kept := congrArg Session.host (entered.settle_with same)
  exact kept

theorem mode_toNormalMode (s : Session β) : s.toNormalMode.2.engine.mode = .normal := by
  rw [engine_toNormalMode]
  exact Engine.mode_enter ..

theorem pending_toNormalMode (orderly : s.engine.Orderly keyed) :
    s.toNormalMode.2.engine.pending = s.engine.pending := by
  rw [engine_toNormalMode]
  exact Engine.pending_enter_normal orderly

theorem pending_withoutKeys (s : Session β) :
    s.withoutKeys.toNormalMode.2.engine.pending = [] := by
  rw [engine_toNormalMode, Engine.enter]
  split <;> rfl

theorem status_withoutKeys (s : Session β) :
    s.withoutKeys.toNormalMode.2.engine.status = "VIM:> -- NORMAL --".toList :=
  Engine.status_of_idle (mode_toNormalMode _) (pending_withoutKeys s)

theorem register_toNormalMode (s : Session β) :
    s.toNormalMode.2.engine.register = s.engine.register := by
  rw [engine_toNormalMode, Engine.enter]
  split <;> rfl

section FreeCaret

variable [FreeCaret β]

theorem settle_toNormalMode (s : Session β) : s.toNormalMode.2.settle = s.toNormalMode.2 := by
  unfold toNormalMode
  rw [settle_announce, settle_settle]

theorem typeText_of_unfinished (normal : s.engine.mode = .normal) (idle : s.engine.pending = [])
    (settled : s.settle = s) (h : Keys.Unfinished keys) :
    (s.typeText keys).2 = ⟨(s.engine.extend keys).told, s.host⟩ := by
  obtain ⟨r, reads⟩ := Keys.exists_reads h
  have taken := interprets_keys_of_settled normal idle settled reads
  rw [← clusters_of_plain (KeyReader.plain_of_reads reads)] at taken
  rw [taken.typeText (taken.settled settled)]
  rfl

/-- The keys that are pending when a session goes back to normal mode count as typed after that. -/
theorem toNormalMode_eq_typeText (orderly : s.engine.Orderly keyed) :
    s.toNormalMode.2 = (s.withoutKeys.toNormalMode.2.typeText s.engine.pending).2 := by
  have engine : s.toNormalMode.2.engine =
      (s.withoutKeys.toNormalMode.2.engine.extend s.engine.pending).told := by
    rw [engine_toNormalMode, engine_toNormalMode]
    exact Engine.told_enter_normal orderly
  rw [typeText_of_unfinished (mode_toNormalMode _) (pending_withoutKeys _) (settle_toNormalMode _)
    orderly.unfinished, host_toNormalMode_withoutKeys, ← engine]

theorem caret_toNormalMode (s : Session β) :
    Host.caret s.toNormalMode.2.host =
      if Host.hasSelection s.host then Host.caret s.host
      else (Host.page s.host).pullBack (Host.caret s.host) := by
  have mode : (s.engine.enter .normal).mode = .normal := Engine.mode_enter ..
  rw [host_toNormalMode, settle]
  cases hs : Host.hasSelection s.host with
  | true => simp
  | false =>
    simp only [mode, and_self, if_true, Bool.false_eq_true, if_false, Page.pullBack]
    split
    · exact FreeCaret.caret_moveCaret ..
    · rfl

end FreeCaret

theorem host_toNormalMode_cases (s : Session β) :
    s.toNormalMode.2.host = s.host ∨ ∃ p, s.toNormalMode.2.host = Host.moveCaret p s.host := by
  rw [host_toNormalMode]
  exact host_settle_cases _

/-- Going back to normal mode keeps the pending keys: all that comes later is as if they had been
typed after it. -/
theorem toNormalMode_keeps_keys (config : Config) (host : Recorder)
    (events : List (Event Recorder)) :
    let s := afterEvents events ⟨.ofConfig config, host⟩
    let t := s.toNormalMode.2
    let idle := s.withoutKeys.toNormalMode.2
    t.engine.mode = .normal ∧ t.engine.register = s.engine.register ∧
      t.host.buffer.document.text = s.host.buffer.document.text ∧ t.host.edits = s.host.edits ∧
      Host.caret t.host = (if Host.hasSelection s.host then Host.caret s.host
        else (Host.page s.host).pullBack (Host.caret s.host)) ∧
      t.engine.pending = s.engine.pending ∧ idle.engine.pending = [] ∧
      idle.engine.status = "VIM:> -- NORMAL --".toList ∧
      t = (idle.typeText s.engine.pending).2 ∧ (s.engine.pending = [] → t = idle) := by
  intro s t idle
  have orderly : s.engine.Orderly False :=
    orderly_afterEvents config host fun _ _ _ _ => not_false
  have kept : t.host.buffer.document.text = s.host.buffer.document.text ∧
      t.host.edits = s.host.edits := by
    rcases s.host_toNormalMode_cases with same | ⟨p, moved⟩
    · rw [same]
      exact ⟨rfl, rfl⟩
    · rw [moved]
      exact ⟨rfl, rfl⟩
  refine ⟨mode_toNormalMode s, register_toNormalMode s, kept.1, kept.2, caret_toNormalMode s,
    pending_toNormalMode orderly, pending_withoutKeys s, status_withoutKeys s,
    toNormalMode_eq_typeText orderly, ?_⟩
  intro none
  have same : s.withoutKeys = s := by
    rw [withoutKeys, Engine.clearPending, ← none]
  exact congrArg (fun s => s.toNormalMode.2) same.symm

/-- The key of a deletion outlives the call, and the motion that follows has a word deleted. -/
theorem deletion_after_toNormalMode :
    let s := afterEvents [.typeText "d".toList]
      ⟨.ofConfig {}, ({ buffer := .ofText "abc def".toList .zero } : Recorder)⟩
    let t := s.toNormalMode.2
    let idle := s.withoutKeys.toNormalMode.2
    t.engine.pending = "d".toList ∧ t.engine.status = "VIM:>d".toList ∧
      (t.typeText "w".toList).2.host.buffer.document.text = "def".toList ∧
      (idle.typeText "w".toList).2.host.buffer.document.text = "abc def".toList := by
  decide +kernel

end Session

end ModalEditor
