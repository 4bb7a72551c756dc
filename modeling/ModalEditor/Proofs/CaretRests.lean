import ModalEditor.Proofs.Soundness
import ModalEditor.Script

/-! # Where the caret rests

Over a text that only line feeds break, every step of a script leaves the caret where the mode lets
it rest, also a step that fails.
-/

namespace ModalEditor

open Session

/-- The steps that leave the text broken by line feeds alone: calls that type no other break and
replace nothing by a line feed, and refusals. Nobody but the engine moves the caret. -/
def Step.Tame (step : Step) (s : Session Recorder) : Prop :=
  match step with
  | typeText text => text.OnlyFeeds ∧ NoFeedReplaces (clusters text) s
  | retype text _ => text.OnlyFeeds
  | toNormalMode | clearInput | settle | setSeparators _ | lock _ | planRefusal _ => True
  | operate .. | moveCaret _ | select _ | hideLines _ => False

instance (step : Step) (s : Session Recorder) : Decidable (step.Tame s) :=
  match step with
  | .typeText _ => inferInstanceAs (Decidable (_ ∧ _))
  | .retype text _ => inferInstanceAs (Decidable text.OnlyFeeds)
  | .toNormalMode | .clearInput | .settle | .setSeparators _ | .lock _ | .planRefusal _ =>
    .isTrue trivial
  | .operate .. | .moveCaret _ | .select _ | .hideLines _ => .isFalse id

def TameScript : List Step → Session Recorder → Prop
  | [], _ => True
  | step :: rest, s =>
    let s' := { s with host := { s.host with edits := [] } }
    step.Tame s' ∧ TameScript rest (step.run s').2

instance TameScript.decidable :
    (steps : List Step) → (s : Session Recorder) → Decidable (TameScript steps s)
  | [], _ => .isTrue trivial
  | step :: rest, s =>
    have := decidable rest (step.run { s with host := { s.host with edits := [] } }).2
    inferInstanceAs (Decidable (_ ∧ _))

namespace Session

variable {s : Session Recorder}

theorem Sound.typeText {text : Text} (h : s.Sound) (clean : text.OnlyFeeds)
    (spared : NoFeedReplaces (clusters text) s) :
    (s.typeText text).1 ≠ .error .crossed ∧ (s.typeText text).2.Sound := by
  refine EndsWell.finish (h.feed ?_ ?_ spared)
  · intro g hg
    exact clusters_of_mem hg
  · rw [← flatten_clusters text] at clean
    exact Text.onlyFeeds_flatten.mp clean

theorem Sound.retype {text : Text} (count : Nat) (h : s.Sound) (clean : text.OnlyFeeds) :
    (s.retype text count).1 ≠ .error .crossed ∧ (s.retype text count).2.Sound := by
  unfold Session.retype
  cases hm : s.engine.mode with
  | normal => exact EndsWell.finish (show EndsWell (none, s) from h)
  | insert => exact EndsWell.finish (h.typed hm (h.types_retype count clean))

theorem Sound.toNormalMode (h : s.Sound) : s.toNormalMode.2.Sound := by
  have settling : Settling { s with engine := s.engine.enter .normal } := by
    refine ⟨⟨h.engine.enter .normal, h.text, h.free, h.shown⟩, h.caret.holds.settles, ?_⟩
    intro _
    exact h.caret.holds
  exact settling.sound_settle.announce

theorem Sound.clearInput (h : s.Sound) : s.clearInput.2.Sound := by
  have dropped : Sound { s with engine := s.engine.clearPending } :=
    h.of_same (h.engine.dropped rfl rfl) rfl rfl rfl rfl
  exact dropped.announce

end Session

theorem Answer.ofReply_ne_crossed {reply : Reply} (h : reply ≠ .error .crossed) :
    Answer.ofReply reply ≠ .failure .crossed := by
  intro crossed
  cases reply with
  | ok signals => cases crossed
  | error why =>
    apply h
    rw [Answer.failure.inj crossed]

theorem Step.sound_run {step : Step} {s : Session Recorder} (h : s.Sound) (tame : step.Tame s) :
    (step.run s).1 ≠ .failure .crossed ∧ (step.run s).2.Sound := by
  cases step with
  | typeText text =>
    obtain ⟨answer, sound⟩ := h.typeText tame.1 tame.2
    exact ⟨Answer.ofReply_ne_crossed answer, sound⟩
  | retype text count =>
    obtain ⟨answer, sound⟩ := h.retype count tame
    exact ⟨Answer.ofReply_ne_crossed answer, sound⟩
  | toNormalMode => exact ⟨nofun, h.toNormalMode⟩
  | clearInput => exact ⟨nofun, h.clearInput⟩
  | settle => exact ⟨nofun, h.settling.sound_settle⟩
  | setSeparators separators =>
    exact ⟨nofun, h.of_same ⟨h.engine.pending, h.engine.register⟩ rfl rfl rfl rfl⟩
  | lock on => exact ⟨nofun, h.of_same h.engine rfl rfl rfl rfl⟩
  | planRefusal planned => exact ⟨nofun, h.of_same h.engine rfl rfl rfl rfl⟩
  | operate | moveCaret | select | hideLines => exact absurd tame id

theorem sound_runScript {steps : List Step} {s : Session Recorder} (h : s.Sound)
    (tame : TameScript steps s) :
    ∀ result ∈ runScript steps s, result.1 ≠ .failure .crossed ∧ result.2.Sound := by
  induction steps generalizing s with
  | nil =>
    intro result hr
    cases hr
  | cons step rest ih =>
    obtain ⟨first, later⟩ := tame
    have fresh : Sound { s with host := { s.host with edits := [] } } :=
      h.of_same h.engine rfl rfl rfl rfl
    obtain ⟨answer, sound⟩ := Step.sound_run fresh first
    intro result hr
    rcases List.mem_cons.mp hr with rfl | hr
    · exact ⟨answer, sound⟩
    · exact ih sound later result hr

/-- After every step of every tame script, whether it succeeds or fails, the caret rests on the
page. -/
theorem runScript_rests (engine : Engine) (host : Recorder) (steps : List Step)
    (clean : engine.Clean) (text : host.buffer.document.text.OnlyFeeds)
    (free : host.buffer.selection = false) (shown : host.hidesLines = false)
    (caret : (Host.page host).Rests engine.mode (Host.caret host))
    (tame : TameScript steps ⟨engine, host⟩) :
    ∀ result ∈ runScript steps ⟨engine, host⟩, result.1 ≠ .failure .crossed ∧
      (Host.page result.2.host).Rests result.2.engine.mode (Host.caret result.2.host) := by
  have sound : Sound ⟨engine, host⟩ := ⟨⟨clean, text, free, shown⟩, caret⟩
  intro result hr
  obtain ⟨answer, sound⟩ := sound_runScript sound tame result hr
  exact ⟨answer, sound.caret⟩

theorem runScript_rests_of_merged_lines :
    let host : Recorder := { buffer := .ofText "ae\n\u0301".toList .zero }
    let steps : List Step := [.typeText "ldw3p".toList, .planRefusal ⟨0, .readOnly⟩,
      .typeText "0x".toList, .typeText "A".toList, .typeText "b\nc".toList, .retype "d".toList 1,
      .toNormalMode, .typeText "rz\nddp".toList]
    .failure (.refused .readOnly) ∈ (runScript steps ⟨.ofConfig {}, host⟩).map Prod.fst ∧
      ∀ result ∈ runScript steps ⟨.ofConfig {}, host⟩, result.1 ≠ .failure .crossed ∧
        (Host.page result.2.host).Rests result.2.engine.mode (Host.caret result.2.host) :=
  ⟨by decide, runScript_rests _ _ _ (Engine.clean_ofConfig {}) (by decide) rfl rfl (by decide)
    (by decide)⟩

end ModalEditor
