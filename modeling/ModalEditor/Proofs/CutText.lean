import ModalEditor.Proofs.Deleting

/-! # What is cut out of a text

Deleting or changing up to where a motion leads takes the text between the two positions out, and
the register keeps just that text. It does not matter in which direction the motion leads, how many
lines it crosses, or in which of two ways their breaks are written.
-/

namespace ModalEditor

namespace Span

variable {a b : Position}

theorem isEmpty_between_self (a : Position) : (between a a).isEmpty = true := by
  simp [between, isEmpty, Position.le_def]

theorem start_lt_stop_between (h : a ≠ b) : (between a b).start < (between a b).stop := by
  apply Position.lt_of_le_of_ne (between_start_le a b)
  unfold between
  split
  · exact h
  · exact h.symm

theorem isEmpty_of_lt {span : Span} (h : span.start < span.stop) : span.isEmpty = false := by
  rw [isEmpty, decide_eq_false_iff_not]
  exact Position.not_le.mpr h

end Span

namespace View

variable {view : View} {dest : Place}

theorem cut_of_eq (h : dest.pos = view.caret) (inserts : Bool) :
    view.cut dest inserts = { aim := dest.aim, inserts } := by
  rw [cut, h, if_pos (Span.isEmpty_between_self view.caret)]

theorem cut_of_ne (h : dest.pos ≠ view.caret) (inserts : Bool) :
    view.cut dest inserts =
      { aim := dest.aim, inserts,
        edit := deletion? (.between view.caret dest.pos),
        register := some (.chars (view.page.slice (.between view.caret dest.pos))),
        caret := some (.at (Span.between view.caret dest.pos).start) } := by
  have some := Span.isEmpty_of_lt (Span.start_lt_stop_between h.symm)
  simp only [cut, deletion?, some, Bool.false_eq_true, if_false]

end View

theorem Command.effect?_take_stride (inserts : Bool) (stride : Stride) (view : View) :
    (Command.take inserts (.stride stride)).effect? view =
      some (view.cut (view.reach stride) inserts) := by
  cases inserts <;> rfl

namespace Session

/-- Deleting or changing up to where a motion leads takes out just the text between, and the
register holds it. -/
theorem register_of_cut (s : Session OpenBuffer) (ready : s.Ready)
    (breaks : s.host.document.text.FeedEnded) (writable : s.host.readOnly = false)
    (keys : Text) (stride : Stride) (inserts : Bool)
    (spelled : TargetKeys keys (.stride stride) inserts)
    (calls : List Text) (flat : calls.flatten = keys) :
    ∃ t, s.Typed calls t ∧ t.engine.pending = [] ∧
      t.engine.mode = (if inserts then .insert else .normal) ∧
      let target := (s.view.reach stride).pos
      (target = s.host.document.caret → t.host = s.host ∧ t.engine.register = s.engine.register) ∧
      (target ≠ s.host.document.caret →
        let span := Span.between s.host.document.caret target
        ∃ above cut below : Text, cut ≠ [] ∧
          s.host.document.text = above ++ cut ++ below ∧
          above = s.host.page.before span.start ∧
          above ++ cut = s.host.page.before span.stop ∧
          t.host.document.text = above ++ below ∧
          t.engine.register = some (.chars cut) ∧
          t.host.document.caret =
            if inserts then span.start else t.host.page.pullBack span.start) := by
  have read := Command.effect?_take_stride inserts stride s.view
  let dest := s.view.reach stride
  by_cases stays : dest.pos = s.view.caret
  · rw [View.cut_of_eq stays] at read
    have typed := typed_target ready spelled read rfl flat
    refine ⟨_, typed, pending_outcome .., by rw [mode_outcome, ready.normal], ?_, ?_⟩
    · intro _
      constructor
      · exact host_outcome_of_none ready rfl
      · exact register_outcome ..
    · intro moves
      exact absurd stays moves
  · rw [View.cut_of_ne stays] at read
    let span := Span.between s.host.document.caret dest.pos
    have caret : s.view.page.Holds s.view.caret := ready.caret.holds
    obtain ⟨start, stop⟩ : s.host.page.Holds span.start ∧ s.host.page.Holds span.stop :=
      Page.holds_between caret (View.holds_reach stride caret)
    have lt : span.start < span.stop := Span.start_lt_stop_between (Ne.symm stays)
    have le : span.start ≤ span.stop := Span.between_start_le ..
    have between := Page.before_append_slice start stop le
    obtain ⟨t, typed, left⟩ :=
      typed_deletion ready breaks writable spelled flat read start stop le rfl rfl
    refine ⟨t, typed, left.pending, left.mode, ?_, ?_⟩
    · intro same
      exact absurd same stays
    · intro _
      refine ⟨_, s.host.page.slice span, _, ?_, ?_, rfl, between, left.text, left.register,
        left.caret⟩
      · exact Page.slice_ne_nil (Document.not_mem_line_page _) start stop lt
      · rw [between, ← Document.text_page breaks]
        exact (Page.before_append_after stop.line).symm

theorem register_of_cut_upwards :
    let s : Session OpenBuffer :=
      ⟨.ofConfig {}, .ofText "first\r\nnext\r\nlast".toList ⟨2, 3⟩⟩
    ∃ t, s.Typed ["2".toList, "dk".toList] t ∧ t.engine.mode = .normal ∧
      t.host.document = ⟨"firt".toList, ⟨0, 3⟩⟩ ∧
      t.engine.register = some (.chars "st\r\nnext\r\nlas".toList) := by
  intro s
  obtain ⟨t, typed, -, mode, -, moved⟩ := register_of_cut s ⟨rfl, rfl, by decide⟩ (by decide) rfl
    _ _ false (.motion (.digit .nothing rfl) .nothing rfl rfl) ["2".toList, "dk".toList] rfl
  obtain ⟨above, cut, below, -, whole, start, stop, text, register, caret⟩ := moved (by decide)
  obtain rfl : above = "fir".toList := start.trans (by decide)
  have upTo : "fir".toList ++ cut = "fir".toList ++ "st\r\nnext\r\nlas".toList :=
    stop.trans (by decide)
  obtain rfl := List.append_cancel_left upTo
  have rest : "first\r\nnext\r\nlas".toList ++ below = "first\r\nnext\r\nlas".toList ++ ['t'] :=
    whole.symm
  obtain rfl := List.append_cancel_left rest
  have page : t.host.page = [clusters "firt".toList] := by
    rw [OpenBuffer.page, Document.page, text]
    decide
  rw [page] at caret
  have stands : t.host.document.caret = ⟨0, 3⟩ := caret.trans (by decide)
  refine ⟨t, typed, mode, ?_, register⟩
  rw [← stands]
  exact congrArg (Document.mk · _) text

end Session

end ModalEditor
