import ModalEditor.Proofs.Fitting
import ModalEditor.Proofs.ReadCommands
import ModalEditor.Proofs.Refusal

/-! # Edits within the page

Every edit that a command asks for lies within the page as it is when the edit is asked for, over
any text and with any register, remembered column and pending keys, as long as the caret is on the
page. Spans are never empty and never the wrong way round.
-/

namespace ModalEditor

/-- The edit of a command lies within the page. Native typing is never asked for by a command. -/
inductive Edit.Within (page : Page) : Edit → Prop
  | delete {span : Span} : span.start < span.stop → page.Holds span.start → page.Holds span.stop →
      Within page (.delete span)
  | insert {pos : Position} {copies : Copies} : page.Holds pos → Within page (.insert pos copies)
  | replace {span : Span} {copies : Copies} : span.start.line = span.stop.line →
      span.start < span.stop → page.Holds span.start → page.Holds span.stop →
      Within page (.replace span copies)

/-! ## Effects -/

namespace View

variable {view : View} {edit : Edit}

theorem within_deletion? {page : Page} {span : Span} (h : deletion? span = some edit)
    (start : page.Holds span.start) (stop : page.Holds span.stop) : edit.Within page := by
  unfold deletion? at h
  split at h
  · cases h
  · next wide =>
    obtain rfl := Option.some.inj h
    refine .delete ?_ start stop
    rw [Span.isEmpty, decide_eq_true_iff] at wide
    exact Position.not_le.mp wide

theorem within_cut {dest : Place} {inserts : Bool} (h : view.page.Holds view.caret)
    (hd : view.page.Holds dest.pos) (he : (view.cut dest inserts).edit = some edit) :
    edit.Within view.page := by
  obtain ⟨start, stop⟩ := Page.holds_between h hd
  rw [edit_cut] at he
  exact within_deletion? he start stop

theorem within_cutLines {lines : Lines}
    (h : lines.first ≤ lines.last ∧ lines.last < view.page.length)
    (he : (view.cutLines lines).edit = some edit) : edit.Within view.page := by
  obtain ⟨start, stop, -⟩ := removal_bounds h
  exact within_deletion? he start stop

theorem within_clearLines {lines : Lines}
    (h : lines.first ≤ lines.last ∧ lines.last < view.page.length)
    (he : (view.clearLines lines).edit = some edit) : edit.Within view.page := by
  apply within_deletion? he
  · exact ⟨Nat.lt_of_le_of_lt h.1 h.2, Nat.zero_le _⟩
  · exact ⟨h.2, Nat.le_refl _⟩

theorem within_put {register : Register} {count : Nat} (h : view.page.Holds view.caret)
    (he : (view.put register count).edit = some edit) : edit.Within view.page := by
  have line := h.line
  cases register with
  | chars text =>
    cases he
    exact .insert ⟨line, Nat.min_le_right _ _⟩
  | lines text =>
    obtain rfl := Option.some.inj he
    unfold Page.lastLine
    split
    · next above =>
      refine .insert ⟨?_, Nat.zero_le _⟩
      simp only
      omega
    · refine .insert ⟨?_, Nat.le_refl _⟩
      simp only
      omega

theorem within_replace {g : Cluster} {count : Nat} {effect : Effect}
    (h : view.page.Holds view.caret) (pos : count ≠ 0)
    (hr : (Command.replace g count).effect? view = some effect) (he : effect.edit = some edit) :
    edit.Within view.page := by
  obtain ⟨enough, rfl⟩ := Command.of_effect?_replace hr
  cases he
  refine .replace rfl (.inr ⟨rfl, ?_⟩) h ⟨h.line, enough⟩
  exact Nat.lt_add_of_pos_right (Nat.pos_of_ne_zero pos)

end View

theorem Command.within {command : Command} {view : View} {effect : Effect} {edit : Edit}
    (h : view.page.Holds view.caret) (pos : ∀ g n, command = .replace g n → n ≠ 0)
    (he : command.effect? view = some effect) (hedit : effect.edit = some edit) :
    edit.Within view.page := by
  cases command with
  | move _ | insert | append | appendAtEnd =>
    cases he
    cases hedit
  | delete target =>
    cases target with
    | stride stride =>
      cases he
      exact View.within_cut h (View.holds_reach stride h) hedit
    | lines count =>
      obtain ⟨lines, hl, rfl⟩ := Option.map_eq_some_iff.mp he
      exact View.within_cutLines (View.lines?_bounds hl) hedit
  | change target =>
    cases target with
    | stride stride =>
      cases he
      exact View.within_cut h (View.holds_reach stride h) hedit
    | lines count =>
      obtain ⟨lines, hl, rfl⟩ := Option.map_eq_some_iff.mp he
      exact View.within_clearLines (View.lines?_bounds hl) hedit
  | put count =>
    obtain ⟨register, -, -, -, rfl⟩ := of_effect?_put he
    exact View.within_put h hedit
  | replace g count => exact View.within_replace h (pos g count rfl) he hedit

namespace Session

/-- With the caret on the page, a cluster has the host make one edit at most, and on that page. -/
theorem edits_within_page (s : Session Recorder) (g : Cluster)
    (caret : (Host.page s.host).Holds (Host.caret s.host)) :
    (s.press g).2.host.edits = s.host.edits ∨
      ∃ edit, (s.press g).2.host.edits = s.host.edits ++ [edit] ∧
        (Host.perform edit s.host).1 = (s.press g).1 ∧ edit.Within (Host.page s.host) := by
  have within : ∀ {command effect edit}, s.reading g = .complete command →
      command.effect? s.view = some effect → effect.edit = some edit →
      edit.Within (Host.page s.host) := by
    intro command effect edit hr he hedit
    refine Command.within caret ?_ he hedit
    rintro g' n rfl
    exact Nat.ne_of_gt (Keys.counted hr)
  rcases hp : s.press g with ⟨failure, t⟩
  cases Pressed.of_eq hp with
  | waits _ ht | unread _ ht | unable _ _ ht => exact .inl (by rw [ht])
  | unedited _ _ _ ht => exact .inl (by rw [ht, edits_carryOut])
  | @edited _ _ _ edit host hr he hedit made ht =>
    refine .inr ⟨edit, ?_, by rw [made], within hr he hedit⟩
    rw [ht, edits_carryOut, ← Recorder.edits_perform, made]
  | @refused _ _ _ edit host _ hr he hedit refused ht =>
    refine .inr ⟨edit, ?_, by rw [refused], within hr he hedit⟩
    rw [ht, ← Recorder.edits_perform, refused]

theorem edits_within_page_of_huge_count :
    let s : Session Recorder :=
      ⟨{ Engine.ofConfig {} with pending := "9999999999c".toList, aim := some 4294967295 },
        { buffer := .ofText "one\r\ntwo\u2028three".toList ⟨1, 4⟩ }⟩
    (s.press ['k']).2.host.edits = [.delete ⟨⟨0, 4⟩, ⟨1, 4⟩⟩] ∧
      ((s.press ['k']).2.host.edits = s.host.edits ∨
        ∃ edit, (s.press ['k']).2.host.edits = s.host.edits ++ [edit] ∧
          (Host.perform edit s.host).1 = (s.press ['k']).1 ∧ edit.Within (Host.page s.host)) :=
  ⟨by decide +kernel, edits_within_page _ _ ⟨by decide, by decide⟩⟩

end Session

end ModalEditor
