import ModalEditor.Buffer.Open
import ModalEditor.Proofs.FlatPage
import ModalEditor.Proofs.TargetKeys

/-! # What a deletion leaves

A buffer that may be edited is left with the text before a deleted span and the text after it. The
caret goes where the command puts it, pulled back onto the line if the mode stays normal.
-/

namespace ModalEditor

namespace OpenBuffer

variable {b : OpenBuffer} {p q : Position} {effect : Effect}

theorem perform_delete (breaks : b.document.text.FeedEnded) (writable : b.readOnly = false)
    (hp : b.page.Holds p) (hq : b.page.Holds q) (le : p ≤ q) :
    Host.perform (.delete ⟨p, q⟩) b =
      (none, { b with document := { b.document with text := b.page.before p ++ b.page.after q } }) := by
  have cut := Document.delete_eq breaks hp hq le
  simp only [Host.perform, perform, writable, Bool.false_eq_true, if_false, Document.edit, cut]
  rfl

theorem made_deletion (breaks : b.document.text.FeedEnded) (writable : b.readOnly = false)
    (hp : b.page.Holds p) (hq : b.page.Holds q) (le : p ≤ q)
    (h : effect.edit = View.deletion? ⟨p, q⟩) :
    effect.Made b
      { b with document := { b.document with text := b.page.before p ++ b.page.after q } } := by
  by_cases empty : q ≤ p
  · obtain rfl := Position.le_antisymm le empty
    have asked : effect.edit = none := by
      rw [h, View.deletion?, Span.isEmpty, decide_eq_true le, if_pos rfl]
    have same : b.page.before p ++ b.page.after p = b.document.text :=
      (Page.before_append_after hp.line).trans (Document.text_page breaks)
    simp only [Effect.Made, asked, same]
  · have asked : effect.edit = some (.delete ⟨p, q⟩) := by
      rw [h, View.deletion?, Span.isEmpty, decide_eq_false empty, if_neg Bool.false_ne_true]
    simp only [Effect.Made, asked]
    exact perform_delete breaks writable hp hq le

theorem around_subset (breaks : b.document.text.FeedEnded) (hp : b.page.Holds p)
    (hq : b.page.Holds q) : b.page.before p ++ b.page.after q ⊆ b.document.text := by
  have whole : b.page.text = b.document.text := Document.text_page breaks
  rw [← whole]
  intro c hc
  rcases List.mem_append.mp hc with above | below
  · rw [← Page.before_append_after hp.line]
    exact List.mem_append_left _ above
  · rw [← Page.before_append_after hq.line]
    exact List.mem_append_right _ below

theorem onlyFeeds_around (feeds : b.document.text.OnlyFeeds) (hp : b.page.Holds p)
    (hq : b.page.Holds q) : (b.page.before p ++ b.page.after q).OnlyFeeds :=
  fun c hc => feeds c (around_subset feeds.feedEnded hp hq hc)

end OpenBuffer

namespace Session

variable {s : Session OpenBuffer} {keys : Text} {target : Target} {inserts : Bool} {effect : Effect}
  {span : Span} {p : Position} {calls : List Text}

/-- A session is left so by a command that deletes a span and puts the caret at a position. -/
structure LeftBy (s : Session OpenBuffer) (effect : Effect) (span : Span) (p : Position)
    (t : Session OpenBuffer) : Prop where
  pending : t.engine.pending = []
  mode : t.engine.mode = if effect.inserts then .insert else .normal
  register : t.engine.register = effect.register.or s.engine.register
  text : t.host.document.text = s.host.page.before span.start ++ s.host.page.after span.stop
  caret : t.host.document.caret = if effect.inserts then p else t.host.page.pullBack p

theorem typed_deletion (ready : s.Ready) (breaks : s.host.document.text.FeedEnded)
    (writable : s.host.readOnly = false) (spelled : TargetKeys keys target inserts)
    (flat : calls.flatten = keys)
    (read : (Command.take inserts target).effect? s.view = some effect)
    (start : s.host.page.Holds span.start) (stop : s.host.page.Holds span.stop)
    (le : span.start ≤ span.stop) (asked : effect.edit = View.deletion? span)
    (goes : effect.caret = some (.at p)) : ∃ t, s.Typed calls t ∧ s.LeftBy effect span p t := by
  have made := OpenBuffer.made_deletion breaks writable start stop le asked
  have typed := typed_target ready spelled read made flat
  refine ⟨_, typed, pending_outcome .., ?_, register_outcome .., ?_, ?_⟩
  · rw [mode_outcome, ready.normal]
  · rw [host_outcome_of_at ready goes]
    rfl
  · rw [host_outcome_of_at ready goes]
    rfl

end Session

end ModalEditor
