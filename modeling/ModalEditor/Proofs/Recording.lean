import ModalEditor.Buffer.Recorder

/-! # What a recording host does

A recorder writes down every edit it is asked for, and changes its buffer only by the edits that it
makes.
-/

namespace ModalEditor

namespace OpenBuffer

variable {b b' : OpenBuffer} {e : Edit}

theorem document_of_perform (h : b.perform e = (none, b')) :
    ∃ document, b.document.edit Text.dropFeed reach e = .ok document ∧
      b' = { b with document } := by
  unfold perform at h
  split at h
  · cases h
  · split at h
    · next document made =>
      cases h
      exact ⟨document, made, rfl⟩
    · cases h

theorem eq_of_refused {why : Failure} (h : b.perform e = (some why, b')) :
    b' = b ∧ (why = .crossed → b.document.edit Text.dropFeed reach e = .error .crossed) := by
  unfold perform at h
  split at h
  · cases h
    exact ⟨rfl, by rintro ⟨⟩⟩
  · split at h
    · cases h
    · next failure crossed =>
      cases h
      refine ⟨rfl, ?_⟩
      rintro rfl
      exact crossed

end OpenBuffer

namespace Recorder

variable {r t : Recorder} {e : Edit} {failure : Option Failure}

theorem perform_cases (e : Edit) (r : Recorder) :
    (∃ planned, Host.perform e r = { r with edits := r.edits ++ [e], planned }.pass e) ∨
      ∃ refusal, Host.perform e r =
        (some (.refused refusal), { r with edits := r.edits ++ [e], planned := none }) := by
  cases hp : r.planned with
  | none =>
    refine .inl ⟨none, ?_⟩
    simp only [Host.perform, perform, hp]
  | some plan =>
    obtain ⟨_ | after, refusal⟩ := plan
    · refine .inr ⟨refusal, ?_⟩
      simp only [Host.perform, perform, hp]
    · refine .inl ⟨some ⟨after, refusal⟩, ?_⟩
      simp only [Host.perform, perform, hp]

@[simp] theorem edits_perform (e : Edit) (r : Recorder) :
    (Host.perform e r).2.edits = r.edits ++ [e] := by
  rcases perform_cases e r with ⟨planned, h⟩ | ⟨refusal, h⟩
  · rw [h]
    rfl
  · rw [h]

@[simp] theorem hidesLines_perform (e : Edit) (r : Recorder) :
    (Host.perform e r).2.hidesLines = r.hidesLines := by
  rcases perform_cases e r with ⟨planned, h⟩ | ⟨refusal, h⟩
  · rw [h]
    rfl
  · rw [h]

theorem document_of_perform (h : Host.perform e r = (none, t)) :
    ∃ document, r.buffer.document.edit Text.dropFeed OpenBuffer.reach e = .ok document ∧
      t.buffer = { r.buffer with document } := by
  rcases perform_cases e r with ⟨planned, h'⟩ | ⟨refusal, h'⟩
  · rw [h'] at h
    obtain ⟨accepted, rfl⟩ := Prod.mk.inj h
    exact OpenBuffer.document_of_perform (Prod.ext accepted rfl)
  · rw [h'] at h
    cases h

theorem buffer_of_refused {why : Failure} (h : Host.perform e r = (some why, t)) :
    t.buffer = r.buffer ∧ (why = .crossed →
      r.buffer.document.edit Text.dropFeed OpenBuffer.reach e = .error .crossed) := by
  rcases perform_cases e r with ⟨planned, h'⟩ | ⟨refusal, h'⟩
  · rw [h'] at h
    obtain ⟨refused, rfl⟩ := Prod.mk.inj h
    exact OpenBuffer.eq_of_refused (Prod.ext refused rfl)
  · rw [h'] at h
    cases h
    exact ⟨rfl, by rintro ⟨⟩⟩

end Recorder

end ModalEditor
