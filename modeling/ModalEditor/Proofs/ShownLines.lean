import Mathlib.Data.List.DropRight
import ModalEditor.Buffer.Clamped
import ModalEditor.Buffer.Open
import ModalEditor.Proofs.EditBounds

/-! # Lines shown in two ways

The one host shows a line without the line feed at its end, the other without any carriage returns
and line feeds there. On a text that only line feeds break this comes to the same, and so do the
page, the offsets and the edits.
-/

namespace ModalEditor

namespace Text

variable {t : Text}

theorem dropReturns_eq (line : Text) :
    dropReturns line = line.rdropWhile fun c => c == '\n' || c == '\r' := rfl

theorem length_dropReturns_le (line : Text) : (dropReturns line).length ≤ line.length := by
  rw [dropReturns_eq]
  exact (List.rdropWhile_prefix _ line).length_le

theorem dropReturns_row {row : Text} (h : ∀ c ∈ row, isBreak c = false) :
    dropReturns row = row := by
  rw [dropReturns_eq, List.rdropWhile_eq_self_iff]
  intro ne ends
  have plain := h _ (List.getLast_mem ne)
  rw [Bool.or_eq_true, beq_iff_eq, beq_iff_eq] at ends
  rcases ends with feed | back
  · rw [feed] at plain
    cases plain
  · rw [back] at plain
    cases plain

theorem dropReturns_of_mem_lines (h : OnlyFeeds t) :
    ∀ line ∈ t.lines, dropReturns line = dropFeed line := by
  induction t using rowInduction with
  | last row hrow =>
    have plain := not_isBreak_of_row h hrow
    intro line mem
    rw [lines_row plain, List.mem_singleton] at mem
    rw [mem, dropReturns_row plain, dropFeed_row hrow]
  | more row rest hrow ih =>
    simp only [onlyFeeds_append, onlyFeeds_cons] at h
    have plain := not_isBreak_of_row h.1 hrow
    intro line mem
    rw [lines_row_append plain, List.mem_cons] at mem
    rcases mem with rfl | mem
    · rw [dropReturns_eq, List.rdropWhile_concat_pos _ _ _ rfl, ← dropReturns_eq,
        dropReturns_row plain, dropFeed_append_feed]
    · exact ih h.2.2 line mem

end Text

namespace Document

open Text

variable {d : Document}

theorem page_dropReturns (h : OnlyFeeds d.text) : d.page dropReturns = d.page dropFeed := by
  apply List.map_congr_left
  intro line mem
  rw [dropReturns_of_mem_lines h line mem]

theorem offset_dropReturns (h : OnlyFeeds d.text) (p : Position) :
    d.offset dropReturns p = d.offset dropFeed p := by
  have some := length_lines_pos d.text
  have inside : min p.line (d.text.lines.length - 1) < d.text.lines.length := by omega
  simp only [offset, List.getElem?_eq_getElem inside, Option.getD_some]
  rw [dropReturns_of_mem_lines h _ (List.getElem_mem inside)]

theorem delete_dropReturns (h : OnlyFeeds d.text) (span : Span) :
    d.delete dropReturns span = d.delete dropFeed span := by
  simp only [delete, offset_dropReturns h]

theorem onlyFeeds_delete {cut : Document} {span : Span} (h : OnlyFeeds d.text)
    (made : d.delete dropFeed span = .ok cut) : OnlyFeeds cut.text := by
  simp only [delete] at made
  split at made
  · cases made
  · cases made
    exact onlyFeeds_splice h onlyFeeds_nil _ _

/-- An edit gives the same on both hosts, unless it replaces what lies before the start of a
line. -/
theorem edit_dropReturns (h : OnlyFeeds d.text) {e : Edit}
    (apart : ∀ text count, e = .retype text count → d.caret.col = 0 → count = 0) :
    d.edit dropReturns ClampedBuffer.reach e = d.edit dropFeed OpenBuffer.reach e := by
  cases e with
  | delete span => exact delete_dropReturns h span
  | insert pos copies => simp only [edit, insert, offset_dropReturns h]
  | replace span copies =>
    simp only [edit, delete_dropReturns h]
    cases made : d.delete dropFeed span with
    | error _ => rfl
    | ok cut =>
      have clean := onlyFeeds_delete h made
      simp only [Except.map, insert, offset_dropReturns clean]
  | typeIn text => simp only [edit, offset_dropReturns h]
  | retype text count =>
    have reach : ClampedBuffer.reach d count = OpenBuffer.reach d count := by
      have inside : ¬ (d.caret.col = 0 ∧ 0 < count) := by
        rintro ⟨start, some⟩
        rw [apart text count rfl start] at some
        cases some
      rw [ClampedBuffer.reach, if_neg inside, offset_dropReturns h]
      rfl
    simp only [edit, reach, offset_dropReturns h]

end Document

theorem ClampedBuffer.perform_of_made {b : ClampedBuffer} {e : Edit} {d : Document}
    (made : b.document.edit Text.dropReturns ClampedBuffer.reach e = .ok d) :
    Host.perform e b = (none, ⟨d⟩) := by
  simp only [Host.perform, ClampedBuffer.perform, made]

end ModalEditor
