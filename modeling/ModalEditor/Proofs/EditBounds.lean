import ModalEditor.Proofs.OnPage
import ModalEditor.Proofs.Rows

/-! # The page after an edit

The text before an edit stays as it is, although its last cluster may merge with what follows it
now. So the positions up to the start of the edit stay on the page, text that was put in leaves its
line with a cluster, and a line feed in it leaves a line below.
-/

namespace ModalEditor

namespace Copies

theorem mem_text {copies : Copies} {c : Char} :
    c ∈ copies.text ↔ c ∈ copies.unit ∧ copies.times ≠ 0 := by
  simp only [text, List.mem_flatten, List.mem_replicate]
  constructor
  · rintro ⟨unit, ⟨times, rfl⟩, hc⟩
    exact ⟨hc, times⟩
  · rintro ⟨hc, times⟩
    exact ⟨copies.unit, ⟨times, rfl⟩, hc⟩

theorem onlyFeeds_text {copies : Copies} (h : copies.unit.OnlyFeeds) : copies.text.OnlyFeeds :=
  fun c hc => h c (mem_text.mp hc).1

theorem text_ne_nil {copies : Copies} (unit : copies.unit ≠ []) (times : copies.times ≠ 0) :
    copies.text ≠ [] := by
  obtain ⟨c, hc⟩ := List.exists_mem_of_ne_nil _ unit
  exact List.ne_nil_of_mem (mem_text.mpr ⟨hc, times⟩)

end Copies

namespace Text

theorem line_endOf (t : Text) : (endOf t).line = t.count '\n' := by
  induction t using rowInduction with
  | last row hrow => rw [endOf_row hrow, List.count_eq_zero.mpr hrow]
  | more row rest hrow ih =>
    rw [endOf_row_append hrow, ih, List.count_append, List.count_eq_zero.mpr hrow,
      List.count_cons_self, Nat.zero_add]

theorem col_endOf_append_pos (a : Text) {b : Text} (ne : b ≠ []) (hb : '\n' ∉ b) :
    0 < (endOf (a ++ b)).col := by
  have last : ((a ++ b).splitOn '\n').getLastD [] = (a.splitOn '\n').getLastD [] ++ b := by
    rw [splitOn_append, List.splitOn_eq_singleton hb]
    simp
  rw [endOf, last]
  exact columns_pos (List.append_ne_nil_of_right_ne_nil _ ne)

end Text

namespace Page

/-- Settling brings a caret from there to where it may rest: the line exists, and the column is zero
if it is empty. -/
def Settles (page : Page) (p : Position) : Prop :=
  p.line < page.length ∧ (page.width p.line = 0 → p.col = 0)

theorem Holds.settles {page : Page} {p : Position} (h : page.Holds p) : page.Settles p := by
  have col := h.col
  exact ⟨h.line, fun blank => by omega⟩

end Page

namespace Document

open Text

variable {d d' : Document} {p q : Position} {new rest : Text}

theorem holds_endOf (h : OnlyFeeds d.text) (split : d.text = new ++ rest) :
    (d.page dropFeed).Holds (endOf new) := by
  rw [page_eq h, split]
  exact ⟨(endOf_on_page new rest).1, (endOf_on_page new rest).2⟩

theorem holds_position (h : OnlyFeeds d.text) {n : Nat} (hn : n ≤ d.text.length) :
    (d.page dropFeed).Holds (d.position n) := by
  rw [position_eq h hn]
  exact holds_endOf h (List.take_append_drop n d.text).symm

theorem endOf_of_holds (h : OnlyFeeds d.text) (hp : (d.page dropFeed).Holds p) :
    endOf (d.text.take (d.offset dropFeed p)) = p := by
  rw [(endOf_take_offset h hp.line).1, Nat.min_eq_left hp.col]

/-! ## After the text before a position -/

theorem holds_of_kept (h : OnlyFeeds d.text) (hp : (d.page dropFeed).Holds p)
    (h' : OnlyFeeds d'.text) (split : d'.text = d.text.take (d.offset dropFeed p) ++ rest)
    (line : q.line = p.line) (col : q.col ≤ p.col) : (d'.page dropFeed).Holds q := by
  have kept := holds_endOf h' split
  rw [endOf_of_holds h hp] at kept
  exact kept.mono line col

theorem below_of_entered (h : OnlyFeeds d.text) (hp : (d.page dropFeed).Holds p)
    (h' : OnlyFeeds d'.text) (split : d'.text = d.text.take (d.offset dropFeed p) ++ new ++ rest)
    (feed : '\n' ∈ new) : p.line + 1 < (d'.page dropFeed).length := by
  have entered := (holds_endOf h' split).line
  have start := line_endOf (d.text.take (d.offset dropFeed p))
  have more := List.count_pos_iff.mpr feed
  rw [endOf_of_holds h hp] at start
  rw [line_endOf, List.count_append] at entered
  omega

theorem settles_of_entered (h : OnlyFeeds d.text) (hp : (d.page dropFeed).Holds p)
    (h' : OnlyFeeds d'.text) (split : d'.text = d.text.take (d.offset dropFeed p) ++ new ++ rest)
    (ne : new ≠ []) (plain : '\n' ∉ new) (line : q.line = p.line) :
    (d'.page dropFeed).Settles q := by
  have entered := holds_endOf h' split
  have col := col_endOf_append_pos (d.text.take (d.offset dropFeed p)) ne plain
  have same : (endOf (d.text.take (d.offset dropFeed p) ++ new)).line = q.line := by
    have start := line_endOf (d.text.take (d.offset dropFeed p))
    rw [endOf_of_holds h hp] at start
    rw [line_endOf, List.count_append, List.count_eq_zero.mpr plain, line, start, Nat.add_zero]
  have width := entered.col
  rw [same] at width
  exact ⟨same ▸ entered.line, fun blank => by omega⟩

/-! ## Edits between positions on the page -/

theorem text_splice (start stop : Nat) (new : Text) (d : Document) :
    (d.splice start stop new).text = d.text.take start ++ new ++ d.text.drop stop := rfl

theorem onlyFeeds_splice (h : OnlyFeeds d.text) (hn : OnlyFeeds new) (start stop : Nat) :
    OnlyFeeds (d.splice start stop new).text := by
  rw [text_splice, onlyFeeds_append, onlyFeeds_append]
  exact ⟨⟨h.sublist (List.take_sublist ..), hn⟩, h.sublist (List.drop_sublist ..)⟩

/-- A span between positions on the page can be removed, and the positions on its first line up to
its start stay on the page. -/
theorem delete_ok (h : OnlyFeeds d.text) {span : Span} (start : (d.page dropFeed).Holds span.start)
    (stop : (d.page dropFeed).Holds span.stop) (le : span.start ≤ span.stop) :
    ∃ cut, d.delete dropFeed span = .ok cut ∧ OnlyFeeds cut.text ∧
      ∀ q : Position, q.line = span.start.line → q.col ≤ span.start.col →
        (cut.page dropFeed).Holds q := by
  have order := offset_mono h le stop.line
  have clean := onlyFeeds_splice h onlyFeeds_nil (d.offset dropFeed span.start)
    (d.offset dropFeed span.stop)
  refine ⟨_, if_neg (Nat.not_lt.mpr order), clean, ?_⟩
  intro q line col
  exact holds_of_kept h start clean (List.append_assoc ..) line col

theorem holds_caret_enter (h : OnlyFeeds d.text) (hn : OnlyFeeds new) {start : Nat}
    (hs : start ≤ d.text.length) (stop : Nat) :
    ((d.enter start stop new).page dropFeed).Holds (d.enter start stop new).caret := by
  have inside : start + new.length ≤ (d.splice start stop new).text.length := by
    rw [text_splice, List.length_append, List.length_append, List.length_take]
    omega
  exact holds_position (onlyFeeds_splice h hn start stop) inside

end Document

end ModalEditor
