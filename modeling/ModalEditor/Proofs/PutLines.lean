import ModalEditor.Proofs.Deleting
import ModalEditor.Proofs.NoTrace

/-! # Putting whole lines

Whole lines are put in below the line of the caret. Below the last line the edit is another one,
with a line feed before the lines and none after them, and yet the lines that are left come about
alike. A put that would bring in too much is turned down.
-/

namespace ModalEditor

open Text

/-! ## Lines put in between -/

namespace Text

variable {above rows : List Text}

theorem flatten_replicate_ended (rows : List Text) (n : Nat) :
    (List.replicate n (ended rows)).flatten = ended (List.replicate n rows).flatten := by
  induction n with
  | zero => rfl
  | succ n ih =>
    rw [List.replicate_succ, List.replicate_succ, List.flatten_cons, List.flatten_cons, ih,
      ended_append]

theorem joined_append_replicate (ha : above ≠ []) (hr : rows ≠ []) (n : Nat) :
    joined above ++ (List.replicate n ('\n' :: joined rows)).flatten =
      joined (above ++ (List.replicate n rows).flatten) := by
  induction n generalizing above with
  | zero => simp
  | succ n ih =>
    have first : joined above ++ '\n' :: joined rows = joined (above ++ rows) := by
      rw [joined_append above hr, ended_eq_joined ha, List.append_assoc]
      rfl
    rw [List.replicate_succ, List.replicate_succ, List.flatten_cons, List.flatten_cons,
      ← List.append_assoc, ← List.append_assoc, first]
    exact ih (List.append_ne_nil_of_left_ne_nil ha rows)

theorem not_mem_of_put (ha : ∀ row ∈ above, '\n' ∉ row) (hr : ∀ row ∈ rows, '\n' ∉ row)
    (l n : Nat) :
    ∀ row ∈ above.take l ++ (List.replicate n rows).flatten ++ above.drop l, '\n' ∉ row := by
  intro row mem
  rcases List.mem_append.mp mem with mem | mem
  · rcases List.mem_append.mp mem with mem | mem
    · exact ha row (List.mem_of_mem_take mem)
    · obtain ⟨copy, copied, mem⟩ := List.mem_flatten.mp mem
      exact hr row (List.eq_of_mem_replicate copied ▸ mem)
  · exact ha row (List.mem_of_mem_drop mem)

end Text

namespace Page

variable {page : Page} {rows : List Text} {l : Nat}

theorem text_of_ended (below : l + 1 < page.length) (rows : List Text) (n : Nat) :
    page.before ⟨l + 1, 0⟩ ++ (Copies.mk (ended rows) n).text ++ page.after ⟨l + 1, 0⟩ =
      joined (page.rows.take (l + 1) ++ (List.replicate n rows).flatten ++
        page.rows.drop (l + 1)) := by
  have rest : page.rows.drop (l + 1) ≠ [] := by
    rw [drop_rows below]
    exact List.cons_ne_nil _ _
  rw [before_zero, after_zero below, Copies.text, flatten_replicate_ended, ← ended_append,
    joined_append _ rest]

theorem text_of_led (bottom : l + 1 = page.length) (filled : rows ≠ []) (n : Nat) :
    page.before ⟨l, page.width l⟩ ++ (Copies.mk ('\n' :: joined rows) n).text ++
        page.after ⟨l, page.width l⟩ =
      joined (page.rows.take (l + 1) ++ (List.replicate n rows).flatten ++
        page.rows.drop (l + 1)) := by
  have inside : l < page.length := by omega
  have above : page.rows.take (l + 1) ≠ [] := by
    rw [← List.length_pos_iff, List.length_take, length_rows]
    omega
  have none_below : page.rows.drop (l + 1) = [] := by
    apply List.drop_eq_nil_of_le
    rw [length_rows]
    omega
  rw [before_width_eq_joined inside, after_width, none_below, joined_singleton, List.append_nil,
    List.append_nil, Copies.text]
  exact joined_append_replicate above filled n

end Page

namespace View

variable {rows : List Text}

/-- Both edits that put whole lines in come to the same, and so does where the caret goes. -/
theorem put_lines (view : View) (h : view.caret.line < view.page.length) (filled : rows ≠ [])
    (n : Nat) :
    ∃ p copies,
      view.put (.lines (joined rows)) n =
        { aim := view.aim, edit := some (.insert p copies),
          caret := some (.at ⟨view.caret.line + 1, 0⟩) } ∧
      p.line < view.page.length ∧
      view.page.before p ++ copies.text ++ view.page.after p =
        joined (view.page.rows.take (view.caret.line + 1) ++ (List.replicate n rows).flatten ++
          view.page.rows.drop (view.caret.line + 1)) := by
  have line : min view.caret.line view.page.lastLine = view.caret.line :=
    Nat.min_eq_left (Nat.le_sub_one_of_lt h)
  rcases Nat.lt_or_eq_of_le (Nat.succ_le_of_lt h) with below | bottom
  · have inside : view.caret.line < view.page.lastLine := Nat.lt_sub_of_add_lt below
    refine ⟨_, _, ?_, below, Page.text_of_ended below rows n⟩
    simp only [put, line, if_pos inside, ended_eq_joined filled]
  · have last : ¬view.caret.line < view.page.lastLine := by
      rw [Page.lastLine]
      omega
    refine ⟨⟨view.caret.line, view.page.width view.caret.line⟩, _, ?_, h,
      Page.text_of_led bottom filled n⟩
    simp only [put, line, if_neg last]

end View

/-! ## The keys and the size of a put -/

theorem KeyReader.parse_put {digits : Text} {count : Option Nat} (h : Spells digits count) :
    Keys.parse (digits ++ ['p']) = .complete (.put (min (count.getD 1) maxCount)) := by
  have total : total ⟨count, none, none⟩ = min (count.getD 1) maxCount := by simp [total]
  have stop : continuesCount count 'p' = false := rfl
  have key : Keys.operator? 'p' = some .put := rfl
  rw [parse_append (.count h) (by decide), ← total]
  simp only [read, readCommand, extend?_eq_none_of_stop stop, key, readOperator]

theorem Text.byteSize_pos {t : Text} (h : t ≠ []) : 0 < t.byteSize := by
  obtain ⟨c, rest, rfl⟩ := List.exists_cons_of_ne_nil h
  exact Nat.add_pos_left c.utf8Size_pos _

section Size

variable {size n : Nat}

theorem le_maxCount_of_fits (pos : 0 < size) (fits : size * n ≤ maxPutBytes) : n ≤ maxCount :=
  calc n ≤ size * n := Nat.le_mul_of_pos_left n pos
    _ ≤ maxPutBytes := fits
    _ ≤ maxCount := by decide

theorem lt_mul_min_maxCount (pos : 0 < size) (large : maxPutBytes < size * n) :
    maxPutBytes < size * min n maxCount := by
  rcases Nat.le_total n maxCount with small | held
  · rwa [Nat.min_eq_left small]
  · rw [Nat.min_eq_right held]
    calc maxPutBytes < maxCount := by decide
      _ ≤ size * maxCount := Nat.le_mul_of_pos_left maxCount pos

end Size

/-- A put is carried out unless it would bring in too many bytes. -/
theorem Command.effect?_put (view : View) {text : Text}
    (held : view.register = some (.lines text)) (n : Nat) :
    (Command.put n).effect? view =
      if maxPutBytes < (Register.lines text).content.byteSize * n then none
      else some (view.put (.lines text) n) := by
  simp [effect?, held]

namespace OpenBuffer

theorem perform_insert {b : OpenBuffer} {p : Position} (breaks : b.document.text.FeedEnded)
    (writable : b.readOnly = false) (hp : p.line < b.page.length) (copies : Copies) :
    Host.perform (.insert p copies) b =
      (none, { b with document :=
        { b.document with text := b.page.before p ++ copies.text ++ b.page.after p } }) := by
  have put := Document.insert_eq breaks hp copies.text
  simp only [Host.perform, perform, writable, Bool.false_eq_true, if_false, Document.edit, put]
  rfl

end OpenBuffer

namespace Session

variable {s : Session OpenBuffer}

variable {rows : List Text} {digits : Text} {count : Option Nat} {calls : List Text}

theorem typed_put (ready : s.Ready) (feeds : s.host.document.text.OnlyFeeds)
    (writable : s.host.readOnly = false)
    (held : s.engine.register = some (.lines (joined rows))) (filled : rows ≠ [])
    (single : ∀ row ∈ rows, '\n' ∉ row) (spelled : Spells digits count)
    (flat : calls.flatten = digits ++ ['p'])
    (fits : (Register.lines (joined rows)).content.byteSize * min (count.getD 1) maxCount ≤
      maxPutBytes) :
    let lines := s.host.document.text.splitOn '\n'
    let l := s.host.document.caret.line + 1
    let n := min (count.getD 1) maxCount
    ∃ t, s.Typed calls t ∧ t.engine.pending = [] ∧ t.engine.mode = .normal ∧
      t.host.document.text.splitOn '\n' =
        lines.take l ++ (List.replicate n rows).flatten ++ lines.drop l ∧
      t.host.document.caret = ⟨l, 0⟩ ∧ t.engine.register = s.engine.register := by
  intro lines l n
  have shown : s.view.page.rows = lines :=
    Document.rows_page_of_onlyFeeds feeds
  have begun : lines.take l ≠ [] := by
    rw [← List.length_pos_iff, List.length_take]
    exact Nat.lt_min.mpr ⟨Nat.succ_pos _, List.length_pos_iff.mpr (List.splitOn_ne_nil _ _)⟩
  obtain ⟨p, copies, put, inside, text⟩ := s.view.put_lines ready.caret.1 filled n
  rw [shown] at text
  have read : (Command.put n).effect? s.view = some (s.view.put (.lines (joined rows)) n) :=
    (Command.effect?_put s.view held n).trans (if_neg (Nat.not_lt.mpr fits))
  rw [put] at read
  have made := OpenBuffer.perform_insert feeds.feedEnded writable inside copies
  have typed := typed_command ready (.count spelled) (by decide) (KeyReader.parse_put spelled) read
    made flat
  refine ⟨_, typed, pending_outcome .., ?_, ?_, ?_, register_outcome ..⟩
  · rw [mode_outcome, ready.normal]
    rfl
  · rw [host_outcome_of_at ready rfl]
    calc (s.view.page.before p ++ copies.text ++ s.view.page.after p).splitOn '\n'
        = orBlank (lines.take l ++ (List.replicate n rows).flatten ++ lines.drop l) := by
          rw [text]
          exact splitOn_joined (not_mem_of_put (not_mem_of_mem_splitOn _) single l n)
      _ = lines.take l ++ (List.replicate n rows).flatten ++ lines.drop l := by
          apply orBlank_of_ne_nil
          exact List.append_ne_nil_of_left_ne_nil (List.append_ne_nil_of_left_ne_nil begun _) _
  · rw [host_outcome_of_at ready rfl, Page.pullBack_zero, ite_self]
    rfl

/-- Whole lines come in below the line of the caret, as many times as the count says, unless they
are too large. -/
theorem lines_of_put (s : Session OpenBuffer) (ready : s.Ready) (quiet : s.engine.beeps = 0)
    (feeds : s.host.document.text.OnlyFeeds) (register : Register)
    (held : s.engine.register = some register) (whole : register.isWholeLine = true)
    (rows : List Text) (filled : rows ≠ []) (single : ∀ row ∈ rows, '\n' ∉ row)
    (content : register.content = ended rows) (digits : Text) (count : Option Nat)
    (spelled : Spells digits count) (calls : List Text) (flat : calls.flatten = digits ++ ['p']) :
    let lines := s.host.document.text.splitOn '\n'
    let k := s.host.document.caret.line
    let n := count.getD 1
    (register.content.byteSize * n ≤ maxPutBytes → s.host.readOnly = false →
      ∃ t, s.Typed calls t ∧ t.engine.pending = [] ∧ t.engine.mode = .normal ∧
        t.host.document.text.splitOn '\n' =
          lines.take (k + 1) ++ (List.replicate n rows).flatten ++ lines.drop (k + 1) ∧
        t.host.document.caret = ⟨k + 1, 0⟩ ∧ t.engine.register = some register) ∧
    (maxPutBytes < register.content.byteSize * n → s.LeavesNoTrace (calls.map .typeText) 1) := by
  intro lines k n
  obtain ⟨text, rfl⟩ : ∃ text, register = .lines text := by
    cases register with
    | chars text => cases whole
    | lines text => exact ⟨text, rfl⟩
  obtain rfl : text = joined rows :=
    List.append_cancel_right (content.trans (ended_eq_joined filled))
  have pos : 0 < (Register.lines (joined rows)).content.byteSize :=
    Text.byteSize_pos (List.append_ne_nil_of_right_ne_nil _ (List.cons_ne_nil _ _))
  constructor
  · intro fits writable
    have exact : min n maxCount = n := Nat.min_eq_left (le_maxCount_of_fits pos fits)
    rw [← exact] at fits ⊢
    obtain ⟨t, typed, pending, mode, kept, stands, register⟩ :=
      typed_put ready feeds writable held filled single spelled flat fits
    exact ⟨t, typed, pending, mode, kept, stands, register.trans held⟩
  · intro large
    apply leavesNoTrace_of_unable ready quiet (.count spelled) (by decide)
      (KeyReader.parse_put spelled) _ flat
    rw [Command.effect?_put s.view held, if_pos (lt_mul_min_maxCount pos large)]

theorem lines_of_put_below_blank_line :
    let register : Register := .lines "\nx".toList
    let s : Session OpenBuffer :=
      ⟨{ Engine.ofConfig {} with register := some register }, .ofText "a\n".toList ⟨1, 0⟩⟩
    (∃ t, s.Typed ["2".toList, "p".toList] t ∧ t.engine.mode = .normal ∧
      t.host.document.text.splitOn '\n' = [['a'], [], [], ['x'], [], ['x']] ∧
      t.host.document.caret = ⟨2, 0⟩ ∧ t.engine.register = some register) ∧
    s.LeavesNoTrace [.typeText "5592406p".toList] 1 := by
  intro register s
  have put (digits : Text) (n : Nat) (spelled : Spells digits (some n)) (calls : List Text)
      (flat : calls.flatten = digits ++ ['p']) :=
    lines_of_put s ⟨rfl, rfl, by decide⟩ rfl (by decide) register rfl rfl [[], ['x']] (by decide)
      (by decide) (by decide) digits (some n) spelled calls flat
  constructor
  · obtain ⟨t, typed, -, mode, kept, stands, same⟩ :=
      (put _ 2 (spells_toDigits (by decide)) ["2".toList, "p".toList] rfl).1 (by decide) rfl
    exact ⟨t, typed, mode, kept.trans (by decide), stands, same⟩
  · exact (put _ 5592406 (spells_toDigits (by decide)) ["5592406p".toList] rfl).2 (by decide)

end Session

end ModalEditor
