import ModalEditor.Proofs.Deleting
import ModalEditor.Proofs.Fitting

/-! # Whole lines

Deleting whole lines takes them out of the list of lines, and changing them leaves one blank line in
their place. Which line break an edit takes along for that shows neither in the lines that are left
nor in the register.
-/

namespace ModalEditor

open Text

namespace Text

variable {rows : List Text} {k n : Nat}

theorem not_mem_of_blanked (h : ∀ row ∈ rows, '\n' ∉ row) :
    ∀ row ∈ rows.take k ++ [] :: rows.drop n, '\n' ∉ row := by
  intro row mem
  rcases List.mem_append.mp mem with above | mem
  · exact h row (List.mem_of_mem_take above)
  · rcases List.mem_cons.mp mem with rfl | below
    · exact List.not_mem_nil
    · exact h row (List.mem_of_mem_drop below)

theorem not_mem_of_kept (h : ∀ row ∈ rows, '\n' ∉ row) :
    ∀ row ∈ rows.take k ++ rows.drop n, '\n' ∉ row := by
  intro row mem
  exact not_mem_of_blanked h row (((List.sublist_cons_self ..).append_left _).subset mem)

end Text

namespace Page

variable {page : Page} {lines : View.Lines}

/-- Around the stretch that takes whole lines out there are the other lines, whichever line break it
takes along. -/
theorem before_append_after_removal (h : lines.first ≤ lines.last ∧ lines.last < page.length) :
    page.before (lines.removal page).1.start ++ page.after (lines.removal page).1.stop =
      joined (page.rows.take lines.first ++ page.rows.drop (lines.last + 1)) := by
  obtain ⟨order, last⟩ := h
  unfold View.Lines.removal
  split
  · next below =>
    -- The break after the lines goes with them.
    have rest : page.rows.drop (lines.last + 1) ≠ [] := by
      rw [drop_rows below]
      exact List.cons_ne_nil _ _
    rw [before_zero, after_zero below, joined_append _ rest]
  · next bottom =>
    have none_below : page.rows.drop (lines.last + 1) = [] := by
      apply List.drop_eq_nil_of_le
      rw [length_rows]
      omega
    have nothing : page.after ⟨lines.last, page.width lines.last⟩ = [] := by
      rw [after_width, none_below, joined_singleton]
    rw [none_below, List.append_nil]
    split
    · next above =>
      -- The break before the lines goes with them, so the line above is the last one now.
      have line : lines.first - 1 + 1 = lines.first := Nat.sub_add_cancel above
      rw [nothing, List.append_nil, before_width_eq_joined (by omega), line]
    · next top =>
      have first : lines.first = 0 := Nat.eq_zero_of_not_pos top
      rw [nothing, List.append_nil, first, Position.zero, before_zero]
      rfl

theorem before_append_after_span (lines : View.Lines) (page : Page) :
    page.before (lines.span page).start ++ page.after (lines.span page).stop =
      joined (page.rows.take lines.first ++ [] :: page.rows.drop (lines.last + 1)) := by
  rw [View.Lines.span, before_zero, after_width, joined_append _ (List.cons_ne_nil _ _)]

theorem span_bounds (h : lines.first ≤ lines.last ∧ lines.last < page.length) :
    page.Holds (lines.span page).start ∧ page.Holds (lines.span page).stop ∧
      (lines.span page).start ≤ (lines.span page).stop := by
  obtain ⟨order, last⟩ := h
  refine ⟨?_, ?_, ?_⟩
  · exact ⟨Nat.lt_of_le_of_lt order last, Nat.zero_le _⟩
  · exact ⟨last, Nat.le_refl _⟩
  · rw [Position.le_def]
    simp only [View.Lines.span]
    omega

theorem slice_span (h : lines.first ≤ lines.last ∧ lines.last < page.length) :
    page.slice (lines.span page) ++ ['\n'] =
      ended ((page.rows.take (lines.last + 1)).drop lines.first) := by
  obtain ⟨start, stop, le⟩ := span_bounds h
  obtain ⟨order, last⟩ := h
  have first : (page.rows.take (lines.last + 1)).take lines.first = page.rows.take lines.first := by
    rw [List.take_take, Nat.min_eq_left (by omega)]
  -- The lines above are before both ends of the slice, and are cancelled.
  have whole := congrArg (· ++ ['\n']) (before_append_slice start stop le)
  simp only [View.Lines.span, before_zero, ← ended_take_succ last, List.append_assoc] at whole
  rw [← List.take_append_drop lines.first (page.rows.take (lines.last + 1)), ended_append,
    first] at whole
  exact List.append_cancel_left whole

theorem content_span (h : lines.first ≤ lines.last ∧ lines.last < page.length) {m : Nat}
    (last : lines.last + 1 = lines.first + m) :
    (Register.lines (page.slice (lines.span page))).content =
      ended ((page.rows.drop lines.first).take m) := by
  rw [Register.content, slice_span h, List.drop_take, last, Nat.add_sub_cancel_left]

theorem lineCount_span (h : lines.first ≤ lines.last ∧ lines.last < page.length) {m : Nat}
    (last : lines.last + 1 = lines.first + m) (single : ∀ row ∈ page.rows, '\n' ∉ row) :
    (Register.lines (page.slice (lines.span page))).lineCount = m := by
  rw [Register.lineCount, content_span h last, count_ended, List.length_take, List.length_drop,
    length_rows]
  · omega
  · intro row mem
    exact single row (List.mem_of_mem_drop (List.mem_of_mem_take mem))

theorem caret_removal (h : lines.first ≤ lines.last ∧ lines.last < page.length) :
    (lines.removal page).2 =
      ⟨min lines.first ((orBlank (page.rows.take lines.first ++
        page.rows.drop (lines.last + 1))).length - 1), 0⟩ := by
  obtain ⟨order, last⟩ := h
  rw [length_orBlank, List.length_append, List.length_take, List.length_drop, length_rows]
  unfold View.Lines.removal Position.zero
  split
  · rw [Position.mk.injEq]
    omega
  · split
    · rw [Position.mk.injEq]
      omega
    · rw [Position.mk.injEq]
      omega

end Page

namespace View

variable {view : View}

theorem lines?_eq {count : Nat} (h : view.caret.line < view.page.length) (pos : 0 < count) :
    ∃ lines, view.lines? count = some lines ∧ lines.first = view.caret.line ∧
      lines.last + 1 = view.caret.line + min count (view.page.length - view.caret.line) := by
  have some : view.page.length ≠ 0 := by omega
  have first : min view.caret.line view.page.lastLine = view.caret.line := by
    rw [Page.lastLine]
    omega
  refine ⟨_, if_neg some, first, ?_⟩
  simp only [Page.lastLine]
  omega

end View

theorem Command.effect?_take_lines {view : View} {count : Nat} {lines : View.Lines}
    (h : view.lines? count = some lines) (inserts : Bool) :
    (Command.take inserts (.lines count)).effect? view =
      some (if inserts then view.clearLines lines else view.cutLines lines) := by
  cases inserts <;> exact congrArg (Option.map _) h

namespace Session

variable {s t : Session OpenBuffer} {keys : Text} {effect : Effect} {span : Span} {rows : List Text}
  {l count : Nat} {lines : View.Lines} {calls : List Text}

theorem LeftBy.splitOn_eq (left : s.LeftBy effect span ⟨l, 0⟩ t)
    (feeds : s.host.document.text.OnlyFeeds) (start : s.host.page.Holds span.start)
    (stop : s.host.page.Holds span.stop)
    (around : s.host.page.before span.start ++ s.host.page.after span.stop = joined rows)
    (single : ∀ row ∈ rows, '\n' ∉ row) :
    t.host.document.text.OnlyFeeds ∧ t.host.document.text.splitOn '\n' = orBlank rows ∧
      t.host.document.caret = ⟨l, 0⟩ := by
  refine ⟨?_, ?_, ?_⟩
  · rw [left.text]
    exact OpenBuffer.onlyFeeds_around feeds start stop
  · rw [left.text, around]
    exact splitOn_joined single
  · rw [left.caret, Page.pullBack_zero, ite_self]

theorem typed_delete_lines (ready : s.Ready) (feeds : s.host.document.text.OnlyFeeds)
    (writable : s.host.readOnly = false) (spelled : TargetKeys keys (.lines count) false)
    (flat : calls.flatten = keys) (found : s.view.lines? count = some lines)
    (single : ∀ row ∈ s.host.page.rows, '\n' ∉ row) :
    let rows := s.host.page.rows.take lines.first ++ s.host.page.rows.drop (lines.last + 1)
    ∃ t, s.Typed calls t ∧ t.engine.pending = [] ∧ t.engine.mode = .normal ∧
      t.host.document.text.OnlyFeeds ∧ t.host.document.text.splitOn '\n' = orBlank rows ∧
      t.host.document.caret = ⟨min lines.first ((orBlank rows).length - 1), 0⟩ ∧
      t.engine.register = some (.lines (s.host.page.slice (lines.span s.host.page))) := by
  have bounds : lines.first ≤ lines.last ∧ lines.last < s.host.page.length :=
    View.lines?_bounds found
  obtain ⟨start, stop, le, -, -⟩ := View.removal_bounds bounds
  have goes := congrArg (fun p => some (Landing.at p)) (Page.caret_removal bounds)
  obtain ⟨t, typed, left⟩ := typed_deletion ready feeds.feedEnded writable spelled flat
    (Command.effect?_take_lines found false) start stop le rfl goes
  obtain ⟨clean, kept, stands⟩ := left.splitOn_eq feeds start stop
    (Page.before_append_after_removal bounds) (not_mem_of_kept single)
  exact ⟨t, typed, left.pending, left.mode, clean, kept, stands, left.register⟩

theorem typed_change_lines (ready : s.Ready) (feeds : s.host.document.text.OnlyFeeds)
    (writable : s.host.readOnly = false) (spelled : TargetKeys keys (.lines count) true)
    (flat : calls.flatten = keys) (found : s.view.lines? count = some lines)
    (single : ∀ row ∈ s.host.page.rows, '\n' ∉ row) :
    ∃ t, s.Typed calls t ∧ t.engine.pending = [] ∧ t.engine.mode = .insert ∧
      t.host.document.text.OnlyFeeds ∧
      t.host.document.text.splitOn '\n' =
        s.host.page.rows.take lines.first ++ [] :: s.host.page.rows.drop (lines.last + 1) ∧
      t.host.document.caret = ⟨lines.first, 0⟩ ∧
      t.engine.register = some (.lines (s.host.page.slice (lines.span s.host.page))) := by
  have bounds : lines.first ≤ lines.last ∧ lines.last < s.host.page.length :=
    View.lines?_bounds found
  obtain ⟨start, stop, le⟩ := Page.span_bounds bounds
  obtain ⟨t, typed, left⟩ := typed_deletion ready feeds.feedEnded writable spelled flat
    (Command.effect?_take_lines found true) start stop le rfl rfl
  obtain ⟨clean, kept, stands⟩ := left.splitOn_eq feeds start stop
    (Page.before_append_after_span lines s.host.page) (not_mem_of_blanked single)
  rw [orBlank_of_ne_nil (by simp)] at kept
  exact ⟨t, typed, left.pending, left.mode, clean, kept, stands, left.register⟩

/-- Deleting takes lines out of the list of lines, and changing puts a blank one in their place. -/
theorem lines_of_taken (s : Session OpenBuffer) (ready : s.Ready)
    (feeds : s.host.document.text.OnlyFeeds) (writable : s.host.readOnly = false)
    (keys : Text) (count : Nat) (inserts : Bool) (spelled : TargetKeys keys (.lines count) inserts)
    (calls : List Text) (flat : calls.flatten = keys) :
    let rows := s.host.document.text.splitOn '\n'
    let k := s.host.document.caret.line
    let m := min count (rows.length - k)
    ∃ t register, s.Typed calls t ∧ t.engine.pending = [] ∧
      t.engine.mode = (if inserts then .insert else .normal) ∧
      t.host.document.text.OnlyFeeds ∧
      t.host.document.text.splitOn '\n' =
        (if inserts then rows.take k ++ [] :: rows.drop (k + m)
          else orBlank (rows.take k ++ rows.drop (k + m))) ∧
      t.host.document.caret =
        (if inserts then ⟨k, 0⟩
          else ⟨min k ((t.host.document.text.splitOn '\n').length - 1), 0⟩) ∧
      t.engine.register = some register ∧ register.isWholeLine = true ∧
      register.content = ended ((rows.drop k).take m) ∧ register.lineCount = m := by
  intro rows k m
  have shown : s.host.page.rows = rows :=
    (Document.rows_page ..).trans (map_dropFeed_lines feeds)
  have single : ∀ row ∈ s.host.page.rows, '\n' ∉ row := by
    rw [shown]
    exact not_mem_of_mem_splitOn _
  obtain ⟨lines, found, first, last⟩ : ∃ lines, s.view.lines? count = some lines ∧
      lines.first = k ∧ lines.last + 1 = k + m := by
    have total : rows.length = s.view.page.length := by
      rw [← shown]
      exact Page.length_rows _
    simp only [m, total]
    exact View.lines?_eq ready.caret.1 spelled.count_pos
  have bounds : lines.first ≤ lines.last ∧ lines.last < s.host.page.length :=
    View.lines?_bounds found
  have many : lines.last + 1 = lines.first + m := by rw [first, last]
  have content := Page.content_span bounds many
  have lineCount := Page.lineCount_span bounds many single
  rw [first, shown] at content
  cases inserts with
  | false =>
    obtain ⟨t, typed, pending, mode, clean, kept, stands, register⟩ :=
      typed_delete_lines ready feeds writable spelled flat found single
    rw [← kept, first] at stands
    rw [first, last, shown] at kept
    exact ⟨t, _, typed, pending, mode, clean, kept, stands, register, rfl, content, lineCount⟩
  | true =>
    obtain ⟨t, typed, pending, mode, clean, kept, stands, register⟩ :=
      typed_change_lines ready feeds writable spelled flat found single
    rw [first] at stands
    rw [first, last, shown] at kept
    exact ⟨t, _, typed, pending, mode, clean, kept, stands, register, rfl, content, lineCount⟩

theorem lines_of_taken_past_the_end :
    let s : Session OpenBuffer := ⟨.ofConfig {}, .ofText "one\n\nthrée\n👍".toList ⟨1, 0⟩⟩
    ∃ t register, s.Typed ["2d".toList, "4d".toList] t ∧ t.engine.mode = .normal ∧
      t.host.document.text.splitOn '\n' = ["one".toList] ∧ t.host.document.caret = .zero ∧
      t.engine.register = some register ∧ register.content = "\nthrée\n👍\n".toList ∧
      register.lineCount = 3 := by
  intro s
  obtain ⟨t, register, typed, -, mode, -, left, stands, held, -, content, lineCount⟩ :=
    lines_of_taken s ⟨rfl, rfl, by decide⟩ (by decide) rfl _ _ false
      (.lines (.digit .nothing rfl) (.digit .nothing rfl)) ["2d".toList, "4d".toList] rfl
  have one : t.host.document.text.splitOn '\n' = ["one".toList] := left.trans (by decide)
  rw [one] at stands
  exact ⟨t, register, typed, mode, one, stands.trans (by decide), held, content.trans (by decide),
    lineCount.trans (by decide)⟩

end Session

end ModalEditor
