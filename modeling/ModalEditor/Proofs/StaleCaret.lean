import ModalEditor.Proofs.CutText
import ModalEditor.Proofs.Events
import ModalEditor.Proofs.Fitting

/-! # Carets that lie outside the text

A host may leave its caret where there is no text. A position past the last line then counts as one
on the last line, and this may change the order of two positions: the first is the one on the last
line, further to the right, and the other lies below it. Of all commands only a deletion or a change
upwards can take such a span out, and only if it climbs back from below the text to the last line.
-/

namespace ModalEditor

/-! ## The order of offsets -/

theorem Span.between_of_line_lt {p q : Position} (h : q.line < p.line) : between p q = ⟨q, p⟩ := by
  rw [between_comm]
  exact if_pos (.inl h)

namespace Page

variable {page : Page} {p q : Position}

/-- The ends of a span change their order once they are pulled onto the page. -/
structure Crosses (page : Page) (span : Span) : Prop where
  start : page.lastLine ≤ span.start.line
  below : span.start.line < span.stop.line
  right : span.stop.col < min span.start.col (page.width page.lastLine)

theorem not_crosses_of_stop {span : Span} (h : span.stop.line ≤ page.lastLine) :
    ¬ page.Crosses span := by
  rintro ⟨start, below, -⟩
  omega

theorem not_crosses_of_line {span : Span} (h : span.stop.line = span.start.line) :
    ¬ page.Crosses span := by
  rintro ⟨-, below, -⟩
  omega

/-- Two positions keep their order on the page, or they are on the last line in the other order. -/
theorem clamp_le_or_crosses (le : p ≤ q) :
    page.clamp p ≤ page.clamp q ∧ ¬ page.Crosses ⟨p, q⟩ ∨
      page.Crosses ⟨p, q⟩ ∧ (page.clamp q).line = (page.clamp p).line ∧
        (page.clamp q).col < (page.clamp p).col := by
  obtain ⟨l, c⟩ := p
  obtain ⟨l', c'⟩ := q
  rw [Position.le_def] at le
  simp only at le
  by_cases h : page.Crosses ⟨⟨l, c⟩, ⟨l', c'⟩⟩
  · obtain ⟨start, below, right⟩ := h
    simp only at start below right
    have last : min l page.lastLine = page.lastLine := by omega
    have last' : min l' page.lastLine = page.lastLine := by omega
    refine .inr ⟨⟨start, below, right⟩, ?_⟩
    simp only [clamp, last, last', true_and]
    omega
  · refine .inl ⟨?_, h⟩
    rcases Nat.lt_or_ge (min l page.lastLine) (min l' page.lastLine) with above | level
    · exact .inl above
    · have same : min l page.lastLine = min l' page.lastLine := by omega
      refine .inr ⟨same, ?_⟩
      simp only [clamp, same]
      by_contra crossed
      -- On one line the order can only have changed by pulling both up onto the last one.
      have below : l < l' := by omega
      have last : min l' page.lastLine = page.lastLine := by omega
      rw [last] at crossed
      exact h ⟨by simp only; omega, below, by simp only; omega⟩

end Page

namespace Text

theorem length_dropFeed_le (line : Text) : (dropFeed line).length ≤ line.length := by
  unfold dropFeed
  split
  · rw [List.length_dropLast]
    omega
  · exact Nat.le_refl _

theorem length_flatten_take_lt {row : Line} (filled : [] ∉ row) {m n : Nat} (h : m < n)
    (inside : m < row.length) : (row.take m).flatten.length < (row.take n).flatten.length := by
  have next : row.take (m + 1) = row.take m ++ [row[m]] :=
    List.take_succ_eq_append_getElem inside
  obtain ⟨more, split⟩ := List.take_prefix_take_left (l := row) (Nat.succ_le_of_lt h)
  have some : row[m] ≠ [] := fun none => filled (none ▸ List.getElem_mem inside)
  have pos := List.length_pos_iff.mpr some
  rw [← split, next, List.flatten_append, List.flatten_append, List.flatten_singleton,
    List.length_append, List.length_append]
  omega

end Text

namespace Document

open Text

variable {d : Document} {p q : Position} {span : Span}

theorem page_ne_nil (shown : Text → Text) (d : Document) : d.page shown ≠ [] := by
  rw [← List.length_pos_iff, length_page]
  exact length_lines_pos d.text

/-- The offset of a position is that of the nearest position on the page. -/
theorem offset_eq_clamp (shown : Text → Text) (d : Document) (p : Position) :
    d.offset shown p =
      (d.text.lines.take ((d.page shown).clamp p).line).flatten.length +
        (((d.page shown).line ((d.page shown).clamp p).line).take
          ((d.page shown).clamp p).col).flatten.length := by
  have some := length_lines_pos d.text
  have inside : min p.line (d.text.lines.length - 1) < d.text.lines.length := by omega
  simp only [offset, Page.clamp, Page.lastLine, Page.width, length_page, line_page inside,
    List.getElem?_eq_getElem inside, Option.getD_some]
  rw [← List.take_eq_take_min]

theorem offset_le_of_clamp_le {shown : Text → Text}
    (short : ∀ line, (shown line).length ≤ line.length)
    (h : (d.page shown).clamp p ≤ (d.page shown).clamp q) :
    d.offset shown p ≤ d.offset shown q := by
  rw [offset_eq_clamp shown d p, offset_eq_clamp shown d q]
  have onPage := Page.clamp_line_lt (d.page_ne_nil shown) p
  generalize (d.page shown).clamp p = a at h onPage ⊢
  generalize (d.page shown).clamp q = b at h ⊢
  rw [length_page] at onPage
  rcases h with above | ⟨level, left⟩
  · -- The visible part of a line ends no later than the line.
    have visible := length_flatten_take_le (shown d.text.lines[a.line]) a.col
    have whole := short d.text.lines[a.line]
    have next := List.take_succ_eq_append_getElem onPage
    obtain ⟨more, split⟩ := List.take_prefix_take_left (l := d.text.lines) (Nat.succ_le_of_lt above)
    rw [← line_page onPage] at visible
    rw [← split, next, List.flatten_append, List.flatten_append, List.flatten_singleton,
      List.length_append, List.length_append]
    omega
  · obtain ⟨more, split⟩ := List.take_prefix_take_left (l := (d.page shown).line a.line) left
    rw [← level, ← split, List.flatten_append, List.length_append]
    omega

theorem offset_lt_of_clamp_lt
    (line : ((d.page dropFeed).clamp p).line = ((d.page dropFeed).clamp q).line)
    (col : ((d.page dropFeed).clamp p).col < ((d.page dropFeed).clamp q).col) :
    d.offset dropFeed p < d.offset dropFeed q := by
  have inside := Page.clamp_col_le (d.page dropFeed) q
  have shorter := length_flatten_take_lt (d.not_mem_line_page _) col
    (Nat.lt_of_lt_of_le col inside)
  rw [offset_eq_clamp dropFeed d p, offset_eq_clamp dropFeed d q, line]
  omega

/-- The offsets of the ends of a span are in order unless the ends cross. -/
theorem offset_le_iff (le : span.start ≤ span.stop) :
    d.offset dropFeed span.start ≤ d.offset dropFeed span.stop ↔
      ¬ (d.page dropFeed).Crosses span := by
  rcases Page.clamp_le_or_crosses le with ⟨kept, straight⟩ | ⟨crosses, line, col⟩
  · exact iff_of_true (offset_le_of_clamp_le length_dropFeed_le kept) straight
  · exact iff_of_false (Nat.not_le.mpr (offset_lt_of_clamp_lt line col)) (not_not_intro crosses)

end Document

/-! ## Where a stride leads from below the text -/

namespace Motion

variable {page : Page} {separators : Separators} {m : Motion} {place : Place}

theorem line_step (page : Page) (separators : Separators) (place : Place) (h : m ≠ .up) :
    (m.step page separators place).pos.line = place.pos.line ∨
      place.pos.line < (m.step page separators place).pos.line ∧
        (m.step page separators place).pos.line < page.length := by
  have wrapped : (wrap page place.pos).line = place.pos.line ∨
      place.pos.line < (wrap page place.pos).line ∧ (wrap page place.pos).line < page.length := by
    unfold wrap
    split
    · next below => exact .inr ⟨Nat.lt_succ_self _, below⟩
    · exact .inl rfl
  cases m with
  | up => exact absurd rfl h
  | lineStart | lineEnd => exact .inl rfl
  | left | right =>
    simp only [step]
    split <;> exact .inl rfl
  | down =>
    simp only [step]
    split
    · next below => exact .inr ⟨Nat.lt_succ_self _, below⟩
    · exact .inl rfl
  | nextWordStart =>
    simp only [step]
    split
    · exact .inl (line_wordStart ..)
    · exact wrapped
  | nextWordEnd =>
    simp only [step]
    split
    · exact .inl (line_wordEnd ..)
    · exact wrapped

theorem line_walk (page : Page) (separators : Separators) (place : Place) (h : m ≠ .up)
    (times : Nat) :
    (m.walk page separators times place).pos.line = place.pos.line ∨
      place.pos.line < (m.walk page separators times place).pos.line ∧
        (m.walk page separators times place).pos.line < page.length := by
  induction times generalizing place with
  | zero => exact .inl rfl
  | succ times ih =>
    have first := line_step page separators place h
    simp only [walk]
    split
    · exact first
    · have later := ih (m.step page separators place)
      omega

/-- Upwards a walk goes one line at a time, in the column that it aims for or at the end of the
line. -/
theorem pos_walk_up {times : Nat} (some : 0 < times) (below : 0 < place.pos.line) :
    (up.walk page separators times place).pos =
      ⟨place.pos.line - times,
        min (place.aim.getD place.pos.col) (page.width (place.pos.line - times))⟩ := by
  obtain ⟨⟨l, c⟩, aim⟩ := place
  simp only at below ⊢
  induction times generalizing l c aim with
  | zero => cases some
  | succ times ih =>
    have moves : (⟨l - 1, min (aim.getD c) (page.width (l - 1))⟩ : Position) ≠ ⟨l, c⟩ := by
      rw [Ne, Position.mk.injEq]
      omega
    simp only [walk, step, if_pos below, if_neg moves]
    rcases Nat.eq_zero_or_pos times with rfl | more
    · rfl
    · rcases Nat.eq_zero_or_pos (l - 1) with top | inside
      · obtain ⟨times, rfl⟩ := Nat.exists_eq_succ_of_ne_zero (Nat.ne_of_gt more)
        have last : l - (times + 1 + 1) = 0 := by omega
        simp [walk, step, top, last]
      · rw [ih more _ _ _ inside, Nat.sub_sub, Nat.add_comm 1 times]
        rfl

theorem pos_walk_up_of_first (times : Nat) (first : place.pos.line = 0) :
    (up.walk page separators times place).pos = place.pos := by
  cases times with
  | zero => rfl
  | succ times => simp [walk, step, first]

end Motion

namespace View

variable {view : View} {stride : Stride} {span : Span} {edit : Edit}

/-- The stride climbs from below the text to its last line, and the remembered column takes it
further to the right than the caret. -/
structure ClimbsBack (view : View) (stride : Stride) : Prop where
  up : stride.motion = .up
  below : view.page.lastLine < view.caret.line
  ends : view.caret.line - stride.times = view.page.lastLine
  right : ∃ aim ∈ view.aim, view.caret.col < min aim (view.page.width view.page.lastLine)

theorem not_crosses_of_level {q : Position} (h : q.line = view.caret.line) :
    ¬ view.page.Crosses (.between view.caret q) := by
  apply Page.not_crosses_of_line
  unfold Span.between
  split
  · exact h
  · exact h.symm

theorem not_crosses_of_down {q : Position} (h : view.caret.line < q.line)
    (onPage : q.line < view.page.length) : ¬ view.page.Crosses (.between view.caret q) := by
  apply Page.not_crosses_of_stop
  rw [Span.between_comm, Span.between_of_line_lt h, Page.lastLine]
  exact Nat.le_sub_one_of_lt onPage

theorem crosses_upwards {times : Nat} :
    view.page.Crosses (.between view.caret (view.reach ⟨.up, times⟩).pos) ↔
      view.ClimbsBack ⟨.up, times⟩ := by
  by_cases moves : 0 < times ∧ 0 < view.caret.line
  · obtain ⟨some, below⟩ := moves
    have dest : (view.reach ⟨.up, times⟩).pos = ⟨view.caret.line - times,
        min (view.aim.getD view.caret.col) (view.page.width (view.caret.line - times))⟩ :=
      Motion.pos_walk_up some below
    have above : view.caret.line - times < view.caret.line := by omega
    rw [dest, Span.between_of_line_lt above]
    constructor
    · rintro ⟨start, lower, right⟩
      simp only at start lower right
      have ends : view.caret.line - times = view.page.lastLine := by
        by_contra further
        -- Below the last line there are no columns to aim for.
        have blank : view.page.line (view.caret.line - times) = [] :=
          Page.line_of_le (by rw [Page.lastLine] at *; omega)
        rw [Page.width, blank, List.length_nil, Nat.min_zero, Nat.zero_min] at right
        exact Nat.not_lt_zero _ right
      refine ⟨rfl, by omega, ends, ?_⟩
      rw [ends] at right
      cases aim : view.aim with
      | none =>
        rw [aim, Option.getD_none] at right
        omega
      | some aim' =>
        rw [aim, Option.getD_some] at right
        exact ⟨aim', rfl, by omega⟩
    · rintro ⟨-, lower, ends, aim, remembered, right⟩
      simp only at ends
      rw [remembered, Option.getD_some, ends]
      exact ⟨Nat.le_refl _, lower, by simp only; omega⟩
  · have stays : (view.reach ⟨.up, times⟩).pos = view.caret := by
      by_cases some : 0 < times
      · exact Motion.pos_walk_up_of_first times (by simp only; omega)
      · obtain rfl : times = 0 := by omega
        rfl
    refine iff_of_false (not_crosses_of_level (congrArg Position.line stays)) ?_
    rintro ⟨-, below, ends, -⟩
    simp only at ends
    omega

/-- Of the spans that strides take out, those that climb back cross. -/
theorem crosses_between_reach (view : View) (stride : Stride) :
    view.page.Crosses (.between view.caret (view.reach stride).pos) ↔ view.ClimbsBack stride := by
  obtain ⟨m, times⟩ := stride
  by_cases h : m = .up
  · subst h
    exact crosses_upwards
  · refine iff_of_false ?_ fun climbs => h climbs.up
    rcases Motion.line_walk view.page view.separators ⟨view.caret, view.aim⟩ h times with
      level | ⟨down, onPage⟩
    · exact not_crosses_of_level level
    · exact not_crosses_of_down down onPage

end View

/-! ## Edits that take text out -/

def Edit.removed? : Edit → Option Span
  | .delete span | .replace span _ => some span
  | .insert _ _ | .typeIn _ | .retype _ _ => none

namespace View

variable {view : View} {lines : Lines} {edit : Edit} {span : Span}

theorem eq_of_deletion? {wide : Span} (h : deletion? wide = some edit)
    (removes : edit.removed? = some span) : span = wide := by
  unfold deletion? at h
  split at h
  · cases h
  · cases h
    cases removes
    rfl

theorem not_crosses_cutLines (h : lines.first ≤ lines.last ∧ lines.last < view.page.length)
    (he : (view.cutLines lines).edit = some edit) (removes : edit.removed? = some span) :
    span.start ≤ span.stop ∧ ¬ view.page.Crosses span := by
  obtain ⟨-, ⟨onPage, -⟩, le, -⟩ := removal_bounds h
  obtain rfl := eq_of_deletion? he removes
  exact ⟨le, Page.not_crosses_of_stop (Nat.le_sub_one_of_lt onPage)⟩

theorem not_crosses_clearLines (h : lines.first ≤ lines.last ∧ lines.last < view.page.length)
    (he : (view.clearLines lines).edit = some edit) (removes : edit.removed? = some span) :
    span.start ≤ span.stop ∧ ¬ view.page.Crosses span := by
  obtain rfl := eq_of_deletion? he removes
  refine ⟨?_, Page.not_crosses_of_stop (Nat.le_sub_one_of_lt h.2)⟩
  rw [Position.le_def]
  simp only [Lines.span]
  omega

theorem not_crosses_replace {g : Cluster} {count : Nat} {effect : Effect}
    (hr : view.replace? g count = some effect) (he : effect.edit = some edit)
    (removes : edit.removed? = some span) : span.start ≤ span.stop ∧ ¬ view.page.Crosses span := by
  unfold replace? at hr
  simp only at hr
  split at hr
  · cases hr
  · cases hr
    cases he
    cases removes
    exact ⟨.inr ⟨rfl, Nat.le_add_right ..⟩, Page.not_crosses_of_line rfl⟩

end View

theorem View.crosses_cut {view : View} {stride : Stride} {inserts : Bool} {edit : Edit}
    {span : Span} (he : (view.cut (view.reach stride) inserts).edit = some edit)
    (removes : edit.removed? = some span) :
    span.start ≤ span.stop ∧ (view.page.Crosses span ↔ view.ClimbsBack stride) := by
  rw [edit_cut] at he
  obtain rfl := eq_of_deletion? he removes
  exact ⟨Span.between_start_le .., view.crosses_between_reach stride⟩

namespace Command

variable {command : Command} {view : View} {effect : Effect} {edit : Edit} {span : Span}

def ClimbsBack (command : Command) (view : View) : Prop :=
  ∃ inserts stride, command = .take inserts (.stride stride) ∧ view.ClimbsBack stride

theorem climbsBack_take (inserts : Bool) (stride : Stride) :
    (take inserts (.stride stride)).ClimbsBack view ↔ view.ClimbsBack stride := by
  constructor
  · rintro ⟨inserts', stride', same, climbs⟩
    cases inserts <;> cases inserts' <;> cases same <;> exact climbs
  · intro climbs
    exact ⟨inserts, stride, rfl, climbs⟩

theorem not_climbsBack_of_lines (inserts : Bool) (count : Nat) :
    ¬ (take inserts (.lines count)).ClimbsBack view := by
  rintro ⟨inserts', stride, same, -⟩
  cases inserts <;> cases inserts' <;> cases same

theorem not_climbsBack_of_replace (g : Cluster) (count : Nat) :
    ¬ (replace g count).ClimbsBack view := by
  rintro ⟨inserts, stride, same, -⟩
  cases inserts <;> cases same

theorem removed?_put {count : Nat} (he : (put count).effect? view = some effect)
    (hedit : effect.edit = some edit) : edit.removed? = none := by
  obtain ⟨register, -, -, -, rfl⟩ := of_effect?_put he
  unfold View.put at hedit
  split at hedit
  · cases hedit
    rfl
  · simp only at hedit
    split at hedit <;> cases hedit <;> rfl

/-- A command takes out a span that starts before it ends, and which crosses only if the command
climbs back. -/
theorem crosses_iff (he : command.effect? view = some effect) (hedit : effect.edit = some edit)
    (removes : edit.removed? = some span) :
    span.start ≤ span.stop ∧ (view.page.Crosses span ↔ command.ClimbsBack view) := by
  have taken : ∀ inserts target, (take inserts target).effect? view = some effect →
      span.start ≤ span.stop ∧
        (view.page.Crosses span ↔ (take inserts target).ClimbsBack view) := by
    intro inserts target he
    cases target with
    | stride stride =>
      rw [effect?_take_stride] at he
      obtain rfl := Option.some.inj he
      rw [climbsBack_take]
      exact View.crosses_cut hedit removes
    | lines count =>
      have linewise : span.start ≤ span.stop ∧ ¬ view.page.Crosses span := by
        cases inserts
        · obtain ⟨lines, hl, rfl⟩ := Option.map_eq_some_iff.mp he
          exact View.not_crosses_cutLines (View.lines?_bounds hl) hedit removes
        · obtain ⟨lines, hl, rfl⟩ := Option.map_eq_some_iff.mp he
          exact View.not_crosses_clearLines (View.lines?_bounds hl) hedit removes
      exact ⟨linewise.1, iff_of_false linewise.2 (not_climbsBack_of_lines inserts count)⟩
  cases command with
  | move _ | insert | append | appendAtEnd =>
    cases he
    cases hedit
  | delete target => exact taken false target he
  | change target => exact taken true target he
  | put count =>
    rw [removed?_put he hedit] at removes
    cases removes
  | replace g count =>
    obtain ⟨le, straight⟩ := View.not_crosses_replace he hedit removes
    exact ⟨le, iff_of_false straight (not_climbsBack_of_replace g count)⟩

end Command

/-! ## Calls -/

namespace Document

variable {d : Document} {edit : Edit} {span : Span} {reach : Document → Nat → Nat}

theorem edit_crossed (removes : edit.removed? = some span)
    (lt : d.offset Text.dropFeed span.stop < d.offset Text.dropFeed span.start) :
    d.edit Text.dropFeed reach edit = .error .crossed := by
  cases edit with
  | delete _ | replace _ _ =>
    cases removes
    simp only [Document.edit, delete, if_pos lt, Except.map]
  | insert _ _ | typeIn _ | retype _ _ => cases removes

theorem removed_of_crossed {shown : Text → Text} {why : Failure}
    (h : d.edit shown reach edit = .error why) :
    ∃ span, edit.removed? = some span ∧ d.offset shown span.stop < d.offset shown span.start := by
  cases edit with
  | delete span | replace span _ =>
    refine ⟨span, rfl, ?_⟩
    by_contra order
    simp only [Document.edit, delete, if_neg order] at h
    cases h
  | insert _ _ | typeIn _ | retype _ _ => cases h

end Document

namespace Session

variable {s u : Session OpenBuffer} {gs rest : List Cluster} {g : Cluster} {edit : Edit}
  {span : Span}

def ClimbsBack (g : Cluster) (s : Session OpenBuffer) : Prop :=
  s.engine.mode = .normal ∧ ∃ command, s.reading g = .complete command ∧ command.ClimbsBack s.view

theorem crosses_of_asks (asks : s.Asks (g :: rest) edit) (removes : edit.removed? = some span) :
    span.start ≤ span.stop ∧ (s.host.page.Crosses span ↔ s.ClimbsBack g) := by
  unfold Asks at asks
  cases hm : s.engine.mode with
  | insert =>
    simp only [hm] at asks
    subst asks
    cases removes
  | normal =>
    simp only [hm] at asks
    obtain ⟨command, effect, hr, he, hedit⟩ := asks
    obtain ⟨le, crosses⟩ := Command.crosses_iff he hedit removes
    refine ⟨le, crosses.trans ⟨fun climbs => ⟨hm, command, hr, climbs⟩, ?_⟩⟩
    rintro ⟨-, command', hr', climbs⟩
    cases hr.symm.trans hr'
    exact climbs

theorem offset_le_iff_of_asks (asks : s.Asks (g :: rest) edit)
    (removes : edit.removed? = some span) :
    s.host.document.offset Text.dropFeed span.start ≤
      s.host.document.offset Text.dropFeed span.stop ↔ ¬ s.ClimbsBack g := by
  obtain ⟨le, crosses⟩ := crosses_of_asks asks removes
  exact (Document.offset_le_iff le).trans (not_congr crosses)

theorem ClimbsBack.asks (h : s.ClimbsBack g) (rest : List Cluster) :
    ∃ edit span, s.Asks (g :: rest) edit ∧ edit.removed? = some span := by
  obtain ⟨normal, _, hr, inserts, stride, rfl, climbs⟩ := h
  have crosses := (s.view.crosses_between_reach stride).mpr climbs
  have ne : (s.view.reach stride).pos ≠ s.view.caret := by
    intro same
    rw [same] at crosses
    exact View.not_crosses_of_level rfl crosses
  have wide := Span.isEmpty_of_lt (Span.start_lt_stop_between ne.symm)
  refine ⟨.delete (.between s.view.caret (s.view.reach stride).pos), _, ?_, rfl⟩
  simp only [Asks, normal]
  refine ⟨_, _, hr, Command.effect?_take_stride .., ?_⟩
  rw [View.cut_of_ne ne]
  simp only [View.deletion?, wide, Bool.false_eq_true, if_false]

theorem readOnly_settle (s : Session OpenBuffer) : s.settle.host.readOnly = s.host.readOnly := by
  by_cases h : s.Overhangs
  · rw [settle_of_overhangs h]
    rfl
  · rw [settle_of_not_overhangs h]

theorem readOnly_carryOut (effect : Effect) (host : OpenBuffer) (s : Session OpenBuffer) :
    (s.carryOut effect host).host.readOnly = host.readOnly := by
  rw [host_carryOut]
  split <;> rfl

theorem Interprets.readOnly (h : s.Interprets gs u) : u.host.readOnly = s.host.readOnly := by
  induction h with
  | nothing => rfl
  | @cluster g gs s t u normal hp _ ih =>
    rw [ih, readOnly_settle]
    cases Pressed.of_eq hp with
    | waits _ ht | unread _ ht | unable _ _ ht => rw [ht]
    | unedited _ _ _ ht => rw [ht, readOnly_carryOut]
    | edited _ _ _ made ht =>
      obtain ⟨document, -, rfl⟩ := OpenBuffer.document_of_perform made
      rw [ht, readOnly_carryOut]

theorem Interprets.feed_append (h : s.Interprets gs u) (more : List Cluster) :
    s.feed (gs ++ more) = u.feed more := by
  induction h with
  | nothing => rfl
  | cluster normal hp _ ih => rw [List.cons_append, feed_cons_of_pressed _ normal hp, ih]

theorem feed_of_climbsBack (h : s.ClimbsBack g) (writable : s.host.readOnly = false)
    (rest : List Cluster) : (s.feed (g :: rest)).1 = some .crossed := by
  obtain ⟨edit, span, asks, removes⟩ := h.asks rest
  have order := (offset_le_iff_of_asks asks removes).not.mpr (not_not_intro h)
  have crossed : Host.perform edit s.host = (some .crossed, s.host) := by
    simp only [Host.perform, OpenBuffer.perform, writable, Bool.false_eq_true, if_false,
      Document.edit_crossed removes (Nat.not_le.mp order)]
  obtain ⟨normal, -⟩ := h
  simp only [Asks, normal] at asks
  obtain ⟨command, effect, hr, he, hedit⟩ := asks
  have refused : s.press g =
      (some .crossed, ⟨{ s.engine.extend g with aim := effect.aim }, s.host⟩) := by
    rw [press_eq]
    simp only [hr, he, hedit, crossed]
  rw [feed_cons_of_refused rest normal refused]

theorem climbsBack_of_crossed {t : Session OpenBuffer} (h : s.feed gs = (some .crossed, t)) :
    ∃ done g rest u, gs = done ++ g :: rest ∧ s.Interprets done u ∧ u.ClimbsBack g := by
  obtain ⟨done, rest, u, edit, split, before, asks, refused, -⟩ := feed_refused h
  cases rest with
  | nil => cases asks
  | cons g rest =>
    obtain ⟨span, removes, lt⟩ :=
      Document.removed_of_crossed ((OpenBuffer.eq_of_refused refused).2 rfl)
    refine ⟨done, g, rest, u, split, before, ?_⟩
    by_contra straight
    exact Nat.not_le.mpr lt ((offset_le_iff_of_asks asks removes).mpr straight)

/-- Text is taken out backwards only by a cluster that climbs back from below the text, and typed
text fails exactly at one. -/
theorem typeText_crossed_iff (s : Session OpenBuffer) (text : Text)
    (writable : s.host.readOnly = false) :
    (∀ (u : Session OpenBuffer) (g : Cluster) (rest : List Cluster) (edit : Edit) (span : Span),
      u.Asks (g :: rest) edit → edit.removed? = some span →
        (u.host.document.offset Text.dropFeed span.start ≤
          u.host.document.offset Text.dropFeed span.stop ↔ ¬ u.ClimbsBack g)) ∧
    ((s.typeText text).1 = .error .crossed ↔
      ∃ done g rest u, clusters text = done ++ g :: rest ∧ s.Interprets done u ∧
        u.ClimbsBack g) := by
  refine ⟨fun _ _ _ _ _ => offset_le_iff_of_asks, ?_, ?_⟩
  · intro failed
    unfold typeText at failed
    rcases hf : s.feed (clusters text) with ⟨_ | why, t⟩
    · rw [hf] at failed
      cases failed
    · rw [hf] at failed
      obtain rfl := Except.error.inj failed
      exact climbsBack_of_crossed hf
  · rintro ⟨done, g, rest, u, split, before, climbs⟩
    have crossed := feed_of_climbsBack climbs (before.readOnly.trans writable) rest
    rw [typeText, split, before.feed_append]
    rcases hf : u.feed (g :: rest) with ⟨failure, t⟩
    rw [hf] at crossed
    obtain rfl : failure = some .crossed := crossed
    rfl

theorem typeText_crossed_iff_below_two_lines :
    let s : Session OpenBuffer :=
      ⟨{ Engine.ofConfig {} with aim := some 9 }, .ofText "abc\nde".toList ⟨3, 0⟩⟩
    (s.typeText "dk".toList).1 = .ok [] ∧ (s.typeText "d2k".toList).1 = .error .crossed ∧
      ∃ done g rest u, clusters "d2k".toList = done ++ g :: rest ∧ s.Interprets done u ∧
        u.ClimbsBack g :=
  ⟨by decide +kernel, by decide +kernel,
    (typeText_crossed_iff _ "d2k".toList rfl).2.mp (by decide +kernel)⟩

/-- The host has moved the caret below the text. A deletion upwards takes out from the column that
was remembered to the one of the caret, which lies before it. Whole lines are deleted. -/
theorem crossed_below_text :
    let s := afterEvents [.typeText "ll".toList, .change (Host.moveCaret ⟨1, 0⟩)]
      ⟨.ofConfig {}, ({ buffer := .ofText "abc".toList .zero } : Recorder)⟩
    let d := s.host.buffer.document
    let failed := s.typeText "dk".toList
    let lines := s.typeText "dd".toList
    s.engine.mode = .normal ∧ failed.2.host.edits = [.delete ⟨⟨0, 2⟩, ⟨1, 0⟩⟩] ∧
      d.offset Text.dropFeed ⟨1, 0⟩ < d.offset Text.dropFeed ⟨0, 2⟩ ∧
      failed.1 = .error .crossed ∧ lines.1 = .ok [] ∧ lines.2.host.buffer.document.text = [] := by
  decide +kernel

end Session

end ModalEditor
