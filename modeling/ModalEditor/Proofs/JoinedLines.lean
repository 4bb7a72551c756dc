import ModalEditor.Proofs.KeyedText

/-! # Lines joined by Backspace

At the start of a line Backspace takes out the last character of the line above. If that is all of
its break, both lines become one and the caret is where they meet. A carriage return and a line feed
are one break, though, of which the carriage return is left: it still breaks the line, unless it
comes before another line feed.
-/

namespace ModalEditor

/-! ## Lines and their breaks -/

namespace Text

/-- Only carriage returns and line feeds break lines. -/
def OnlyReturns (t : Text) : Prop :=
  ∀ c ∈ t, isBreak c = true → c = '\n' ∨ c = '\r'

/-- A line can end with a break where some text comes after it. -/
inductive Breaks : Text → Text → Prop
  | feed {after : Text} : Breaks ['\n'] after
  | both {after : Text} : Breaks ['\r', '\n'] after
  | alone {after : Text} : after.head? ≠ some '\n' → Breaks ['\r'] after

/-- These are the lines of the text that they make together. -/
inductive AreLines : List Text → Prop
  | last {row : Text} : (∀ c ∈ row, isBreak c = false) → AreLines [row]
  | line {row brk : Text} {later : List Text} : (∀ c ∈ row, isBreak c = false) →
      Breaks brk later.flatten → AreLines later → AreLines ((row ++ brk) :: later)

variable {t row brk line : Text} {above below later later' : List Text}

theorem lines_append_of_row (h : ∀ c ∈ row, isBreak c = false) (ht : lines t = line :: later) :
    lines (row ++ t) = (row ++ line) :: later := by
  induction row with
  | nil => exact ht
  | cons c row ih =>
    exact lines_cons_of_not_isBreak (h c (.head _)) (ih fun d hd => h d (.tail _ hd))

theorem Breaks.lines_append (h : Breaks brk t) : lines (brk ++ t) = brk :: lines t := by
  cases h with
  | feed => exact lines_feed t
  | both => rfl
  | alone other =>
    rw [List.singleton_append, lines]
    · exact if_pos (by decide)
    · rintro rest - rfl
      exact other rfl

theorem AreLines.lines_flatten (h : AreLines later) : lines later.flatten = later := by
  induction h with
  | last row =>
    rw [List.flatten_singleton]
    exact lines_row row
  | line row breaks _ ih =>
    rw [List.flatten_cons, List.append_assoc]
    rw [lines_append_of_row row breaks.lines_append, ih]

theorem AreLines.prepend (h : AreLines (line :: later)) (hrow : ∀ c ∈ row, isBreak c = false) :
    AreLines ((row ++ line) :: later) := by
  cases h with
  | last unbroken => exact .last (List.forall_mem_append.mpr ⟨hrow, unbroken⟩)
  | line unbroken breaks lines =>
    rw [← List.append_assoc]
    exact .line (List.forall_mem_append.mpr ⟨hrow, unbroken⟩) breaks lines

theorem AreLines.blank (breaks : Breaks brk later.flatten) (lines : AreLines later) :
    AreLines (brk :: later) :=
  .line (List.forall_mem_nil _) breaks lines

theorem areLines_lines (h : OnlyReturns t) : AreLines t.lines := by
  fun_induction lines t with
  | case1 => exact .last (List.forall_mem_nil _)
  | case2 rest ih =>
    exact .blank .both (ih fun c mem => h c (.tail _ (.tail _ mem)))
  | case3 c rest apart breaks ih =>
    have later := ih fun d mem => h d (.tail _ mem)
    rcases h c (.head _) breaks with rfl | rfl
    · exact .blank .feed later
    · -- with a line feed behind it the carriage return would not be a break of its own
      refine .blank (.alone ?_) later
      rw [flatten_lines]
      intro feed
      obtain ⟨rest', rfl⟩ := List.head?_eq_some_iff.mp feed
      exact apart rest' rfl rfl
  | case4 c rest _ _ none => exact absurd none (lines_ne_nil rest)
  | case5 c rest _ unbroken line later hl ih =>
    have rest := ih fun d mem => h d (.tail _ mem)
    rw [hl] at rest
    have single : ∀ d ∈ [c], isBreak d = false := by simpa using unbroken
    exact rest.prepend single

theorem AreLines.ne_nil (h : AreLines later) : later ≠ [] := by
  cases h <;> exact List.cons_ne_nil _ _

theorem Breaks.ne_nil (h : Breaks brk t) : brk ≠ [] := by
  cases h <;> exact List.cons_ne_nil _ _

theorem Breaks.congr {t' : Text} (h : Breaks brk t)
    (feed : t'.head? = some '\n' → t.head? = some '\n') :
    Breaks brk t' := by
  cases h with
  | feed => exact .feed
  | both => exact .both
  | alone other => exact .alone fun first => other (feed first)

theorem AreLines.exists_break (h : AreLines (line :: later)) (some : later ≠ []) :
    AreLines later ∧ ∃ row brk, line = row ++ brk ∧ (∀ c ∈ row, isBreak c = false) ∧
      Breaks brk later.flatten := by
  cases h with
  | last _ => exact absurd rfl some
  | line unbroken breaks lines => exact ⟨lines, _, _, rfl, unbroken, breaks⟩

theorem AreLines.line_ne_nil (h : AreLines (line :: later)) (some : later ≠ []) : line ≠ [] := by
  obtain ⟨-, row, brk, rfl, -, breaks⟩ := h.exists_break some
  exact List.append_ne_nil_of_right_ne_nil _ breaks.ne_nil

theorem AreLines.of_append (h : AreLines (above ++ later)) (some : later ≠ []) :
    AreLines later := by
  induction above with
  | nil => exact h
  | cons line above ih =>
    exact ih (h.exists_break (List.append_ne_nil_of_right_ne_nil _ some)).1

/-- The last lines can be exchanged, unless a line feed comes behind a carriage return. -/
theorem AreLines.exchange (h : AreLines (above ++ later)) (some : later ≠ [])
    (h' : AreLines later')
    (feed : later'.flatten.head? = Option.some '\n' → later.flatten.head? = Option.some '\n') :
    AreLines (above ++ later') := by
  induction above with
  | nil => exact h'
  | cons line above ih =>
    rw [List.cons_append] at h ⊢
    obtain ⟨lines, row, brk, rfl, unbroken, breaks⟩ :=
      h.exists_break (List.append_ne_nil_of_right_ne_nil _ some)
    refine .line unbroken (breaks.congr ?_) (ih lines)
    rw [List.flatten_append, List.flatten_append, List.head?_append, List.head?_append]
    cases above.flatten.head? with
    | none => exact feed
    | some c => exact id

theorem eq_nil_of_head?_feed (unbroken : ∀ c ∈ row, isBreak c = false)
    (feed : (row ++ t).head? = some '\n') : row = [] ∧ t.head? = some '\n' := by
  cases row with
  | nil => exact ⟨rfl, feed⟩
  | cons c row =>
    obtain rfl : c = '\n' := Option.some.inj feed
    exact absurd (unbroken _ (.head _)) (by decide)

theorem AreLines.exchange_return (h : AreLines (above ++ later)) (some : later ≠ [])
    (unbroken : ∀ c ∈ row, isBreak c = false) (h' : AreLines ((row ++ '\r' :: brk) :: later')) :
    AreLines (above ++ (row ++ '\r' :: brk) :: later') := by
  -- Nothing that begins with the row, or with a carriage return, begins with a line feed.
  refine h.exchange some h' fun feed => ?_
  rw [List.flatten_cons, List.append_assoc] at feed
  cases (eq_nil_of_head?_feed unbroken feed).2

/-- Only a line that is nothing but a line feed begins with one. -/
theorem AreLines.eq_feed (h : AreLines (line :: later))
    (feed : (line :: later).flatten.head? = some '\n') : line = ['\n'] ∧ AreLines later := by
  cases h with
  | last unbroken =>
    obtain ⟨-, feed⟩ := eq_nil_of_head?_feed unbroken feed
    cases feed
  | line unbroken breaks lines =>
    rw [List.flatten_cons, List.append_assoc] at feed
    obtain ⟨rfl, feed⟩ := eq_nil_of_head?_feed unbroken feed
    cases breaks with
    | feed => exact ⟨rfl, lines⟩
    | both | alone _ => cases feed

/-! ## What a line shows -/

theorem dropReturns_concat {c : Char} (returns : c = '\n' ∨ c = '\r') (t : Text) :
    dropReturns (t ++ [c]) = dropReturns t := by
  rw [dropReturns_eq, List.rdropWhile_concat_pos _ _ _ (by simpa using returns), ← dropReturns_eq]

theorem append_return_feed (row : Text) : row ++ ['\r', '\n'] = row ++ ['\r'] ++ ['\n'] :=
  (List.append_assoc row ['\r'] ['\n']).symm

theorem dropReturns_line (unbroken : ∀ c ∈ row, isBreak c = false) (h : Breaks brk t) :
    dropReturns (row ++ brk) = row := by
  cases h with
  | feed => rw [dropReturns_concat (.inl rfl), dropReturns_row unbroken]
  | both =>
    rw [append_return_feed, dropReturns_concat (.inl rfl), dropReturns_concat (.inr rfl),
      dropReturns_row unbroken]
  | alone _ => rw [dropReturns_concat (.inr rfl), dropReturns_row unbroken]

theorem AreLines.dropReturns_prepend (h : AreLines (line :: later))
    (hrow : ∀ c ∈ row, isBreak c = false) :
    dropReturns (row ++ line) = row ++ dropReturns line := by
  cases h with
  | last unbroken =>
    rw [dropReturns_row unbroken, dropReturns_row (List.forall_mem_append.mpr ⟨hrow, unbroken⟩)]
  | line unbroken breaks _ =>
    rw [dropReturns_line unbroken breaks, ← List.append_assoc,
      dropReturns_line (List.forall_mem_append.mpr ⟨hrow, unbroken⟩) breaks]

end Text

namespace Document

open Text

variable {line : Text} {above later : List Text} {n : Nat}

theorem locate_append (some : later ≠ []) (n : Nat) :
    locate (above ++ later) (above.flatten.length + n) =
      ⟨above.length + (locate later n).line, (locate later n).col⟩ := by
  induction above with
  | nil => simp
  | cons line above ih =>
    obtain ⟨next, rest, split⟩ :=
      List.exists_cons_of_ne_nil (List.append_ne_nil_of_right_ne_nil above some)
    rw [split] at ih
    have past : ¬ (line :: above).flatten.length + n < line.length := by
      rw [List.flatten_cons, List.length_append]
      omega
    have left : (line :: above).flatten.length + n - line.length = above.flatten.length + n := by
      rw [List.flatten_cons, List.length_append]
      omega
    rw [List.cons_append, split, locate]
    · rw [if_neg past, left, ih, List.length_cons, Nat.add_right_comm]
    · exact List.cons_ne_nil _ _

theorem locate_inside (h : n < line.length ∨ later = []) :
    locate (line :: later) n = ⟨0, columns (line.take n)⟩ := by
  cases later with
  | nil => rfl
  | cons next later => exact if_pos (h.resolve_right (List.cons_ne_nil _ _))

theorem locate_zero (h : AreLines later) : locate later 0 = .zero := by
  cases h with
  | last _ => rfl
  | line _ breaks _ =>
    exact locate_inside (.inl (List.length_pos_iff.mpr
      (List.append_ne_nil_of_right_ne_nil _ breaks.ne_nil)))

theorem locate_length (h : AreLines later) : locate (line :: later) line.length = ⟨1, 0⟩ := by
  have behind : locate ([line] ++ later) ([line].flatten.length + 0) = _ :=
    locate_append h.ne_nil 0
  rw [locate_zero h] at behind
  simpa [Position.zero] using behind

/-- Backspace at the start of a line takes the last character of the line above. -/
theorem erase_start {d : Document} {cut : Text} {c : Char}
    (split : d.text.lines = above ++ (cut ++ [c]) :: later) (some : later ≠ [])
    (caret : d.caret = ⟨above.length + 1, 0⟩) :
    d.erase = ⟨(above ++ cut :: later).flatten,
      locate (lines (above ++ cut :: later).flatten) (above.flatten.length + cut.length)⟩ := by
  have inside : min (above.length + 1) (d.text.lines.length - 1) = above.length + 1 := by
    have := List.length_pos_iff.mpr some
    rw [split, List.length_append, List.length_cons]
    omega
  have taken : d.text.lines.take (above.length + 1) = above ++ [cut ++ [c]] := by
    rw [split, List.take_length_add_append]
    rfl
  have offset : d.offset dropReturns d.caret = above.flatten.length + cut.length + 1 := by
    simp only [offset, caret, inside, taken, List.take_zero, List.flatten_nil, List.length_nil,
      List.flatten_append, List.flatten_singleton, List.length_append, List.length_singleton]
    omega
  have reach : ClampedBuffer.reach d 1 = above.flatten.length + cut.length := by
    rw [ClampedBuffer.reach, if_pos ⟨by rw [caret], Nat.one_pos⟩, offset, Nat.add_sub_cancel]
  have text : d.text = above.flatten ++ cut ++ ([c] ++ later.flatten) := by
    rw [← flatten_lines d.text, split]
    simp
  have left : (d.splice (above.flatten.length + cut.length) (above.flatten.length + cut.length + 1)
      []).text = (above ++ cut :: later).flatten := by
    rw [text_splice, text, ← List.length_append, List.take_left, ← List.drop_drop, List.drop_left]
    simp
  rw [erase, reach, offset, enter, position, left]
  rfl

theorem columns_concat_return (row : Text) : columns (row ++ ['\r']) = columns row + 1 := by
  have boundary (ending : Ending) : (segment ending ['\r']).2.length = 1 := by
    cases ending <;> rfl
  have whole := length_segment_append .closed row ['\r']
  rwa [boundary] at whole

section Breaks

variable {d : Document} {row next : Text} {below : List Text} {c : Char}

/-- The line feed or the carriage return above was all of a break: the lines meet. -/
theorem erase_joined (split : d.text.lines = above ++ (row ++ [c]) :: next :: below)
    (unbroken : ∀ c ∈ row, isBreak c = false) (breaks : Breaks [c] (next :: below).flatten)
    (whole : AreLines d.text.lines) (caret : d.caret = ⟨above.length + 1, 0⟩) :
    lines d.erase.text = above ++ (row ++ next) :: below ∧
      d.erase.caret = ⟨above.length, columns row⟩ := by
  rw [split] at whole
  have later := (whole.of_append (List.cons_ne_nil _ _)).exists_break (List.cons_ne_nil _ _)
  have lines' : AreLines (above ++ (row ++ next) :: below) := by
    refine whole.exchange (List.cons_ne_nil _ _) (later.1.prepend unbroken) fun feed => ?_
    rw [List.flatten_cons, List.append_assoc] at feed ⊢
    obtain ⟨rfl, feed⟩ := eq_nil_of_head?_feed unbroken feed
    cases breaks with
    | feed => rfl
    | alone other => exact absurd feed other
  have flat : (above ++ row :: next :: below).flatten =
      (above ++ (row ++ next) :: below).flatten := by simp
  have meets : row.length < (row ++ next).length ∨ below = [] := by
    by_cases last : below = []
    · exact .inr last
    · have some := List.length_pos_iff.mpr (later.1.line_ne_nil last)
      rw [List.length_append]
      omega
  rw [erase_start split (List.cons_ne_nil _ _) caret, flat, lines'.lines_flatten,
    locate_append (List.cons_ne_nil _ _), locate_inside meets, List.take_left]
  exact ⟨rfl, rfl⟩

/-- The carriage return still ends the line. -/
theorem erase_kept (split : d.text.lines = above ++ (row ++ ['\r', '\n']) :: next :: below)
    (unbroken : ∀ c ∈ row, isBreak c = false) (other : next ≠ ['\n'])
    (whole : AreLines d.text.lines) (caret : d.caret = ⟨above.length + 1, 0⟩) :
    lines d.erase.text = above ++ (row ++ ['\r']) :: next :: below ∧
      d.erase.caret = ⟨above.length + 1, 0⟩ := by
  rw [split] at whole
  have later := (whole.of_append (List.cons_ne_nil _ _)).exists_break (List.cons_ne_nil _ _)
  have lines' : AreLines (above ++ (row ++ ['\r']) :: next :: below) :=
    whole.exchange_return (List.cons_ne_nil _ _) unbroken
      (.line unbroken (.alone fun feed => other (later.1.eq_feed feed).1) later.1)
  rw [append_return_feed] at split
  rw [erase_start split (List.cons_ne_nil _ _) caret, lines'.lines_flatten,
    locate_append (List.cons_ne_nil _ _), locate_length later.1]
  exact ⟨rfl, rfl⟩

/-- The carriage return forms a break with the line feed that comes next, and the caret is in the
middle of it. -/
theorem erase_feed (split : d.text.lines = above ++ (row ++ ['\r', '\n']) :: ['\n'] :: below)
    (unbroken : ∀ c ∈ row, isBreak c = false)
    (whole : AreLines d.text.lines) (caret : d.caret = ⟨above.length + 1, 0⟩) :
    lines d.erase.text = above ++ (row ++ ['\r', '\n']) :: below ∧
      d.erase.caret = ⟨above.length, columns row + 1⟩ := by
  rw [split] at whole
  have later := (whole.of_append (List.cons_ne_nil _ _)).exists_break (List.cons_ne_nil _ _)
  have lines' : AreLines (above ++ (row ++ ['\r', '\n']) :: below) :=
    whole.exchange_return (List.cons_ne_nil _ _) unbroken
      (.line unbroken .both (later.1.eq_feed rfl).2)
  have flat : (above ++ (row ++ ['\r']) :: ['\n'] :: below).flatten =
      (above ++ (row ++ ['\r', '\n']) :: below).flatten := by simp
  have inside : (row ++ ['\r']).length < (row ++ ['\r', '\n']).length := by simp
  rw [append_return_feed] at split
  rw [erase_start split (List.cons_ne_nil _ _) caret, flat, lines'.lines_flatten,
    locate_append (List.cons_ne_nil _ _), locate_inside (.inl inside), append_return_feed,
    List.take_left, columns_concat_return]
  exact ⟨rfl, rfl⟩

end Breaks

end Document

/-! ## What the host shows -/

namespace Text

variable {t row brk : Text}

theorem exists_lines_split (returns : OnlyReturns t) {l : Nat} (below : l + 1 < t.lines.length) :
    ∃ above row brk next later, t.lines = above ++ (row ++ brk) :: next :: later ∧
      above.length = l ∧ (∀ c ∈ row, isBreak c = false) ∧ Breaks brk (next :: later).flatten := by
  have split :
      t.lines = t.lines.take l ++ t.lines[l] :: t.lines[l + 1] :: t.lines.drop (l + 2) := by
    rw [← List.drop_eq_getElem_cons below, ← List.drop_eq_getElem_cons (Nat.lt_of_succ_lt below),
      List.take_append_drop]
  have whole := areLines_lines returns
  rw [split] at whole
  obtain ⟨-, row, brk, line, unbroken, breaks⟩ :=
    (whole.of_append (List.cons_ne_nil _ _)).exists_break (List.cons_ne_nil _ _)
  exact ⟨t.lines.take l, row, brk, _, _, line ▸ split,
    List.length_take_of_le (by omega), unbroken, breaks⟩

theorem Breaks.eq_both (h : Breaks brk t) (unbroken : ∀ c ∈ row, isBreak c = false) {cut : Text}
    (line : row ++ brk = cut ++ ['\r', '\n']) : brk = ['\r', '\n'] := by
  rw [append_return_feed] at line
  cases h with
  | feed =>
    obtain rfl := List.append_cancel_right line
    exact absurd (unbroken '\r' (List.mem_append_right _ (.head _))) (by decide)
  | both => rfl
  | alone _ =>
    have last := congrArg List.getLast? line
    rw [List.getLast?_concat, List.getLast?_concat] at last
    exact absurd last (by decide)

end Text

def Page.rowsJoined (page : Page) (l : Nat) : List Text :=
  page.rows.take l ++
    ((page.line l).flatten ++ (page.line (l + 1)).flatten) :: page.rows.drop (l + 2)

namespace Document

open Text

/-- A line and the next have become one, and the caret is where they meet. -/
structure Joins (l : Nat) (d d' : Document) : Prop where
  rows : (d'.page dropReturns).rows = (d.page dropReturns).rowsJoined l
  caret : d'.caret = ⟨l, (d.page dropReturns).width l⟩
  onPage : (d'.page dropReturns).Holds d'.caret

variable {d : Document} {above below : List Text} {row brk next t : Text}

theorem line_page_append (split : d.text.lines = above ++ next :: below) :
    (d.page dropReturns).line above.length = clusters (dropReturns next) := by
  have inside : above.length < d.text.lines.length := by
    rw [split, List.length_append, List.length_cons]
    omega
  rw [line_page inside]
  simp [split]

theorem rows_page_append (split : d.text.lines = above ++ next :: below) :
    (d.page dropReturns).rows =
      above.map dropReturns ++ dropReturns next :: below.map dropReturns := by
  rw [rows_page, split, List.map_append, List.map_cons]

section Break

variable (split : d.text.lines = above ++ (row ++ brk) :: next :: below)
  (unbroken : ∀ c ∈ row, isBreak c = false) (breaks : Breaks brk (next :: below).flatten)

include split unbroken breaks

theorem width_above : (d.page dropReturns).width above.length = columns row := by
  rw [Page.width, line_page_append split, dropReturns_line unbroken breaks, columns]

theorem rowsJoined_eq :
    (d.page dropReturns).rowsJoined above.length =
      above.map dropReturns ++ (row ++ dropReturns next) :: below.map dropReturns := by
  have second : (d.page dropReturns).line (above.length + 1) = clusters (dropReturns next) := by
    have split' : d.text.lines = (above ++ [row ++ brk]) ++ next :: below := by
      rw [split, List.append_assoc, List.singleton_append]
    have line := line_page_append split'
    rwa [List.length_append, List.length_singleton] at line
  have length : (above.map dropReturns).length = above.length := List.length_map _
  rw [Page.rowsJoined, line_page_append split, second, flatten_clusters, flatten_clusters,
    rows_page_append split, dropReturns_line unbroken breaks, List.map_cons, ← length,
    List.take_left, List.drop_length_add_append]
  rfl

end Break

section Erase

variable (whole : AreLines d.text.lines) (unbroken : ∀ c ∈ row, isBreak c = false)
  (caret : d.caret = ⟨above.length + 1, 0⟩)

include whole unbroken caret

theorem joins_erase {c : Char} (split : d.text.lines = above ++ (row ++ [c]) :: next :: below)
    (breaks : Breaks [c] (next :: below).flatten) : Joins above.length d d.erase := by
  obtain ⟨lines, there⟩ := erase_joined split unbroken breaks whole caret
  have later := ((split ▸ whole).of_append (List.cons_ne_nil _ _)).exists_break
    (List.cons_ne_nil _ _)
  have shown := later.1.dropReturns_prepend unbroken
  refine ⟨?_, ?_, ?_⟩
  · rw [rowsJoined_eq split unbroken breaks, rows_page_append lines, shown]
  · rw [there, width_above split unbroken breaks]
  · rw [there]
    constructor
    · rw [length_page, lines, List.length_append]
      exact Nat.lt_add_of_pos_right (Nat.succ_pos _)
    · rw [Page.width, line_page_append lines, shown]
      exact columns_le_append _ _

theorem stays_erase (split : d.text.lines = above ++ (row ++ ['\r', '\n']) :: next :: below)
    (other : next ≠ ['\n']) :
    (d.erase.page dropReturns).rows = (d.page dropReturns).rows ∧ d.erase.caret = d.caret := by
  obtain ⟨lines, there⟩ := erase_kept split unbroken other whole caret
  have alone : dropReturns (row ++ ['\r']) = row := by
    rw [dropReturns_concat (.inr rfl), dropReturns_row unbroken]
  have both : dropReturns (row ++ ['\r', '\n']) = row :=
    dropReturns_line unbroken (t := []) .both
  exact ⟨by rw [rows_page_append lines, rows_page_append split, alone, both],
    there.trans caret.symm⟩

theorem overhangs_erase
    (split : d.text.lines = above ++ (row ++ ['\r', '\n']) :: ['\n'] :: below) :
    (d.erase.page dropReturns).rows = (d.page dropReturns).rowsJoined above.length ∧
      d.erase.caret = ⟨above.length, (d.page dropReturns).width above.length + 1⟩ := by
  obtain ⟨lines, there⟩ := erase_feed split unbroken whole caret
  have both : dropReturns (row ++ ['\r', '\n']) = row :=
    dropReturns_line unbroken (t := []) .both
  rw [rowsJoined_eq split unbroken .both, rows_page_append lines, both, there,
    width_above split unbroken .both]
  exact ⟨by rw [show dropReturns ['\n'] = [] from rfl, List.append_nil], rfl⟩

end Erase

theorem erase_cases {l : Nat} (returns : OnlyReturns d.text) (caret : d.caret = ⟨l + 1, 0⟩)
    (below : l + 1 < d.text.lines.length) :
    (Joins l d d.erase ↔ ¬ ∃ row, d.text.lines[l]? = some (row ++ ['\r', '\n'])) ∧
      ((∃ row, d.text.lines[l]? = some (row ++ ['\r', '\n'])) →
        (d.text.lines[l + 1]? ≠ some ['\n'] →
          (d.erase.page dropReturns).rows = (d.page dropReturns).rows ∧ d.erase.caret = d.caret) ∧
        (d.text.lines[l + 1]? = some ['\n'] →
          (d.erase.page dropReturns).rows = (d.page dropReturns).rowsJoined l ∧
            d.erase.caret = ⟨l, (d.page dropReturns).width l + 1⟩)) := by
  obtain ⟨above, row, brk, next, later, split, rfl, unbroken, breaks⟩ :=
    exists_lines_split returns below
  have whole := areLines_lines returns
  have here : d.text.lines[above.length]? = some (row ++ brk) := by simp [split]
  have behind : d.text.lines[above.length + 1]? = some next := by simp [split]
  have ends : (∃ cut, d.text.lines[above.length]? = some (cut ++ ['\r', '\n'])) ↔
      brk = ['\r', '\n'] := by
    rw [here]
    constructor
    · rintro ⟨cut, line⟩
      exact breaks.eq_both unbroken (Option.some.inj line)
    · rintro rfl
      exact ⟨row, rfl⟩
  rw [ends, behind, ne_eq, Option.some_inj]
  have known := breaks
  -- One character takes the whole break away, unless it has two.
  cases breaks with
  | feed | alone _ =>
    have other (c : Char) : [c] ≠ ['\r', '\n'] := by simp
    exact ⟨iff_of_true (joins_erase whole unbroken caret split known) (other _),
      fun both => absurd both (other _)⟩
  | both =>
    have stays := stays_erase whole unbroken caret split
    refine ⟨iff_of_false ?_ (not_not_intro rfl), fun _ => ⟨fun other => stays other, ?_⟩⟩
    · intro joins
      by_cases feed : next = ['\n']
      · subst feed
        have col := (overhangs_erase whole unbroken caret split).2.symm.trans joins.caret
        simp only [Position.mk.injEq] at col
        omega
      · have line := (stays feed).2.symm.trans joins.caret
        simp only [caret, Position.mk.injEq] at line
        omega
    · rintro rfl
      exact overhangs_erase whole unbroken caret split

end Document

theorem Text.FeedEnded.onlyReturns {t : Text} (h : FeedEnded t) : OnlyReturns t := by
  fun_induction lines t with
  | case1 => exact List.forall_mem_nil _
  | case2 rest ih =>
    rw [FeedEnded, lines, List.dropLast_cons_of_ne_nil (lines_ne_nil rest)] at h
    obtain ⟨-, later⟩ := List.forall_mem_cons.mp h
    intro d mem breaks
    rcases List.mem_cons.mp mem with rfl | mem
    · exact .inr rfl
    · rcases List.mem_cons.mp mem with rfl | mem
      · exact .inl rfl
      · exact ih later d mem breaks
  | case3 c rest apart breaks ih =>
    rw [FeedEnded, lines, if_pos breaks, List.dropLast_cons_of_ne_nil (lines_ne_nil rest)] at h
    · obtain ⟨feed, later⟩ := List.forall_mem_cons.mp h
      refine List.forall_mem_cons.mpr ⟨fun _ => .inl (Option.some.inj feed), ih later⟩
    · exact apart
  | case4 c rest _ _ none => exact absurd none (lines_ne_nil rest)
  | case5 c rest apart unbroken line later hl ih =>
    rw [FeedEnded, lines, if_neg unbroken, hl] at h
    · refine List.forall_mem_cons.mpr ⟨fun breaks => absurd breaks unbroken, ih ?_⟩
      rw [FeedEnded, hl]
      cases later with
      | nil => exact List.forall_mem_nil _
      | cons next later =>
        obtain ⟨ends, later⟩ := List.forall_mem_cons.mp h
        refine List.forall_mem_cons.mpr ⟨?_, later⟩
        cases line with
        | nil =>
          obtain rfl : c = '\n' := Option.some.inj ends
          exact absurd rfl unbroken
        | cons d line => exact ends
    · exact apart

namespace Console

open Text

variable {console : Console} {l : Nat}

/-- Backspace at the start of a line joins it with the line above exactly if that does not end with
a carriage return and a line feed. If it does, the carriage return is left. -/
theorem joins_backspace_iff {text : Text} (breaks : text.FeedEnded) {keys : List Key}
    (typed : ∀ key ∈ keys, key.Over fun c => isBreak c = false)
    (reached : console = (ofText text).afterKeys keys)
    (insert : console.session.engine.mode = .insert)
    (caret : console.session.host.document.caret = ⟨l + 1, 0⟩) :
    let document := console.session.host.document
    let document' := (console.press .backspace).2.session.host.document
    (document.Joins l document' ↔ ¬ ∃ row, document.text.lines[l]? = some (row ++ ['\r', '\n'])) ∧
      ((∃ row, document.text.lines[l]? = some (row ++ ['\r', '\n'])) →
        (document.text.lines[l + 1]? ≠ some ['\n'] →
          (document'.page dropReturns).rows = (document.page dropReturns).rows ∧
            document'.caret = document.caret) ∧
        (document.text.lines[l + 1]? = some ['\n'] →
          (document'.page dropReturns).rows = (document.page dropReturns).rowsJoined l ∧
            document'.caret = ⟨l, (document.page dropReturns).width l + 1⟩)) := by
  intro document document'
  have written : console.session.Over fun c => isBreak c = true → c = '\n' ∨ c = '\r' := by
    rw [reached]
    refine written_afterKeys (fun _ => .inl rfl) (Session.written_ofText breaks.onlyReturns) ?_
    intro key mem c hc
    rw [typed key mem c hc]
    exact fun same => absurd same Bool.false_ne_true
  have onLine : console.session.host.OnLine := by
    rw [reached]
    exact ((inStep_ofText text).pressAll keys).steady.onLine
  have there : document' = document.erase := by
    simp only [document', session_press, handle_backspace insert,
      Session.retype_of_insert insert, document]
  have below : l + 1 < document.text.lines.length := by
    have line : document.caret.line < (document.page dropReturns).length := onLine
    rwa [caret, Document.length_page] at line
  rw [there]
  exact Document.erase_cases written.text caret below

theorem joins_backspace_below_return :
    let text : Text := "a\r\nbc\nd".toList
    let keys : List Key := [.down, .down, .char 'i']
    let console := (ofText text).afterKeys keys
    text.FeedEnded ∧ (∀ key ∈ keys, key.Over fun c => isBreak c = false) ∧
      console.session.engine.mode = .insert ∧ console.session.host.document.caret = ⟨2, 0⟩ ∧
      console.session.host.document.text.lines[1]? = some "bc\n".toList ∧
      console.session.host.document.Joins 1 (console.press .backspace).2.session.host.document := by
  intro text keys console
  have breaks : text.FeedEnded := by decide
  have typed : ∀ key ∈ keys, key.Over fun c => isBreak c = false := by decide
  have insert : console.session.engine.mode = .insert := by decide +kernel
  have caret : console.session.host.document.caret = ⟨2, 0⟩ := by decide +kernel
  have line : console.session.host.document.text.lines[1]? = some "bc\n".toList := by
    decide +kernel
  obtain ⟨joins, -⟩ := joins_backspace_iff breaks typed (Eq.refl console) insert caret
  refine ⟨breaks, typed, insert, caret, line, joins.mpr ?_⟩
  rintro ⟨row, ends⟩
  rw [line, append_return_feed] at ends
  have before := congrArg (fun t : Text => t.dropLast.getLast?) (Option.some.inj ends)
  simp only [List.dropLast_concat, List.getLast?_concat] at before
  exact absurd before (by decide)

/-- Backspace leaves the carriage return of a break, so the lines do not become one; or they do, and
the caret is past the end. -/
theorem backspace_leaves_return :
    let keys : List Key := [.down, .char 'i']
    let first := (ofText "a\r\nb".toList).afterKeys keys
    let second := (ofText "a\r\n\nb".toList).afterKeys keys
    let first' := (first.press .backspace).2.session.host.document
    let second' := (second.press .backspace).2.session.host.document
    FeedEnded "a\r\nb".toList ∧ FeedEnded "a\r\n\nb".toList ∧
      (∀ key ∈ keys, key.Over fun c => isBreak c = false) ∧
      first.session.engine.mode = .insert ∧ first.session.host.document.caret = ⟨1, 0⟩ ∧
      first' = ⟨"a\rb".toList, ⟨1, 0⟩⟩ ∧ ¬ first.session.host.document.Joins 0 first' ∧
      second.session.engine.mode = .insert ∧ second.session.host.document.caret = ⟨1, 0⟩ ∧
      second' = ⟨"a\r\nb".toList, ⟨0, 2⟩⟩ ∧ ¬ second.session.host.document.Joins 0 second' := by
  intro keys first second first' second'
  have kept : first' = ⟨"a\rb".toList, ⟨1, 0⟩⟩ := by decide +kernel
  have past : second' = ⟨"a\r\nb".toList, ⟨0, 2⟩⟩ := by decide +kernel
  refine ⟨by decide, by decide, by decide, by decide +kernel, by decide +kernel, kept, ?_,
    by decide +kernel, by decide +kernel, past, ?_⟩
  · intro joins
    have line := congrArg Position.line joins.caret
    rw [kept] at line
    cases line
  · intro joins
    have col := joins.onPage.col
    rw [past] at col
    exact absurd col (by decide +kernel)

end Console

end ModalEditor
