import ModalEditor.Proofs.OnPage
import ModalEditor.Proofs.Rows

/-! # The flat text of a page

The lines of a page joined by line feeds are its flat text. A position on the page divides it into
the text before the position and the text after, and a slice of the page is what lies between. A
document whose breaks all end in a line feed is the flat text of its page, and offsets measure the
text before positions.
-/

namespace ModalEditor

namespace Text

def ended (rows : List Text) : Text :=
  rows.flatMap fun row => row ++ ['\n']

def joined (rows : List Text) : Text :=
  ['\n'].intercalate rows

@[simp] theorem ended_nil : ended [] = [] := rfl

@[simp] theorem ended_cons (row : Text) (rows : List Text) :
    ended (row :: rows) = row ++ '\n' :: ended rows := by
  simp [ended]

@[simp] theorem ended_append (a b : List Text) : ended (a ++ b) = ended a ++ ended b :=
  List.flatMap_append

theorem joined_append (a : List Text) {b : List Text} (h : b ≠ []) :
    joined (a ++ b) = ended a ++ joined b := by
  induction a with
  | nil => rfl
  | cons row a ih =>
    have more : a ++ b ≠ [] := List.append_ne_nil_of_right_ne_nil a h
    rw [joined, List.cons_append, List.intercalate_cons_of_ne_nil more, ← joined, ih, ended_cons]
    simp

@[simp] theorem joined_singleton (row : Text) : joined [row] = row :=
  List.intercalate_singleton

theorem joined_concat (a : List Text) (row : Text) : joined (a ++ [row]) = ended a ++ row := by
  rw [joined_append a (List.cons_ne_nil row []), joined_singleton]

theorem joined_cons (row : Text) {rows : List Text} (h : rows ≠ []) :
    joined (row :: rows) = row ++ '\n' :: joined rows := by
  rw [← List.singleton_append, joined_append [row] h]
  simp

theorem ended_eq_joined {rows : List Text} (h : rows ≠ []) : ended rows = joined rows ++ ['\n'] := by
  rcases List.eq_nil_or_concat rows with rfl | ⟨above, row, rfl⟩
  · exact absurd rfl h
  · rw [List.concat_eq_append, joined_concat]
    simp

/-- There is always a line, if only a blank one. -/
def orBlank (rows : List Text) : List Text :=
  if rows = [] then [[]] else rows

theorem orBlank_of_ne_nil {rows : List Text} (h : rows ≠ []) : orBlank rows = rows :=
  if_neg h

theorem length_orBlank (rows : List Text) : (orBlank rows).length = max rows.length 1 := by
  unfold orBlank
  split
  · next empty =>
    rw [empty]
    rfl
  · next some =>
    have := List.length_pos_iff.mpr some
    omega

variable {rows : List Text}

/-- Rows put together by line feeds are found again between them. -/
theorem splitOn_joined (h : ∀ row ∈ rows, '\n' ∉ row) :
    (joined rows).splitOn '\n' = orBlank rows := by
  unfold orBlank
  split
  · next empty =>
    rw [empty]
    rfl
  · next some => exact List.splitOn_intercalate '\n' h some

theorem count_ended (h : ∀ row ∈ rows, '\n' ∉ row) : (ended rows).count '\n' = rows.length := by
  induction rows with
  | nil => rfl
  | cons row rows ih =>
    rw [ended_cons, List.count_append, List.count_eq_zero.mpr (h row (.head _)), List.count_cons_self,
      ih fun row' h' => h row' (.tail _ h'), List.length_cons, Nat.zero_add]

end Text

namespace Page

open Text

variable {page : Page} {p q : Position}

def rows (page : Page) : List Text :=
  page.map List.flatten

/-- The text before a position: the lines above, each with a line feed, and the clusters of the line
before the column. -/
def before (page : Page) (p : Position) : Text :=
  ended (page.rows.take p.line) ++ ((page.line p.line).take p.col).flatten

theorem length_rows (page : Page) : page.rows.length = page.length :=
  List.length_map _

theorem row_eq {l : Nat} (h : l < page.length) :
    page.rows[l]? = some (page.line l).flatten := by
  simp [rows, line, h]

theorem before_width (page : Page) (l : Nat) :
    page.before ⟨l, page.width l⟩ = ended (page.rows.take l) ++ (page.line l).flatten := by
  rw [before, width, List.take_length]

theorem before_zero (page : Page) (l : Nat) : page.before ⟨l, 0⟩ = ended (page.rows.take l) := by
  simp [before]

theorem ended_take_succ {l : Nat} (h : l < page.length) :
    ended (page.rows.take (l + 1)) = page.before ⟨l, page.width l⟩ ++ ['\n'] := by
  rw [List.take_add_one, row_eq h, ended_append, before_width]
  simp

theorem before_width_eq_joined {l : Nat} (h : l < page.length) :
    page.before ⟨l, page.width l⟩ = joined (page.rows.take (l + 1)) := by
  rw [List.take_add_one, row_eq h, before_width]
  exact (joined_concat _ _).symm

theorem before_append_of_col_le {l c c' : Nat} (h : c ≤ c') :
    page.before ⟨l, c⟩ ++ (((page.line l).take c').drop c).flatten = page.before ⟨l, c'⟩ := by
  have part : (page.line l).take c = ((page.line l).take c').take c := by
    rw [List.take_take, Nat.min_eq_left h]
  simp only [before, List.append_assoc]
  rw [part, ← List.flatten_append, List.take_append_drop]

theorem clamp_of_holds (h : page.Holds p) : page.clamp p = p := by
  have line : min p.line page.lastLine = p.line := Nat.min_eq_left (Nat.le_sub_one_of_lt h.line)
  simp only [clamp, line, Nat.min_eq_left h.col]

theorem before_append_rows {l l' c : Nat} (h : l < l') (h' : l' ≤ page.length) :
    page.before ⟨l, c⟩ ++
        ended (((page.line l).drop c).flatten :: (page.rows.take l').drop (l + 1)) =
      ended (page.rows.take l') := by
  have line : page.before ⟨l, c⟩ ++ ((page.line l).drop c).flatten =
      page.before ⟨l, page.width l⟩ := by
    rw [before_width, before, List.append_assoc, ← List.flatten_append, List.take_append_drop]
  have first : (page.rows.take l').take (l + 1) = page.rows.take (l + 1) := by
    rw [List.take_take, Nat.min_eq_left h]
  calc
    _ = page.before ⟨l, page.width l⟩ ++ ['\n'] ++ ended ((page.rows.take l').drop (l + 1)) := by
      rw [ended_cons, ← line]
      simp
    _ = ended ((page.rows.take l').take (l + 1)) ++ ended ((page.rows.take l').drop (l + 1)) := by
      rw [first, ended_take_succ (by omega)]
    _ = ended (page.rows.take l') := by rw [← ended_append, List.take_append_drop]

/-- A slice between positions on the page is what lies between them in the flat text. -/
theorem before_append_slice (hp : page.Holds p) (hq : page.Holds q) (le : p ≤ q) :
    page.before p ++ page.slice ⟨p, q⟩ = page.before q := by
  obtain ⟨l, c⟩ := p
  obtain ⟨l', c'⟩ := q
  simp only [slice, clamp_of_holds hp, clamp_of_holds hq]
  split
  · next ge =>
    rw [List.append_nil, Position.le_antisymm le ge]
  · rw [Position.le_def] at le
    rcases Nat.lt_or_ge l l' with above | same
    · have pieces : (page.pieces ⟨⟨l, c⟩, ⟨l', c'⟩⟩).map List.flatten =
          (((page.line l).drop c).flatten :: (page.rows.take l').drop (l + 1)) ++
            [((page.line l').take c').flatten] := by
        simp only [Page.pieces, Nat.ne_of_lt above, if_false, rows, List.map_append, List.map_cons,
          List.map_nil, List.map_drop, List.map_take]
      rw [pieces, ← joined, joined_concat, ← List.append_assoc,
        before_append_rows above (Nat.le_of_lt hq.line), before]
    · obtain ⟨rfl, cols⟩ : l = l' ∧ c ≤ c' := by
        simp only at le
        omega
      simp only [Page.pieces, if_true, List.map_singleton, List.intercalate_singleton]
      exact before_append_of_col_le cols

/-! ## The text after a position -/

def text (page : Page) : Text :=
  joined page.rows

/-- The text after a position: the clusters of the line from the column on, and the lines below,
each after a line feed. -/
def after (page : Page) (p : Position) : Text :=
  joined (((page.line p.line).drop p.col).flatten :: page.rows.drop (p.line + 1))

theorem append_joined_cons (a row : Text) (rows : List Text) :
    a ++ joined (row :: rows) = joined ((a ++ row) :: rows) := by
  cases rows with
  | nil => simp
  | cons row' rows =>
    rw [joined_cons _ (List.cons_ne_nil _ _), joined_cons _ (List.cons_ne_nil _ _),
      List.append_assoc]

theorem drop_rows {l : Nat} (h : l < page.length) :
    page.rows.drop l = (page.line l).flatten :: page.rows.drop (l + 1) := by
  rw [List.drop_eq_getElem?_toList_append, row_eq h]
  rfl

/-- A position on a line of the page divides the flat text. -/
theorem before_append_after (h : p.line < page.length) :
    page.before p ++ page.after p = page.text := by
  have line : ((page.line p.line).take p.col).flatten ++ ((page.line p.line).drop p.col).flatten =
      (page.line p.line).flatten := by
    rw [← List.flatten_append, List.take_append_drop]
  have below : page.rows.drop p.line ≠ [] := by
    rw [drop_rows h]
    exact List.cons_ne_nil _ _
  rw [before, after, List.append_assoc, append_joined_cons, line, ← drop_rows h,
    ← joined_append _ below, List.take_append_drop, text]

theorem after_zero {l : Nat} (h : l < page.length) :
    page.after ⟨l, 0⟩ = joined (page.rows.drop l) := by
  rw [drop_rows h]
  rfl

theorem after_width (page : Page) (l : Nat) :
    page.after ⟨l, page.width l⟩ = joined ([] :: page.rows.drop (l + 1)) := by
  rw [after, width, List.drop_length, List.flatten_nil]

theorem slice_ne_nil (filled : ∀ l, [] ∉ page.line l) (hp : page.Holds p) (hq : page.Holds q)
    (lt : p < q) : page.slice ⟨p, q⟩ ≠ [] := by
  simp only [slice, clamp_of_holds hp, clamp_of_holds hq, if_neg (Position.not_le.mpr lt),
    Page.pieces]
  rcases lt with above | ⟨same, cols⟩
  · rw [if_neg (Nat.ne_of_lt above), List.map_append, List.map_cons, ← joined, List.map_singleton,
      joined_concat, ended_cons]
    simp
  · obtain ⟨g, gs, cut⟩ : ∃ g gs, ((page.line p.line).take q.col).drop p.col = g :: gs := by
      apply List.exists_cons_of_length_pos
      have width : q.col ≤ (page.line p.line).length := same ▸ hq.col
      rw [List.length_drop, List.length_take]
      omega
    have mem : g ∈ page.line p.line :=
      List.mem_of_mem_take (List.mem_of_mem_drop (cut ▸ List.mem_cons_self ..))
    have some : g ≠ [] := fun empty => filled _ (empty ▸ mem)
    rw [if_pos same, cut, List.map_singleton, List.intercalate_singleton]
    simp [some]

/-! ## The page of given lines -/

@[simp] theorem rows_ofLines (lines : List Text) : (ofLines lines).rows = lines := by
  simp [rows, ofLines, Function.comp_def]

theorem text_ofLines (lines : List Text) : (ofLines lines).text = joined lines := by
  rw [text, rows_ofLines]

theorem line_ofLines (lines : List Text) (l : Nat) :
    (ofLines lines).line l = clusters (lines[l]?.getD []) := by
  rw [line, ofLines, List.getElem?_map]
  cases lines[l]? <;> rfl

theorem before_ofLines (lines : List Text) (p : Position) :
    (ofLines lines).before p =
      ended (lines.take p.line) ++ ((clusters (lines[p.line]?.getD [])).take p.col).flatten := by
  rw [before, rows_ofLines, line_ofLines]

end Page

/-! ## Documents whose breaks end in line feeds -/

namespace Text

variable {t : Text}

/-- Every line break of a text is a line feed or a carriage return and a line feed. -/
def FeedEnded (t : Text) : Prop :=
  ∀ line ∈ t.lines.dropLast, line.getLast? = some '\n'

instance (t : Text) : Decidable (FeedEnded t) :=
  List.decidableBAll (fun line : Text => line.getLast? = some '\n') t.lines.dropLast

theorem OnlyFeeds.feedEnded (h : OnlyFeeds t) : FeedEnded t := by
  induction t using rowInduction with
  | last row hrow => simp [FeedEnded, lines_row (not_isBreak_of_row h hrow)]
  | more row rest hrow ih =>
    simp only [onlyFeeds_append, onlyFeeds_cons] at h
    have later := ih h.2.2
    rw [FeedEnded, lines_row_append (not_isBreak_of_row h.1 hrow),
      List.dropLast_cons_of_ne_nil (lines_ne_nil rest)]
    intro line hline
    rcases List.mem_cons.mp hline with rfl | hline
    · exact List.getLast?_concat
    · exact later line hline

theorem lines_ended_append {rows : List Text} (h : ∀ row ∈ rows, ∀ c ∈ row, isBreak c = false)
    (t : Text) : lines (ended rows ++ t) = (rows.map fun row => row ++ ['\n']) ++ lines t := by
  induction rows with
  | nil => rfl
  | cons row rows ih =>
    have later := ih fun row' h' => h row' (.tail _ h')
    rw [ended_cons, List.append_assoc, List.cons_append, lines_row_append (h row (.head _)), later]
    rfl

theorem lines_cons_shown (c : Char) (rest : Text) :
    ∃ line later, lines (c :: rest) = line :: later ∧ (dropFeed line = [] ↔ c = '\n') := by
  generalize ht : c :: rest = t
  fun_cases lines t with
  | case1 => cases ht
  | case2 rest' =>
    obtain ⟨rfl, rfl⟩ := List.cons.inj ht
    exact ⟨_, _, rfl, by decide⟩
  | case3 c' rest' _ breaks =>
    obtain ⟨rfl, rfl⟩ := List.cons.inj ht
    refine ⟨_, _, rfl, ?_⟩
    by_cases feed : c = '\n' <;> simp [dropFeed, feed]
  | case4 c' rest' _ _ none => exact absurd none (lines_ne_nil rest')
  | case5 c' rest' _ unbroken line later =>
    obtain ⟨rfl, rfl⟩ := List.cons.inj ht
    have other : c ≠ '\n' := by
      rintro rfl
      exact unbroken (by decide)
    refine ⟨_, _, rfl, iff_of_false ?_ other⟩
    cases line with
    | nil => simp [dropFeed, other]
    | cons d line =>
      unfold dropFeed
      split <;> simp

theorem lines_eq_concat (t : Text) :
    ∃ above last, lines t = above ++ [last] ∧ ∀ c ∈ last, isBreak c = false := by
  fun_induction lines t with
  | case1 => exact ⟨[], [], rfl, fun _ mem => absurd mem List.not_mem_nil⟩
  | case2 rest ih =>
    obtain ⟨above, last, split, unbroken⟩ := ih
    exact ⟨_ :: above, last, by rw [split, List.cons_append], unbroken⟩
  | case3 c rest _ _ ih =>
    obtain ⟨above, last, split, unbroken⟩ := ih
    exact ⟨_ :: above, last, by rw [split, List.cons_append], unbroken⟩
  | case4 c rest _ _ hl => exact absurd hl (lines_ne_nil rest)
  | case5 c rest _ hc line later hl ih =>
    obtain ⟨above, last, split, unbroken⟩ := ih
    rw [hl] at split
    cases above with
    | nil =>
      obtain ⟨rfl, rfl⟩ := List.cons.inj split
      exact ⟨[], c :: line, rfl, by simpa [hc] using unbroken⟩
    | cons line' above =>
      obtain ⟨rfl, rfl⟩ := List.cons.inj split
      exact ⟨(c :: line) :: above, last, rfl, unbroken⟩

theorem dropFeed_append (h : t.getLast? = some '\n') : dropFeed t ++ ['\n'] = t := by
  obtain ⟨row, rfl⟩ := List.getLast?_eq_some_iff.mp h
  rw [dropFeed_append_feed]

theorem flatten_eq_ended {lines : List Text} (h : ∀ line ∈ lines, line.getLast? = some '\n') :
    lines.flatten = ended (lines.map dropFeed) := by
  induction lines with
  | nil => rfl
  | cons line lines ih =>
    rw [List.flatten_cons, List.map_cons, ended_cons, ih fun line' h' => h _ (.tail _ h'),
      ← List.singleton_append, ← List.append_assoc, dropFeed_append (h line (.head _))]

/-- Such a text is its visible lines with line feeds between them. -/
theorem FeedEnded.joined_lines (h : FeedEnded t) : joined (t.lines.map dropFeed) = t := by
  obtain ⟨above, last, split, unbroken⟩ := lines_eq_concat t
  have ends : ∀ line ∈ above, line.getLast? = some '\n' := by
    rwa [FeedEnded, split, List.dropLast_concat] at h
  have row : dropFeed last = last :=
    dropFeed_row fun feed => absurd (unbroken _ feed) (by decide)
  calc joined (t.lines.map dropFeed)
      = ended (above.map dropFeed) ++ last := by
        rw [split, List.map_append, List.map_singleton, joined_concat, row]
    _ = t.lines.flatten := by rw [← flatten_eq_ended ends, ← List.flatten_concat, split]
    _ = t := flatten_lines t

end Text

namespace Document

open Text

variable {d : Document} {p q : Position}

theorem rows_page (shown : Text → Text) (d : Document) :
    (d.page shown).rows = d.text.lines.map shown := by
  simp [page, Page.rows, Function.comp_def]

theorem rows_page_of_onlyFeeds (h : d.text.OnlyFeeds) :
    (d.page dropFeed).rows = d.text.splitOn '\n' := by
  rw [rows_page, map_dropFeed_lines h]

theorem length_page (shown : Text → Text) (d : Document) :
    (d.page shown).length = d.text.lines.length := by
  rw [page, List.length_map]

theorem text_page (h : d.text.FeedEnded) : (d.page dropFeed).text = d.text := by
  rw [Page.text, rows_page, h.joined_lines]

theorem line_page {shown : Text → Text} {l : Nat} (h : l < d.text.lines.length) :
    (d.page shown).line l = clusters (shown d.text.lines[l]) := by
  simp [page, Page.line, h]

theorem not_mem_line_page (d : Document) (l : Nat) : [] ∉ (d.page dropFeed).line l := by
  intro mem
  rcases Nat.lt_or_ge l d.text.lines.length with inside | past
  · rw [line_page inside] at mem
    cases clusters_of_mem mem
  · rw [Page.line_of_le (d.length_page _ ▸ past)] at mem
    cases mem

/-- An offset is the length of the text before its position. -/
theorem offset_eq (h : d.text.FeedEnded) (hp : p.line < (d.page dropFeed).length) :
    d.offset dropFeed p = ((d.page dropFeed).before p).length := by
  rw [length_page] at hp
  have inside : min p.line (d.text.lines.length - 1) = p.line := by omega
  have above : ∀ line ∈ d.text.lines.take p.line, line.getLast? = some '\n' := by
    intro line hline
    apply h
    rw [List.dropLast_eq_take]
    exact List.take_subset_take_left _ (by omega) hline
  simp only [offset, inside, List.getElem?_eq_getElem hp, Option.getD_some]
  rw [Page.before, line_page hp, rows_page, List.length_append, ← List.map_take,
    ← flatten_eq_ended above]

theorem take_offset (h : d.text.FeedEnded) (hp : p.line < (d.page dropFeed).length) :
    d.text.take (d.offset dropFeed p) = (d.page dropFeed).before p := by
  have split := Page.before_append_after hp
  rw [text_page h] at split
  rw [offset_eq h hp, ← split, List.take_left]

theorem drop_offset (h : d.text.FeedEnded) (hp : p.line < (d.page dropFeed).length) :
    d.text.drop (d.offset dropFeed p) = (d.page dropFeed).after p := by
  have split := Page.before_append_after hp
  rw [text_page h] at split
  rw [offset_eq h hp, ← split, List.drop_left]

theorem delete_eq (h : d.text.FeedEnded) (hp : (d.page dropFeed).Holds p)
    (hq : (d.page dropFeed).Holds q) (le : p ≤ q) :
    d.delete dropFeed ⟨p, q⟩ =
      .ok { d with text := (d.page dropFeed).before p ++ (d.page dropFeed).after q } := by
  have order : d.offset dropFeed p ≤ d.offset dropFeed q := by
    rw [offset_eq h hp.line, offset_eq h hq.line, ← Page.before_append_slice hp hq le,
      List.length_append]
    exact Nat.le_add_right ..
  simp only [delete, if_neg (Nat.not_lt.mpr order), splice, take_offset h hp.line,
    drop_offset h hq.line, List.append_nil]

theorem insert_eq (h : d.text.FeedEnded) (hp : p.line < (d.page dropFeed).length) (new : Text) :
    d.insert dropFeed p new =
      { d with text := (d.page dropFeed).before p ++ new ++ (d.page dropFeed).after p } := by
  simp only [insert, splice, take_offset h hp, drop_offset h hp]

end Document

end ModalEditor
