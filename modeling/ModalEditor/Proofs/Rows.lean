import ModalEditor.Buffer.Document
import ModalEditor.Proofs.Boundaries

/-! # Texts that only line feeds break

The lines of such a text are what lies between its line feeds. The first part of a text up to an
offset ends at the position of that offset, and offsets and positions are turned into each other
through that part.
-/

namespace ModalEditor

namespace Text

variable {a b t : Text}

/-- No character but the line feed breaks a line. -/
def OnlyFeeds (t : Text) : Prop :=
  ∀ c ∈ t, isBreak c = true → c = '\n'

instance (t : Text) : Decidable (OnlyFeeds t) :=
  List.decidableBAll (fun c => isBreak c = true → c = '\n') t

@[simp] theorem onlyFeeds_nil : OnlyFeeds [] := by
  simp [OnlyFeeds]

@[simp] theorem onlyFeeds_append : OnlyFeeds (a ++ b) ↔ OnlyFeeds a ∧ OnlyFeeds b := by
  simp only [OnlyFeeds, List.mem_append]
  exact ⟨fun h => ⟨fun c hc => h c (.inl hc), fun c hc => h c (.inr hc)⟩,
    fun h c hc => hc.elim (h.1 c) (h.2 c)⟩

@[simp] theorem onlyFeeds_cons {c : Char} :
    OnlyFeeds (c :: t) ↔ (isBreak c = true → c = '\n') ∧ OnlyFeeds t := by
  simp [OnlyFeeds]

theorem OnlyFeeds.sublist (h : OnlyFeeds t) (hs : a.Sublist t) : OnlyFeeds a :=
  fun c hc => h c (hs.subset hc)

/-- A text is one row, or a row that ends with a line feed and a text after it. -/
@[elab_as_elim]
theorem rowInduction {motive : Text → Prop} (last : ∀ row, '\n' ∉ row → motive row)
    (more : ∀ row rest, '\n' ∉ row → motive rest → motive (row ++ '\n' :: rest)) (t : Text) :
    motive t := by
  induction hn : t.length using Nat.strongRecOn generalizing t with
  | _ n ih =>
    by_cases h : '\n' ∈ t
    · obtain ⟨row, rest, rfl, hrow⟩ := List.eq_append_cons_of_mem h
      refine more row rest hrow (ih rest.length ?_ rest rfl)
      simp only [List.length_append, List.length_cons] at hn
      omega
    · exact last t h

/-! ## Lines and rows -/

theorem not_isBreak_of_row {row : Text} (h : OnlyFeeds row) (hrow : '\n' ∉ row) :
    ∀ c ∈ row, isBreak c = false := by
  intro c hc
  cases hb : isBreak c with
  | false => rfl
  | true => exact absurd (h c hc hb ▸ hc) hrow

theorem lines_cons_of_not_isBreak {c : Char} (h : isBreak c = false) {head : Text}
    {tail : List Text} (ht : lines t = head :: tail) : lines (c :: t) = (c :: head) :: tail := by
  have notReturn : c ≠ '\r' := by
    rintro rfl
    exact absurd h (by decide)
  rw [lines]
  · simp only [h, Bool.false_eq_true, if_false, ht]
  · intro _ hc
    exact absurd hc notReturn

theorem lines_feed (t : Text) : lines ('\n' :: t) = ['\n'] :: lines t := by
  rw [lines]
  · exact if_pos (by decide)
  · intro _ hc
    exact absurd hc (by decide)

theorem lines_row {row : Text} (h : ∀ c ∈ row, isBreak c = false) : lines row = [row] := by
  induction row with
  | nil => rfl
  | cons c row ih =>
    exact lines_cons_of_not_isBreak (h c (List.mem_cons_self ..))
      (ih fun d hd => h d (List.mem_cons_of_mem _ hd))

theorem lines_row_append {row : Text} (h : ∀ c ∈ row, isBreak c = false) (rest : Text) :
    lines (row ++ '\n' :: rest) = (row ++ ['\n']) :: lines rest := by
  induction row with
  | nil => exact lines_feed rest
  | cons c row ih =>
    exact lines_cons_of_not_isBreak (h c (List.mem_cons_self ..))
      (ih fun d hd => h d (List.mem_cons_of_mem _ hd))

theorem dropFeed_row {row : Text} (h : '\n' ∉ row) : dropFeed row = row := by
  unfold dropFeed
  apply if_neg
  intro hlast
  exact h (List.mem_of_getLast? hlast)

theorem dropFeed_append_feed (row : Text) : dropFeed (row ++ ['\n']) = row := by
  simp [dropFeed]

/-- The visible lines are what lies between the line feeds. -/
theorem map_dropFeed_lines (h : OnlyFeeds t) : t.lines.map dropFeed = t.splitOn '\n' := by
  induction t using rowInduction with
  | last row hrow =>
    rw [lines_row (not_isBreak_of_row h hrow), List.splitOn_eq_singleton hrow, List.map_singleton,
      dropFeed_row hrow]
  | more row rest hrow ih =>
    simp only [onlyFeeds_append, onlyFeeds_cons] at h
    rw [lines_row_append (not_isBreak_of_row h.1 hrow),
      List.splitOn_append_cons_self_of_not_mem hrow, List.map_cons, dropFeed_append_feed, ih h.2.2]

theorem not_mem_of_mem_splitOn (t : Text) : ∀ row ∈ t.splitOn '\n', '\n' ∉ row := by
  induction t using rowInduction with
  | last row hrow =>
    rw [List.splitOn_eq_singleton hrow]
    rintro _ mem
    rwa [List.mem_singleton.mp mem]
  | more row rest hrow ih =>
    rw [List.splitOn_append_cons_self_of_not_mem hrow]
    rintro _ mem
    rcases List.mem_cons.mp mem with rfl | mem
    · exact hrow
    · exact ih _ mem

theorem splitOn_append (a b : Text) :
    (a ++ b).splitOn '\n' = (a.splitOn '\n').dropLast ++
      ((a.splitOn '\n').getLastD [] ++ (b.splitOn '\n').headD []) :: (b.splitOn '\n').tail := by
  induction a using rowInduction with
  | last row hrow =>
    rw [List.splitOn_eq_singleton hrow]
    by_cases hb : '\n' ∈ b
    · obtain ⟨first, rest, rfl, hfirst⟩ := List.eq_append_cons_of_mem hb
      have joined : '\n' ∉ row ++ first := by simp [hrow, hfirst]
      rw [← List.append_assoc, List.splitOn_append_cons_self_of_not_mem joined,
        List.splitOn_append_cons_self_of_not_mem hfirst]
      rfl
    · have joined : '\n' ∉ row ++ b := by simp [hrow, hb]
      rw [List.splitOn_eq_singleton joined, List.splitOn_eq_singleton hb]
      rfl
  | more row rest hrow ih =>
    rw [List.append_assoc, List.cons_append, List.splitOn_append_cons_self_of_not_mem hrow, ih,
      List.splitOn_append_cons_self_of_not_mem hrow]
    obtain ⟨r, rs, hr⟩ := List.exists_cons_of_ne_nil (List.splitOn_ne_nil '\n' rest)
    rw [hr, List.dropLast_cons_cons]
    rfl

/-! ## Where a text ends -/

def endOf (t : Text) : Position :=
  ⟨(t.splitOn '\n').length - 1, columns ((t.splitOn '\n').getLastD [])⟩

theorem endOf_row {row : Text} (h : '\n' ∉ row) : endOf row = ⟨0, columns row⟩ := by
  rw [endOf, List.splitOn_eq_singleton h]
  rfl

theorem endOf_row_append {row : Text} (h : '\n' ∉ row) (rest : Text) :
    endOf (row ++ '\n' :: rest) = ⟨(endOf rest).line + 1, (endOf rest).col⟩ := by
  obtain ⟨r, rs, hr⟩ := List.exists_cons_of_ne_nil (List.splitOn_ne_nil '\n' rest)
  simp only [endOf, List.splitOn_append_cons_self_of_not_mem h, hr, List.length_cons]
  rfl

theorem endOf_on_page (a b : Text) :
    (endOf a).line < (Page.ofLines ((a ++ b).splitOn '\n')).length ∧
      (endOf a).col ≤ (Page.ofLines ((a ++ b).splitOn '\n')).width (endOf a).line := by
  have split := splitOn_append a b
  have before : (endOf a).line = (a.splitOn '\n').dropLast.length := by
    rw [List.length_dropLast, endOf]
  have row : ((a ++ b).splitOn '\n')[(endOf a).line]? =
      some ((a.splitOn '\n').getLastD [] ++ (b.splitOn '\n').headD []) := by
    rw [split, before, List.getElem?_append_right (Nat.le_refl _), Nat.sub_self]
    rfl
  constructor
  · rw [Page.ofLines, List.length_map]
    exact (List.getElem?_eq_some_iff.mp row).1
  · simp only [Page.width, Page.line, Page.ofLines, List.getElem?_map, row, Option.map_some,
      Option.getD_some]
    exact columns_le_append _ _

end Text

namespace Document

open Text

variable {d : Document}

theorem page_eq (h : OnlyFeeds d.text) :
    d.page dropFeed = Page.ofLines (d.text.splitOn '\n') := by
  rw [page, Page.ofLines, ← map_dropFeed_lines h, List.map_map]
  rfl

theorem take_row_append (row rest : Text) (n : Nat) :
    (row ++ '\n' :: rest).take (row.length + 1 + n) = row ++ '\n' :: rest.take n := by
  rw [Nat.add_assoc, List.take_append, List.take_of_length_le (by omega), Nat.add_sub_cancel_left,
    Nat.add_comm 1 n, List.take_succ_cons]

/-- The position of an offset is where the text before it ends. -/
theorem position_eq (h : OnlyFeeds d.text) {n : Nat} (hn : n ≤ d.text.length) :
    d.position n = endOf (d.text.take n) := by
  unfold position
  generalize d.text = t at h hn ⊢
  induction t using rowInduction generalizing n with
  | last row hrow =>
    have part : '\n' ∉ row.take n := fun hc => hrow (List.mem_of_mem_take hc)
    rw [lines_row (not_isBreak_of_row h hrow), endOf_row part]
    rfl
  | more row rest hrow ih =>
    simp only [onlyFeeds_append, onlyFeeds_cons] at h
    rw [lines_row_append (not_isBreak_of_row h.1 hrow)]
    obtain ⟨l, ls, hl⟩ := List.exists_cons_of_ne_nil (lines_ne_nil rest)
    simp only [hl, locate, List.length_append, List.length_singleton]
    simp only [List.length_append, List.length_cons] at hn
    split
    · next hlt =>
      have part : '\n' ∉ row.take n := fun hc => hrow (List.mem_of_mem_take hc)
      have inside : n ≤ row.length := by omega
      rw [List.take_append_of_le_length inside, List.take_append_of_le_length inside,
        endOf_row part]
    · next hge =>
      obtain ⟨m, rfl⟩ := Nat.exists_eq_add_of_le (Nat.le_of_not_lt hge)
      have later := ih h.2.2 (n := m) (by omega)
      rw [hl] at later
      rw [take_row_append, endOf_row_append hrow, Nat.add_sub_cancel_left, later]

/-! ## Offsets -/

theorem offset_row {row : Text} (h : OnlyFeeds row) (hrow : '\n' ∉ row) (caret p : Position) :
    offset dropFeed ⟨row, caret⟩ p = ((clusters row).take p.col).flatten.length := by
  simp [offset, lines_row (not_isBreak_of_row h hrow), dropFeed_row hrow]

theorem offset_row_append {row : Text} (h : OnlyFeeds row) (hrow : '\n' ∉ row) (rest : Text)
    (caret : Position) (l c : Nat) :
    offset dropFeed ⟨row ++ '\n' :: rest, caret⟩ ⟨l + 1, c⟩ =
      row.length + 1 + offset dropFeed ⟨rest, caret⟩ ⟨l, c⟩ := by
  have nonempty := length_lines_pos rest
  have line : min (l + 1) (lines rest).length = min l ((lines rest).length - 1) + 1 := by omega
  simp only [offset, lines_row_append (not_isBreak_of_row h hrow), List.length_cons,
    Nat.add_sub_cancel, line, List.take_succ_cons, List.flatten_cons, List.length_append,
    List.length_nil, List.getElem?_cons_succ, Nat.add_assoc, Nat.zero_add]

theorem offset_row_append_zero {row : Text} (h : OnlyFeeds row) (hrow : '\n' ∉ row) (rest : Text)
    (caret : Position) (c : Nat) :
    offset dropFeed ⟨row ++ '\n' :: rest, caret⟩ ⟨0, c⟩ =
      ((clusters row).take c).flatten.length := by
  simp [offset, lines_row_append (not_isBreak_of_row h hrow), dropFeed_append_feed]

theorem take_length_flatten_take (row : Text) (n : Nat) :
    row.take ((clusters row).take n).flatten.length = ((clusters row).take n).flatten := by
  have split : ((clusters row).take n).flatten ++ ((clusters row).drop n).flatten = row := by
    rw [← List.flatten_append, List.take_append_drop, flatten_clusters]
  calc row.take ((clusters row).take n).flatten.length
      = (((clusters row).take n).flatten ++ ((clusters row).drop n).flatten).take
          ((clusters row).take n).flatten.length := by rw [split]
    _ = ((clusters row).take n).flatten := List.take_left

theorem length_flatten_take_le (row : Text) (n : Nat) :
    ((clusters row).take n).flatten.length ≤ row.length := by
  have part := congrArg List.length (take_length_flatten_take row n)
  rw [List.length_take] at part
  omega

theorem length_flatten_take_mono (row : Text) {m n : Nat} (h : m ≤ n) :
    ((clusters row).take m).flatten.length ≤ ((clusters row).take n).flatten.length := by
  obtain ⟨between, hb⟩ := List.take_prefix_take_left (l := clusters row) h
  rw [← hb, List.flatten_append, List.length_append]
  omega

theorem endOf_take_row {row : Text} (hrow : '\n' ∉ row) (n : Nat) :
    endOf ((clusters row).take n).flatten = ⟨0, min n (columns row)⟩ := by
  have part : '\n' ∉ ((clusters row).take n).flatten := by
    rw [← take_length_flatten_take]
    intro hc
    exact hrow (List.mem_of_mem_take hc)
  rw [endOf_row part, columns_take]

theorem endOf_take_offset (h : OnlyFeeds d.text) {p : Position}
    (hp : p.line < (d.page dropFeed).length) :
    endOf (d.text.take (d.offset dropFeed p)) =
        ⟨p.line, min p.col ((d.page dropFeed).width p.line)⟩ ∧
      d.offset dropFeed p ≤ d.text.length := by
  rw [page_eq h] at hp ⊢
  obtain ⟨t, caret⟩ := d
  obtain ⟨l, c⟩ := p
  simp only at h hp ⊢
  induction t using rowInduction generalizing l with
  | last row hrow =>
    rw [List.splitOn_eq_singleton hrow, Page.ofLines, List.length_map, List.length_singleton] at hp
    obtain rfl : l = 0 := by omega
    rw [offset_row h hrow, take_length_flatten_take, endOf_take_row hrow,
      List.splitOn_eq_singleton hrow]
    exact ⟨rfl, length_flatten_take_le row c⟩
  | more row rest hrow ih =>
    simp only [onlyFeeds_append, onlyFeeds_cons] at h
    rw [List.splitOn_append_cons_self_of_not_mem hrow] at hp ⊢
    cases l with
    | zero =>
      have inside := length_flatten_take_le row c
      rw [offset_row_append_zero h.1 hrow, List.take_append_of_le_length inside,
        take_length_flatten_take, endOf_take_row hrow]
      refine ⟨rfl, ?_⟩
      rw [List.length_append]
      omega
    | succ l =>
      have hl : l < (Page.ofLines (rest.splitOn '\n')).length := Nat.lt_of_succ_lt_succ hp
      obtain ⟨later, inside⟩ := ih h.2.2 l hl
      rw [offset_row_append h.1 hrow, take_row_append, endOf_row_append hrow, later]
      refine ⟨rfl, ?_⟩
      rw [List.length_append, List.length_cons]
      omega

theorem offset_mono (h : OnlyFeeds d.text) {p q : Position} (hpq : p ≤ q)
    (hq : q.line < (d.page dropFeed).length) : d.offset dropFeed p ≤ d.offset dropFeed q := by
  rw [page_eq h] at hq
  obtain ⟨t, caret⟩ := d
  obtain ⟨l, c⟩ := p
  obtain ⟨l', c'⟩ := q
  simp only at h hq ⊢
  induction t using rowInduction generalizing l l' with
  | last row hrow =>
    rw [List.splitOn_eq_singleton hrow, Page.ofLines, List.length_map, List.length_singleton] at hq
    have hc : c ≤ c' := by
      rw [Position.le_def] at hpq
      simp only at hpq hq
      omega
    rw [offset_row h hrow, offset_row h hrow]
    exact length_flatten_take_mono row hc
  | more row rest hrow ih =>
    simp only [onlyFeeds_append, onlyFeeds_cons] at h
    rw [List.splitOn_append_cons_self_of_not_mem hrow] at hq
    rw [Position.le_def] at hpq
    cases l' with
    | zero =>
      obtain ⟨rfl, hc⟩ : l = 0 ∧ c ≤ c' := by simp only at hpq; omega
      rw [offset_row_append_zero h.1 hrow, offset_row_append_zero h.1 hrow]
      exact length_flatten_take_mono row hc
    | succ l' =>
      rw [offset_row_append h.1 hrow]
      cases l with
      | zero =>
        have inside := length_flatten_take_le row c
        rw [offset_row_append_zero h.1 hrow]
        omega
      | succ l =>
        rw [offset_row_append h.1 hrow]
        have hpq' : (⟨l, c⟩ : Position) ≤ ⟨l', c'⟩ := by
          rw [Position.le_def]
          simp only at hpq ⊢
          omega
        have earlier := ih h.2.2 l l' (Nat.lt_of_succ_lt_succ hq) hpq'
        omega

end Document

end ModalEditor
