import ModalEditor.Proofs.FlatPage

/-! # Slices as parts of the flat text

Whatever lines a page shows, and wherever two positions are, the slice between them is the part of
the flat text between their offsets, once they are pulled onto the page. So slices that meet join.
-/

namespace ModalEditor

open Text

/-- How much of the joined lines comes before a position: the lines above, each with a line feed,
and the clusters of the line before the column. -/
def flatOffset (lines : List Text) (p : Position) : Nat :=
  (lines.take p.line).foldr (fun line n => line.length + 1 + n) 0 +
    ((clusters (lines[p.line]?.getD [])).take p.col).flatten.length

theorem Text.length_ended (rows : List Text) :
    (ended rows).length = rows.foldr (fun row n => row.length + 1 + n) 0 := by
  induction rows with
  | nil => rfl
  | cons row rows ih =>
    rw [ended_cons, List.length_append, List.length_cons, List.foldr_cons, ih]
    omega

namespace Page

variable {page : Page} {a b c p : Position}

theorem length_before_ofLines (lines : List Text) (p : Position) :
    ((ofLines lines).before p).length = flatOffset lines p := by
  rw [before_ofLines, List.length_append, length_ended, flatOffset]

/-! ## Positions pulled onto the page -/

theorem holds_clamp (h : page ≠ []) (p : Position) : page.Holds (page.clamp p) :=
  ⟨clamp_line_lt h p, clamp_col_le page p⟩

theorem clamp_of_nil (p : Position) : clamp [] p = .zero := by
  simp [clamp, lastLine, width, line, Position.zero]

theorem slice_clamp (h : page ≠ []) (a b : Position) :
    page.slice ⟨page.clamp a, page.clamp b⟩ = page.slice ⟨a, b⟩ := by
  simp only [slice, clamp_of_holds (holds_clamp h a), clamp_of_holds (holds_clamp h b)]

/-- A slice follows the text before its start. -/
theorem before_append_slice_clamp (h : page ≠ []) (le : page.clamp a ≤ page.clamp b) :
    page.before (page.clamp a) ++ page.slice ⟨a, b⟩ = page.before (page.clamp b) := by
  rw [← slice_clamp h a b]
  exact before_append_slice (holds_clamp h a) (holds_clamp h b) le

theorem slice_append_slice (page : Page) (first : page.clamp a ≤ page.clamp b)
    (second : page.clamp b ≤ page.clamp c) :
    page.slice ⟨a, b⟩ ++ page.slice ⟨b, c⟩ = page.slice ⟨a, c⟩ := by
  by_cases h : page = []
  · subst h
    have blank (p q : Position) : slice [] ⟨p, q⟩ = [] := by
      apply slice_of_stop_le
      rw [clamp_of_nil, clamp_of_nil]
      exact .inr ⟨rfl, Nat.le_refl _⟩
    simp only [blank, List.append_nil]
  · have whole := before_append_slice_clamp h (Position.le_trans first second)
    rw [← before_append_slice_clamp h second, ← before_append_slice_clamp h first,
      List.append_assoc] at whole
    exact (List.append_cancel_left whole).symm

theorem slice_eq_extract (h : page ≠ []) (le : page.clamp a ≤ page.clamp b) :
    page.slice ⟨a, b⟩ =
      page.text.extract (page.before (page.clamp a)).length
        (page.before (page.clamp b)).length := by
  have upTo := before_append_slice_clamp h le
  have whole := before_append_after (clamp_line_lt h b)
  rw [← upTo, List.append_assoc] at whole
  rw [← whole, ← upTo, List.extract_eq_take_drop, List.drop_left, List.length_append,
    Nat.add_sub_cancel_left, List.take_left]

/-- A slice is the part of the joined lines between the offsets of its ends, so slices that meet
join. -/
theorem slice_of_joined (lines : List Text) (a b : Position) :
    let page := Page.ofLines lines
    let start := page.clamp a
    let stop := page.clamp b
    page.slice ⟨a, b⟩ =
        (if start < stop then
          (joined lines).extract (flatOffset lines start) (flatOffset lines stop)
        else []) ∧
      ∀ c, start ≤ stop → stop ≤ page.clamp c →
        page.slice ⟨a, b⟩ ++ page.slice ⟨b, c⟩ = page.slice ⟨a, c⟩ := by
  intro page start stop
  refine ⟨?_, fun c => slice_append_slice page⟩
  split
  · next lt =>
    have some : page ≠ [] := by
      rintro none
      simp only [start, stop, none, clamp_of_nil] at lt
      exact absurd lt (by decide)
    rw [← text_ofLines, ← length_before_ofLines, ← length_before_ofLines]
    exact slice_eq_extract some (Position.le_of_lt lt)
  · next ge => exact slice_of_stop_le page (Position.not_lt.mp ge)

theorem slice_of_joined_past_the_end :
    let lines := ["e\u0301a".toList, [], "b\rc".toList]
    let page := Page.ofLines lines
    let a : Position := ⟨0, 7⟩
    let b : Position := ⟨1, 4⟩
    let c : Position := ⟨9, 1⟩
    page.slice ⟨a, c⟩ = "\n\nb".toList ∧
      page.clamp a ≤ page.clamp b ∧ page.clamp b ≤ page.clamp c ∧
      page.slice ⟨a, b⟩ ++ page.slice ⟨b, c⟩ = page.slice ⟨a, c⟩ :=
  ⟨by decide +kernel, by decide +kernel, by decide +kernel,
    (slice_of_joined _ _ _).2 ⟨9, 1⟩ (by decide +kernel) (by decide +kernel)⟩

end Page

end ModalEditor
