import ModalEditor.Proofs.OnPage

/-! # Where words begin and end

The motions by words go to the first column to the right at which a word begins, or ends. Neither
needs to know where the word under the caret began: a column is told by its own class and that of
the one before it.
-/

namespace ModalEditor

def BeginsWord (classes : List WordClass) (i : Nat) : Prop :=
  ∃ kind, classes[i]? = some kind ∧ kind ≠ .blank ∧ (i = 0 ∨ classes[i - 1]? ≠ some kind)

def EndsWord (classes : List WordClass) (i : Nat) : Prop :=
  0 < i ∧ ∃ kind, classes[i - 1]? = some kind ∧ kind ≠ .blank ∧
    (i = classes.length ∨ classes[i]? ≠ some kind)

/-- The first column to the right of another at which something holds, and the last one if it holds
nowhere there. -/
inductive FirstAfter (holds : Nat → Prop) (col last : Nat) : Nat → Prop
  | found {i : Nat} : col < i → holds i → (∀ j, col < j → j < i → ¬ holds j) →
      FirstAfter holds col last i
  | nowhere : (∀ j, col < j → ¬ holds j) → FirstAfter holds col last last

section Edges

variable {classes : List WordClass} {col i : Nat} {word : Word}

theorem not_beginsWord_of_blank (h : classes[i]? = some .blank) : ¬ BeginsWord classes i := by
  rintro ⟨kind, at', filled, -⟩
  rw [h, Option.some.injEq] at at'
  exact filled at'.symm

theorem not_endsWord_of_blank (h : classes[i]? = some .blank) : ¬ EndsWord classes (i + 1) := by
  rintro ⟨-, kind, at', filled, -⟩
  rw [Nat.add_sub_cancel, h, Option.some.injEq] at at'
  exact filled at'.symm

theorem Blank.not_beginsWord (h : Blank classes col) (right : col ≤ i) :
    ¬ BeginsWord classes i := by
  rintro ⟨kind, at', filled, -⟩
  exact filled (h i kind right at')

theorem Blank.not_endsWord (h : Blank classes col) (right : col < i) : ¬ EndsWord classes i := by
  rintro ⟨-, kind, at', filled, -⟩
  exact filled (h (i - 1) kind (Nat.le_sub_one_of_lt right) at')

namespace Word

theorem Whole.beginsWord (h : word.Whole classes) : BeginsWord classes word.start := by
  refine ⟨word.kind, h.inside _ (Nat.le_refl _) h.nonempty, h.filled, ?_⟩
  rcases Nat.eq_zero_or_pos word.start with zero | pos
  · exact .inl zero
  · exact .inr (h.left _ (Nat.sub_add_cancel pos))

theorem Whole.endsWord (h : word.Whole classes) : EndsWord classes word.stop := by
  have nonempty := h.nonempty
  refine ⟨by omega, word.kind, h.inside _ ?_ ?_, h.filled, .inr h.right⟩ <;> omega

theorem Whole.not_beginsWord (h : word.Whole classes) (start : word.start < i)
    (stop : i < word.stop) : ¬ BeginsWord classes i := by
  rintro ⟨kind, at', -, zero | other⟩
  · omega
  · rw [h.inside i start.le stop] at at'
    exact other (at' ▸ h.inside (i - 1) (by omega) (by omega))

theorem Whole.not_endsWord (h : word.Whole classes) (start : word.start < i)
    (stop : i < word.stop) : ¬ EndsWord classes i := by
  have inside := h.inside i start.le stop
  rintro ⟨-, kind, at', -, last | other⟩
  · rw [last, List.getElem?_eq_none (Nat.le_refl _)] at inside
    cases inside
  · rw [h.inside (i - 1) (by omega) (by omega)] at at'
    exact other (at' ▸ inside)

end Word

end Edges

theorem FirstAfter.col_lt {holds : Nat → Prop} {col last i : Nat} (h : FirstAfter holds col last i)
    (more : col < last) : col < i := by
  cases h with
  | found right => exact right
  | nowhere => exact more

namespace Motion

/-- The start of the next word is the first column to the right at which a word begins. -/
theorem firstAfter_wordStart (page : Page) (separators : Separators) (p : Position) :
    FirstAfter (BeginsWord (classes page separators p.line)) p.col (page.width p.line)
      (wordStart page separators p).col := by
  simp only [wordStart]
  cases found : nextWord (classes page separators p.line) p.col with
  | none =>
    have blank := nextWord_eq_none_iff.mp found
    exact .nowhere fun j right => blank.not_beginsWord right.le
  | some word =>
    have next := nextWord_next found
    have after := next.after
    simp only
    split
    · -- The caret is in a word, so that the next one is the one after it.
      cases found' : nextWord (classes page separators p.line) word.stop with
      | none =>
        have blank := nextWord_eq_none_iff.mp found'
        refine .nowhere fun j right => ?_
        rcases Nat.lt_or_ge j word.stop with inside | behind
        · exact next.not_beginsWord (by omega) inside
        · exact blank.not_beginsWord behind
      | some word' =>
        have next' := nextWord_next found'
        have apart := next.stop_le_start next'.toWhole next'.after
        refine .found (Nat.lt_of_lt_of_le after apart) next'.beginsWord fun j right left => ?_
        rcases Nat.lt_or_ge j word.stop with inside | behind
        · exact next.not_beginsWord (by omega) inside
        · exact not_beginsWord_of_blank (next'.blanks j behind left)
    · next later =>
      have right : p.col < word.start := Nat.not_le.mp fun low => later ⟨low, after⟩
      refine .found right next.beginsWord fun j right left => ?_
      exact not_beginsWord_of_blank (next.blanks j right.le left)

/-- The end of the word at or after a position is the first column to the right at which one
ends. -/
theorem firstAfter_wordEnd (page : Page) (separators : Separators) (p : Position) :
    FirstAfter (EndsWord (classes page separators p.line)) p.col (page.width p.line)
      (wordEnd page separators p).col := by
  simp only [wordEnd]
  cases found : nextWord (classes page separators p.line) p.col with
  | none =>
    have blank := nextWord_eq_none_iff.mp found
    exact .nowhere fun j right => blank.not_endsWord right
  | some word =>
    have next := nextWord_next found
    refine .found next.after next.endsWord fun j right left => ?_
    rcases Nat.lt_or_ge word.start j with inside | before
    · exact next.not_endsWord inside left
    · obtain ⟨i, rfl⟩ := Nat.exists_eq_succ_of_ne_zero (Nat.ne_of_gt (Nat.zero_lt_of_lt right))
      exact not_endsWord_of_blank (next.blanks i (Nat.le_of_lt_succ right) before)

end Motion

/-- Where a motion by words leads: within a line to the first column at which a word has its edge,
and from the last cluster on to the start of the next line. -/
structure MeetsEdge (edge : Nat → Prop) (page : Page) (p dest : Position) : Prop where
  within : p.col + 1 < page.width p.line →
    dest.line = p.line ∧ FirstAfter edge p.col (page.width p.line) dest.col
  beyond : page.width p.line ≤ p.col + 1 →
    dest = if p.line + 1 < page.length then ⟨p.line + 1, 0⟩ else p

namespace Motion

variable {page : Page} {p dest : Position}

theorem meetsEdge_nextWordStart (page : Page) (separators : Separators) (p : Position)
    (aim : Option Nat) :
    MeetsEdge (BeginsWord (classes page separators p.line)) page p
      (nextWordStart.step page separators ⟨p, aim⟩).pos where
  within more := by
    simp only [step, if_pos more]
    exact ⟨line_wordStart .., firstAfter_wordStart ..⟩
  beyond past := if_neg (Nat.not_lt.mpr past)

theorem meetsEdge_nextWordEnd (page : Page) (separators : Separators) (p : Position)
    (aim : Option Nat) :
    MeetsEdge (EndsWord (classes page separators p.line)) page p
      (nextWordEnd.step page separators ⟨p, aim⟩).pos where
  within more := by
    simp only [step, if_pos more]
    exact ⟨line_wordEnd .., firstAfter_wordEnd ..⟩
  beyond past := if_neg (Nat.not_lt.mpr past)

theorem lt_of_meetsEdge {edge : Nat → Prop} (h : page.Holds p)
    (meets : MeetsEdge edge page p dest) :
    p < dest ∨ dest = p ∧ page.width p.line ≤ p.col + 1 ∧ p.line + 1 = page.length := by
  rcases Nat.lt_or_ge (p.col + 1) (page.width p.line) with more | past
  · obtain ⟨line, first⟩ := meets.within more
    exact .inl (.inr ⟨line.symm, first.col_lt (Nat.lt_of_succ_lt more)⟩)
  · rw [meets.beyond past]
    split
    · exact .inl (.inl (Nat.lt_succ_self _))
    · next bottom =>
      exact .inr ⟨rfl, past, Nat.le_antisymm h.line (Nat.not_lt.mp bottom)⟩

end Motion

/-- Motions by words go to the first column to the right at which a word has its edge, or on to the
next line. -/
theorem word_motions_meet_edges (page : Page) (separators : Separators) (p : Position)
    (aim : Option Nat) (h : page.Holds p) :
    let classes := Motion.classes page separators p.line
    let start := (Motion.nextWordStart.step page separators ⟨p, aim⟩).pos
    let stop := (Motion.nextWordEnd.step page separators ⟨p, aim⟩).pos
    MeetsEdge (BeginsWord classes) page p start ∧ MeetsEdge (EndsWord classes) page p stop ∧
      ∀ dest ∈ [start, stop], page.Holds dest ∧
        (p < dest ∨ dest = p ∧ page.width p.line ≤ p.col + 1 ∧ p.line + 1 = page.length) := by
  intro classes start stop
  have begins := Motion.meetsEdge_nextWordStart page separators p aim
  have ends := Motion.meetsEdge_nextWordEnd page separators p aim
  refine ⟨begins, ends, ?_⟩
  rintro dest mem
  simp only [List.mem_cons, List.not_mem_nil, or_false] at mem
  rcases mem with rfl | rfl
  · exact ⟨Motion.holds_step _ h, Motion.lt_of_meetsEdge h begins⟩
  · exact ⟨Motion.holds_step _ h, Motion.lt_of_meetsEdge h ends⟩

theorem word_motions_meet_edges_before_blanks :
    let page := Page.ofLines ["e\u0301a..two \t".toList, "x".toList]
    let classes := Motion.classes page .standard 0
    let start := (Motion.nextWordStart.step page .standard ⟨⟨0, 5⟩, some 3⟩).pos
    let stop := (Motion.nextWordEnd.step page .standard ⟨⟨0, 5⟩, some 3⟩).pos
    start = ⟨0, 9⟩ ∧ stop = ⟨0, 7⟩ ∧ MeetsEdge (BeginsWord classes) page ⟨0, 5⟩ start ∧
      MeetsEdge (EndsWord classes) page ⟨0, 5⟩ stop ∧
      ∀ dest ∈ [start, stop], page.Holds dest ∧
        (⟨0, 5⟩ < dest ∨ dest = ⟨0, 5⟩ ∧ page.width 0 ≤ 6 ∧ 1 = page.length) :=
  ⟨by decide +kernel, by decide +kernel,
    word_motions_meet_edges _ .standard ⟨0, 5⟩ (some 3) ⟨by decide +kernel, by decide +kernel⟩⟩

end ModalEditor
