import ModalEditor.Proofs.Words

/-! # All words of a line

The next word is looked for again and again, each time from the end of the one before. In this way
every word of a line is met, and met once. Every search goes on further to the right, so it comes to
an end.
-/

namespace ModalEditor

variable {classes : List WordClass} {col : Nat} {word word' : Word}

/-- The words that are met one after the other from a column on. -/
def wordsFrom (classes : List WordClass) (col : Nat) : List Word :=
  match _ : nextWord classes col with
  | none => []
  | some word => word :: wordsFrom classes word.stop
termination_by classes.length - col
decreasing_by
  have next := nextWord_next ‹nextWord classes col = some word›
  have after := next.after
  have stop := next.stop_le
  omega

theorem Word.Next.eq_or_after (h : word.Next classes col) (h' : word'.Whole classes)
    (after : col < word'.stop) : word' = word ∨ word.stop < word'.stop := by
  rcases Nat.lt_or_ge word.stop word'.stop with later | earlier
  · exact .inr later
  · have start := h.start_le h' after
    have nonempty := h.nonempty
    have nonempty' := h'.nonempty
    exact .inl (h'.unique h.toWhole (i := word'.stop - 1) (by omega) (by omega) (by omega)
      (by omega))

/-- What is met are the words that end after the column. -/
theorem mem_wordsFrom_iff :
    word ∈ wordsFrom classes col ↔ word.Whole classes ∧ col < word.stop := by
  fun_induction wordsFrom classes col with
  | case1 col none =>
    constructor
    · exact nofun
    · rintro ⟨whole, after⟩
      exact absurd (nextWord_eq_none_iff.mp none) (whole.not_blank after)
  | case2 col first found ih =>
    have next := nextWord_next found
    rw [List.mem_cons, ih]
    constructor
    · rintro (rfl | ⟨whole, after⟩)
      · exact ⟨next.toWhole, next.after⟩
      · exact ⟨whole, Nat.lt_trans next.after after⟩
    · rintro ⟨whole, after⟩
      rcases next.eq_or_after whole after with rfl | later
      · exact .inl rfl
      · exact .inr ⟨whole, later⟩

theorem pairwise_wordsFrom (classes : List WordClass) (col : Nat) :
    (wordsFrom classes col).Pairwise fun a b => a.stop ≤ b.start := by
  fun_induction wordsFrom classes col with
  | case1 col none => exact .nil
  | case2 col first found ih =>
    refine .cons ?_ ih
    intro later mem
    obtain ⟨whole, after⟩ := mem_wordsFrom_iff.mp mem
    exact (nextWord_next found).stop_le_start whole after

/-- The next word is the first longest run of one class, there is none just if only blanks are left,
and searching on lists all words. -/
theorem words_of_line (line : Text) (separators : Separators) :
    let classes := (clusters line).map separators.clusterClass
    (∀ col, nextWord classes col = none ↔ Blank classes col) ∧
    (∀ col word, nextWord classes col = some word ↔ word.Next classes col) ∧
    (∀ word, word ∈ wordsFrom classes 0 ↔ word.Whole classes) ∧
    (wordsFrom classes 0).Pairwise fun a b => a.stop ≤ b.start := by
  intro classes
  refine ⟨fun _ => nextWord_eq_none_iff, fun _ _ => nextWord_eq_some_iff, ?_,
    pairwise_wordsFrom classes 0⟩
  intro word
  rw [mem_wordsFrom_iff]
  constructor
  · exact And.left
  · intro whole
    exact ⟨whole, Nat.zero_lt_of_lt whole.nonempty⟩

end ModalEditor
