import ModalEditor.Keys.Count

/-! # Counts and their digits

A count is spelled by decimal digits of which the first is not zero. Splitting the keys finds the
digits again and holds their value at the largest count, however many there are.
-/

namespace ModalEditor

/-- Whether a character continues a count. Only a count that has begun takes a zero. -/
def continuesCount (count : Option Nat) (c : Char) : Bool :=
  c.isDigit && (c != '0' || count.isSome)

/-- The exact value of a count with one more digit. -/
def appendDigit (count : Option Nat) (c : Char) : Nat :=
  count.getD 0 * 10 + digitValue c

/-- The digits spell the count; no digits spell no count. -/
inductive Spells : Text → Option Nat → Prop
  | nothing : Spells [] none
  | digit {digits : Text} {count : Option Nat} {c : Char} : Spells digits count →
      continuesCount count c = true → Spells (digits ++ [c]) (some (appendDigit count c))

theorem digitValue_pos {c : Char} (digit : c.isDigit = true) (nonzero : c ≠ '0') :
    0 < digitValue c := by
  have low : '0'.toNat ≤ c.toNat := by
    simp only [Char.isDigit, Bool.and_eq_true, decide_eq_true_eq] at digit
    exact digit.1
  have ne : '0'.toNat ≠ c.toNat := fun h => nonzero (Char.ext (UInt32.toNat_inj.mp h.symm))
  simp only [digitValue]
  omega

namespace Spells

variable {digits rest : Text} {count : Option Nat}

theorem isDigit (h : Spells digits count) : ∀ c ∈ digits, c.isDigit = true := by
  induction h with
  | nothing => simp
  | digit _ hc ih =>
    simp only [continuesCount, Bool.and_eq_true] at hc
    intro d hd
    rcases List.mem_append.mp hd with hd | hd
    · exact ih d hd
    · rw [List.mem_singleton.mp hd]
      exact hc.1

theorem exists_cons {n : Nat} (h : Spells digits (some n)) :
    ∃ c more, digits = c :: more ∧ c.isDigit = true ∧ c ≠ '0' := by
  generalize hcount : some n = count at h
  induction h generalizing n with
  | nothing => cases hcount
  | @digit digits count c hd hc ih =>
    cases count with
    | none =>
      cases hd with
      | nothing =>
        simp only [continuesCount, Option.isSome_none, Bool.or_false, Bool.and_eq_true,
          bne_iff_ne] at hc
        exact ⟨c, [], rfl, hc⟩
    | some m =>
      obtain ⟨d, more, rfl, h⟩ := ih rfl
      exact ⟨d, more ++ [c], rfl, h⟩

theorem eq_nil (h : Spells digits none) : digits = [] := by
  cases h
  rfl

theorem pos {n : Nat} (h : Spells digits (some n)) : 0 < n := by
  generalize hcount : some n = count at h
  induction h generalizing n with
  | nothing => cases hcount
  | @digit digits count c hd hc ih =>
    cases count with
    | none =>
      simp only [continuesCount, Option.isSome_none, Bool.or_false, Bool.and_eq_true,
        bne_iff_ne] at hc
      have := digitValue_pos hc.1 hc.2
      simp only [appendDigit, Option.some.injEq] at hcount
      omega
    | some m =>
      have := ih rfl
      simp only [appendDigit, Option.getD_some, Option.some.injEq] at hcount
      omega

theorem getD_pos (h : Spells digits count) : 0 < count.getD 1 := by
  cases count with
  | none => exact Nat.one_pos
  | some n => exact h.pos

/-- Holding the count at every digit comes to holding its exact value once. -/
theorem countOf_eq (h : Spells digits count) : countOf digits = min (count.getD 0) maxCount := by
  induction h with
  | nothing => rfl
  | @digit digits count c _ _ ih =>
    simp only [countOf, List.foldl_append, List.foldl_cons, List.foldl_nil] at ih ⊢
    rw [ih]
    simp only [appendDigit, Option.getD_some, maxCount]
    omega

theorem splitCount_append (h : Spells digits count)
    (stop : ∀ c ∈ rest.head?, continuesCount count c = false) :
    splitCount (digits ++ rest) = ⟨min (count.getD 1) maxCount, rest⟩ := by
  cases count with
  | none =>
    rw [h.eq_nil, List.nil_append]
    cases rest with
    | nil => rfl
    | cons c rest =>
      have hc := stop c rfl
      simp only [continuesCount, Option.isSome_none, Bool.or_false] at hc
      simp only [splitCount, hc]
      rfl
  | some n =>
    have take : (digits ++ rest).takeWhile Char.isDigit = digits := by
      rw [List.takeWhile_append_of_pos h.isDigit]
      cases rest with
      | nil => simp
      | cons c rest =>
        have hc := stop c rfl
        simp only [continuesCount, Option.isSome_some, Bool.or_true, Bool.and_true] at hc
        simp [hc]
    have drop : (digits ++ rest).dropWhile Char.isDigit = rest := by
      have := List.takeWhile_append_dropWhile (p := Char.isDigit) (l := digits ++ rest)
      rw [take] at this
      exact List.append_cancel_left this
    obtain ⟨c, more, rfl, digit, nonzero⟩ := h.exists_cons
    rw [List.cons_append, splitCount, ← List.cons_append, take, drop, h.countOf_eq]
    simp [digit, nonzero]

theorem splitCount_self (h : Spells digits count) :
    splitCount digits = ⟨min (count.getD 1) maxCount, []⟩ := by
  have split : splitCount (digits ++ []) = _ := h.splitCount_append (by simp)
  rwa [List.append_nil] at split

end Spells

theorem continuesCount_digitChar {d : Nat} (h : d < 10) (n : Nat) :
    continuesCount (some n) d.digitChar = true ∧ digitValue d.digitChar = d := by
  simp only [continuesCount, Option.isSome_some, Bool.or_true, Bool.and_true]
  revert d
  decide

theorem spells_toDigits {n : Nat} (pos : 0 < n) : Spells (Nat.toDigits 10 n) (some n) := by
  induction n using Nat.strongRecOn with
  | _ n ih =>
    rcases Nat.lt_or_ge n 10 with small | large
    · have digits : ∀ d < 10, 0 < d →
          continuesCount none d.digitChar = true ∧ appendDigit none d.digitChar = d := by decide
      obtain ⟨continues, whole⟩ := digits n small pos
      rw [Nat.toDigits_of_lt_base small]
      have spelled := Spells.nothing.digit continues
      rwa [whole] at spelled
    · obtain ⟨continues, value⟩ :=
        continuesCount_digitChar (Nat.mod_lt n (by decide : 0 < 10)) (n / 10)
      have tens := ih (n / 10) (by omega) (by omega)
      have whole : appendDigit (some (n / 10)) (n % 10).digitChar = n := by
        rw [appendDigit, value, Option.getD_some]
        omega
      rw [Nat.toDigits_of_base_le (by decide) large]
      have spelled := tens.digit continues
      rwa [whole] at spelled

end ModalEditor
