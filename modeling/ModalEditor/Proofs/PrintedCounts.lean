import ModalEditor.Keys.Parse
import ModalEditor.Proofs.KeyReader

/-! # Printed counts

Splitting finds the count that any keys begin with, reads its decimal value and leaves the other
keys as they are. So a count that was printed is read back, and so are two of them, one before an
operator and one before its argument.
-/

namespace ModalEditor

def BeginsCount (keys : Text) : Prop :=
  ∃ c ∈ keys.head?, '1' ≤ c ∧ c ≤ '9'

theorem continuesCount_none_iff {c : Char} :
    continuesCount none c = true ↔ '1' ≤ c ∧ c ≤ '9' := by
  have zero : c = '0' ↔ c.val.toNat = 48 := by rw [← Char.toNat_inj]; rfl
  have bounds : '0'.val.toNat = 48 ∧ '1'.val.toNat = 49 ∧ '9'.val.toNat = 57 := by decide
  simp only [continuesCount, Option.isSome_none, Bool.or_false, Bool.and_eq_true, bne_iff_ne,
    Char.isDigit, decide_eq_true_eq, Char.le_def, ge_iff_le, UInt32.le_iff_toNat_le, Ne, zero]
  omega

namespace Spells

variable {digits rest : Text} {count : Option Nat}

theorem value (h : Spells digits count) : Nat.ofDigitChars 10 digits 0 = count.getD 0 := by
  induction h with
  | nothing => rfl
  | @digit digits count c _ _ ih =>
    rw [Nat.ofDigitChars_append, ih, Option.getD_some, appendDigit, Nat.mul_comm]
    rfl

/-- A count goes on as far as there are digits to continue it. -/
theorem exists_longest (h : Spells digits count) (keys : Text) :
    ∃ more count' rest, keys = more ++ rest ∧ Spells (digits ++ more) count' ∧
      ∀ c ∈ rest.head?, continuesCount count' c = false := by
  induction keys generalizing digits count with
  | nil => exact ⟨[], count, [], rfl, by rwa [List.append_nil], nofun⟩
  | cons c keys ih =>
    cases hc : continuesCount count c with
    | false =>
      refine ⟨[], count, c :: keys, rfl, by rwa [List.append_nil], fun d first => ?_⟩
      obtain rfl : c = d := Option.some.inj first
      exact hc
    | true =>
      obtain ⟨more, count', rest, rfl, spelled, stop⟩ := ih (h.digit hc)
      refine ⟨c :: more, count', rest, rfl, ?_, stop⟩
      rwa [List.append_assoc] at spelled

theorem beginsCount_iff (h : Spells digits count)
    (stop : ∀ c ∈ rest.head?, continuesCount count c = false) :
    BeginsCount (digits ++ rest) ↔ count.isSome = true := by
  cases count with
  | none =>
    rw [h.eq_nil, List.nil_append]
    refine iff_of_false ?_ Bool.false_ne_true
    rintro ⟨c, first, begins⟩
    rw [← continuesCount_none_iff, stop c first] at begins
    cases begins
  | some n =>
    obtain ⟨c, more, rfl, digit, nonzero⟩ := h.exists_cons
    refine iff_of_true ⟨c, rfl, continuesCount_none_iff.mp ?_⟩ rfl
    simp [continuesCount, digit, nonzero]

end Spells

/-- Splitting takes the longest count off any keys. -/
theorem exists_spells_splitCount (keys : Text) :
    ∃ digits count, Spells digits count ∧ keys = digits ++ (splitCount keys).rest ∧
      (splitCount keys).count = min (count.getD 1) maxCount ∧
      ∀ c ∈ (splitCount keys).rest.head?, continuesCount count c = false := by
  obtain ⟨digits, count, rest, rfl, spelled, stop⟩ := Spells.nothing.exists_longest keys
  rw [List.nil_append] at spelled
  rw [spelled.splitCount_append stop]
  exact ⟨digits, count, spelled, rfl, rfl, stop⟩

theorem splitCount_toDigits {n : Nat} {keys : Text} (pos : 0 < n) (le : n ≤ maxCount)
    (stop : ∀ c ∈ keys.head?, c.isDigit = false) :
    splitCount (Nat.toDigits 10 n ++ keys) = ⟨n, keys⟩ := by
  have ends : ∀ c ∈ keys.head?, continuesCount (some n) c = false := fun c first => by
    rw [continuesCount, stop c first, Bool.false_and]
  rw [(spells_toDigits pos).splitCount_append ends, Option.getD_some, Nat.min_eq_left le]

/-- The count that keys begin with is the decimal value of their digits, held at the largest count,
so printed counts are read back. -/
theorem splitCount_reads_back (keys : Text) :
    (∃ digits, keys = digits ++ (splitCount keys).rest ∧
      (¬ BeginsCount keys → digits = [] ∧ (splitCount keys).count = 1) ∧
      (BeginsCount keys →
        (∀ c ∈ digits, c.isDigit = true) ∧
        (∀ c ∈ (splitCount keys).rest.head?, c.isDigit = false) ∧
        (splitCount keys).count = min (Nat.ofDigitChars 10 digits 0) maxCount)) ∧
    ∀ (n : Nat) (rest : Text), 1 ≤ n → n ≤ maxCount → (∀ c ∈ rest.head?, c.isDigit = false) →
      splitCount (Nat.toDigits 10 n ++ rest) = ⟨n, rest⟩ ∧
      ∀ (m : Nat) (key trigger : Char), 1 ≤ m → m ≤ maxCount → key.isDigit = false →
        let outer := splitCount (Nat.toDigits 10 m ++ key :: (Nat.toDigits 10 n ++ rest))
        let target := Keys.argument trigger outer.count (Nat.toDigits 10 n ++ rest)
        outer.rest = key :: (Nat.toDigits 10 n ++ rest) ∧
        (rest = [trigger] → target = .complete (.lines (min (m * n) maxCount))) ∧
        ∀ motion, rest ≠ [trigger] → Keys.motion? rest = some motion →
          target = .complete (.stride ⟨motion, min (m * n) maxCount⟩) := by
  constructor
  · obtain ⟨digits, count, spelled, split, read, stop⟩ := exists_spells_splitCount keys
    have begins : BeginsCount keys ↔ count.isSome = true := by
      rw [split]
      exact spelled.beginsCount_iff stop
    rw [begins, read]
    refine ⟨digits, split, fun nothing => ?_, fun something => ?_⟩
    · obtain rfl : count = none := Option.not_isSome_iff_eq_none.mp nothing
      exact ⟨spelled.eq_nil, Nat.min_eq_left (by decide)⟩
    · obtain ⟨n, rfl⟩ := Option.isSome_iff_exists.mp something
      refine ⟨spelled.isDigit, fun c first => ?_, ?_⟩
      · simpa [continuesCount] using stop c first
      · rw [spelled.value]
        rfl
  · intro n rest pos le stop
    have inner : splitCount (Nat.toDigits 10 n ++ rest) = ⟨n, rest⟩ :=
      splitCount_toDigits pos le stop
    refine ⟨inner, fun m key trigger pos' le' other => ?_⟩
    have ends : ∀ c ∈ (key :: (Nat.toDigits 10 n ++ rest)).head?, c.isDigit = false := by
      rintro c first
      obtain rfl : key = c := Option.some.inj first
      exact other
    have outer := splitCount_toDigits pos' le' ends
    have product : 0 < min (m * n) maxCount :=
      Nat.lt_min.mpr ⟨Nat.mul_pos pos' pos, by decide⟩
    simp only [outer, Keys.argument, inner, countProduct]
    refine ⟨trivial, ?_, fun motion apart found => ?_⟩
    · rintro rfl
      exact if_pos rfl
    · cases rest with
      | nil => cases found
      | cons c rest => simp only [apart, if_false, found, KeyReader.repeated_eq motion product]

theorem splitCount_reads_back_of_huge_counts :
    let keys := "42949672960w".toList
    let argument := Nat.toDigits 10 80000 ++ ['w']
    let outer := splitCount (Nat.toDigits 10 70000 ++ 'd' :: argument)
    BeginsCount keys ∧ splitCount keys = ⟨maxCount, ['w']⟩ ∧
      (∃ digits, keys = digits ++ ['w'] ∧
        maxCount = min (Nat.ofDigitChars 10 digits 0) maxCount) ∧
      (1 ≤ 80000 ∧ 80000 ≤ maxCount ∧ ∀ c ∈ ['w'].head?, c.isDigit = false) ∧
      splitCount argument = ⟨80000, ['w']⟩ ∧
      (1 ≤ 70000 ∧ 70000 ≤ maxCount ∧ 'd'.isDigit = false) ∧
      ['w'] ≠ ['d'] ∧ Keys.motion? ['w'] = some .nextWordStart ∧
      Keys.argument 'd' outer.count argument =
        .complete (.stride ⟨.nextWordStart, min (70000 * 80000) maxCount⟩) := by
  intro keys argument outer
  have begins : BeginsCount keys := ⟨'4', rfl, by decide⟩
  have held : splitCount keys = ⟨maxCount, ['w']⟩ := by decide +kernel
  have inside : 1 ≤ 80000 ∧ 80000 ≤ maxCount ∧ ∀ c ∈ ['w'].head?, c.isDigit = false :=
    ⟨by decide, by decide, by simp⟩
  have before : 1 ≤ 70000 ∧ 70000 ≤ maxCount ∧ 'd'.isDigit = false :=
    ⟨by decide, by decide, by decide⟩
  obtain ⟨⟨digits, split, -, value⟩, printed⟩ := splitCount_reads_back keys
  obtain ⟨read, product⟩ := printed 80000 ['w'] inside.1 inside.2.1 inside.2.2
  obtain ⟨-, -, total⟩ := product 70000 'd' 'd' before.1 before.2.1 before.2.2
  have exact := (value begins).2.2
  rw [held] at split exact
  exact ⟨begins, held, ⟨digits, split, exact⟩, inside, read, before, by decide, rfl,
    total .nextWordStart (by decide) rfl⟩

end ModalEditor
