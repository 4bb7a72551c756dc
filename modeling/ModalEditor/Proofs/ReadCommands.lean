import ModalEditor.Proofs.PrintedCounts

/-! # Commands that were read

A command is read with an operator or a motion that stands behind its count. Its counts are not
zero: motions are made, lines taken and texts put in once at least, even if an operator is given a
count of zero.
-/

namespace ModalEditor

theorem Parse.map_eq_complete {α γ : Type} {f : α → γ} {outcome : Parse α} {value : γ}
    (h : outcome.map f = .complete value) : ∃ x, outcome = .complete x ∧ f x = value := by
  cases outcome with
  | needsMore | invalid => cases h
  | complete x => exact ⟨x, rfl, Parse.complete.inj h⟩

theorem Keys.parse_cases {keys : Text} {command : Command} (h : parse keys = .complete command) :
    (∃ (op : Operator) (key : Char) (rest : Text), (splitCount keys).rest = key :: rest ∧
      op.parse (splitCount keys).count rest = .complete command) ∨
    ∃ motion : Motion, command = .move (motion.repeated (splitCount keys).count) := by
  simp only [parse] at h
  split at h
  · cases h
  · next key rest split =>
    split at h
    · next op _ => exact .inl ⟨op, key, rest, split, h⟩
    · split at h
      · next motion _ => exact .inr ⟨motion, (Parse.complete.inj h).symm⟩
      · cases h

theorem splitCount_pos (keys : Text) : 0 < (splitCount keys).count := by
  obtain ⟨_, count, spelled, -, read, -⟩ := exists_spells_splitCount keys
  rw [read]
  exact Nat.lt_min.mpr ⟨spelled.getD_pos, by decide⟩

/-! ## Counts -/

def Target.Counted : Target → Prop
  | .stride s => 0 < s.times
  | .lines count => 0 < count

/-- A command asks for something to be done once at least. -/
def Command.Counted : Command → Prop
  | move stride => 0 < stride.times
  | delete target | change target => target.Counted
  | put count | replace _ count => 0 < count
  | insert | append | appendAtEnd => True

theorem Motion.times_pos (m : Motion) (times : Nat) : 0 < (m.repeated times).times :=
  Nat.le_max_right times 1

theorem Keys.counted_of_argument {trigger : Char} {count : Nat} {keys : Text} {target : Target}
    (pos : 0 < count) (h : argument trigger count keys = .complete target) : target.Counted := by
  simp only [argument] at h
  split at h
  · cases h
  · split at h
    · cases h
      exact Nat.lt_min.mpr ⟨Nat.mul_pos pos (splitCount_pos keys), by decide⟩
    · split at h
      · cases h
        exact Motion.times_pos ..
      · cases h

variable {command : Command}

theorem Operator.counted {op : Operator} {count : Nat} {keys : Text}
    (h : op.parse count keys = .complete command) : command.Counted := by
  have pos : 0 < max count 1 := Nat.lt_of_lt_of_le Nat.one_pos (Nat.le_max_right ..)
  cases op with
  | insert | append | appendAtEnd =>
    cases h
    trivial
  | deleteChar =>
    cases h
    exact Motion.times_pos ..
  | deleteLine | put =>
    cases h
    exact pos
  | delete | change =>
    obtain ⟨target, read, rfl⟩ := Parse.map_eq_complete h
    exact Keys.counted_of_argument pos read
  | replace =>
    simp only [parse] at h
    split at h
    · cases h
    · cases h
      exact pos

theorem Keys.counted {keys : Text} (h : parse keys = .complete command) : command.Counted := by
  rcases parse_cases h with ⟨op, key, rest, -, read⟩ | ⟨motion, rfl⟩
  · exact Operator.counted read
  · exact Motion.times_pos ..

/-! ## Replacements -/

theorem Operator.mem_of_mem_replace {op : Operator} {count n : Nat} {keys : Text} {g : Cluster}
    {c : Char} (h : op.parse count keys = .complete (.replace g n)) (mem : c ∈ g) : c ∈ keys := by
  cases op with
  | insert | append | appendAtEnd | deleteChar | deleteLine | put => cases h
  | delete | change =>
    obtain ⟨_, -, made⟩ := Parse.map_eq_complete h
    cases made
  | replace =>
    simp only [parse] at h
    split at h
    · cases h
    · next first later split =>
      cases h
      rw [← flatten_clusters keys, split]
      exact List.mem_append_left _ mem

theorem rest_splitCount_subset (keys : Text) : (splitCount keys).rest ⊆ keys := by
  obtain ⟨digits, _, -, split, -, -⟩ := exists_spells_splitCount keys
  intro c mem
  rw [split]
  exact List.mem_append_right _ mem

theorem Keys.mem_of_mem_replace {keys : Text} {g : Cluster} {n : Nat} {c : Char}
    (h : parse keys = .complete (.replace g n)) (mem : c ∈ g) : c ∈ keys := by
  rcases parse_cases h with ⟨op, key, rest, split, read⟩ | ⟨_, moves⟩
  · apply rest_splitCount_subset keys
    rw [split]
    exact .tail _ (Operator.mem_of_mem_replace read mem)
  · cases moves

end ModalEditor
