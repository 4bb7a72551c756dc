import ModalEditor.Proofs.Typing

/-! # The keys of deletions and changes

Deleting and changing differ by their key and by what the command does after the edit. Their
targets are typed alike: a motion, or the same key again for whole lines, with one count before the
key and one after it. Deleting the cluster under the caret has a key of its own.
-/

namespace ModalEditor

def trigger (inserts : Bool) : Char :=
  if inserts then 'c' else 'd'

def Command.take (inserts : Bool) (target : Target) : Command :=
  if inserts then .change target else .delete target

/-- The keys that change or delete a target. Both counts multiply; what would be larger than the
largest count is that. -/
inductive TargetKeys : Text → Target → Bool → Prop
  | cluster {digits : Text} {count : Option Nat} : Spells digits count →
      TargetKeys (digits ++ ['x']) (.stride ⟨.right, min (count.getD 1) maxCount⟩) false
  | motion {digits more : Text} {outer inner : Option Nat} {key : Char} {m : Motion}
      {inserts : Bool} : Spells digits outer → Spells more inner →
      continuesCount inner key = false → Keys.motion? [key] = some m →
      TargetKeys (digits ++ trigger inserts :: more ++ [key])
        (.stride ⟨m, min (outer.getD 1 * inner.getD 1) maxCount⟩) inserts
  | lines {digits more : Text} {outer inner : Option Nat} {inserts : Bool} :
      Spells digits outer → Spells more inner →
      TargetKeys (digits ++ trigger inserts :: more ++ [trigger inserts])
        (.lines (min (outer.getD 1 * inner.getD 1) maxCount)) inserts

namespace KeyReader

variable {digits more : Text} {outer inner : Option Nat} {key : Char} {m : Motion}

theorem extend?_eq_none_of_stop {count : Option Nat} (stop : continuesCount count key = false) :
    extend? count [key] = none := by
  simp [extend?, stop]

theorem parse_cluster (h : Spells digits outer) :
    Keys.parse (digits ++ ['x']) =
      .complete (.delete (.stride ⟨.right, min (outer.getD 1) maxCount⟩)) := by
  have total : total ⟨outer, none, none⟩ = min (outer.getD 1) maxCount := by simp [total]
  have stop : continuesCount outer 'x' = false := rfl
  have key : Keys.operator? 'x' = some .deleteChar := rfl
  rw [parse_append (.count h) (by decide), ← total]
  simp only [read, readCommand, extend?_eq_none_of_stop stop, key, readOperator]

theorem exists_reads_trigger (h : Spells digits outer) (h' : Spells more inner) (inserts : Bool)
    (plain : CharKind.of key = .plain) :
    ∃ r, Reads r (digits ++ trigger inserts :: more) ∧
      Keys.parse (digits ++ trigger inserts :: more ++ [key]) =
        (readArgument ⟨outer, r.waiting, inner⟩ (trigger inserts) (Command.take inserts) [key]).1 := by
  have whole : clusters [key] = [[key]] := clusters_of_plain (by simpa using plain)
  cases inserts with
  | false =>
    have reads := Reads.argument h h' (show Waiting.delete ≠ .replace by decide)
    exact ⟨_, reads, parse_append reads whole⟩
  | true =>
    have reads := Reads.argument h h' (show Waiting.change ≠ .replace by decide)
    exact ⟨_, reads, parse_append reads whole⟩

end KeyReader

/-- Such keys begin a command until the last one, which completes it. -/
theorem TargetKeys.parse {keys : Text} {target : Target} {inserts : Bool}
    (h : TargetKeys keys target inserts) :
    ∃ r waiting key, keys = waiting ++ [key] ∧ KeyReader.Reads r waiting ∧
      CharKind.of key = .plain ∧ Keys.parse keys = .complete (Command.take inserts target) := by
  cases h with
  | cluster spelled =>
    exact ⟨_, _, 'x', rfl, .count spelled, by decide, KeyReader.parse_cluster spelled⟩
  | @motion _ _ _ inner key _ inserts spelled spelled' stop hm =>
    have plain := (Keys.of_eq_plain_of_motion? hm).2
    have ne : [key] ≠ [trigger inserts] := by
      rintro same
      rw [same] at hm
      cases inserts <;> cases hm
    obtain ⟨r, reads, parsed⟩ := KeyReader.exists_reads_trigger spelled spelled' inserts plain
    refine ⟨r, _, key, rfl, reads, plain, ?_⟩
    rw [parsed]
    simp only [KeyReader.readArgument, KeyReader.extend?_eq_none_of_stop stop, if_neg ne, hm]
    rfl
  | @lines _ _ _ inner inserts spelled spelled' =>
    have plain : CharKind.of (trigger inserts) = .plain := by cases inserts <;> decide
    have stop : continuesCount inner (trigger inserts) = false := by cases inserts <;> rfl
    obtain ⟨r, reads, parsed⟩ := KeyReader.exists_reads_trigger spelled spelled' inserts plain
    refine ⟨r, _, trigger inserts, rfl, reads, plain, ?_⟩
    rw [parsed]
    simp only [KeyReader.readArgument, KeyReader.extend?_eq_none_of_stop stop, if_true]
    rfl

theorem TargetKeys.count_pos {keys : Text} {count : Nat} {inserts : Bool}
    (h : TargetKeys keys (.lines count) inserts) : 0 < count := by
  cases h with
  | lines spelled spelled' => exact KeyReader.total_pos spelled none spelled'

theorem Session.typed_target {β : Type} [Host β] [FreeCaret β] {s : Session β} {keys : Text}
    {target : Target} {inserts : Bool} {effect : Effect} {host : β} {calls : List Text}
    (ready : s.Ready) (h : TargetKeys keys target inserts)
    (he : (Command.take inserts target).effect? s.view = some effect)
    (made : effect.Made s.host host) (flat : calls.flatten = keys) :
    s.Typed calls (s.outcome effect host) := by
  obtain ⟨r, waiting, key, rfl, reads, plain, parsed⟩ := h.parse
  exact typed_command ready reads plain parsed he made flat

end ModalEditor
