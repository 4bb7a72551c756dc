import ModalEditor.Proofs.Repetition
import ModalEditor.Proofs.Typing

/-! # A count is repetition

A motion typed with a count leads where the same key leads when it is pressed as often, although
the caret is brought back onto the line after every press and not between the steps of a count.
-/

namespace ModalEditor

namespace Session

variable {β : Type} [Host β] {s : Session β} {key : Char} {m : Motion}

def place (s : Session β) : Place :=
  ⟨Host.caret s.host, s.engine.aim⟩

/-- The session once the caret has gone to a place, with nothing pending. -/
def arrive (place : Place) (s : Session β) : Session β :=
  ⟨{ s.engine with aim := place.aim, pending := [] }, Host.moveCaret place.pos s.host⟩

variable [FreeCaret β]

theorem arrive_arrive (place place' : Place) (s : Session β) :
    (s.arrive place).arrive place' = s.arrive place' := by
  simp only [arrive, FreeCaret.moveCaret_moveCaret]

theorem place_arrive (place : Place) (s : Session β) : (s.arrive place).place = place := by
  simp only [arrive, Session.place, FreeCaret.caret_moveCaret]

theorem caret_arrive (place : Place) (s : Session β) :
    Host.caret (s.arrive place).host = place.pos :=
  FreeCaret.caret_moveCaret ..

theorem page_arrive (place : Place) (s : Session β) :
    Host.page (s.arrive place).host = Host.page s.host :=
  FreeCaret.page_moveCaret ..

theorem ready_arrive {place : Place} (normal : s.engine.mode = .normal)
    (rests : (Host.page s.host).Rests .normal place.pos) : (s.arrive place).Ready := by
  rw [← page_arrive place s, ← congrArg Place.pos (place_arrive place s)] at rests
  exact ⟨normal, rfl, rests⟩

/-- The key of a motion, with or without a count, takes the caret as many steps on and then back
onto the line. -/
theorem interprets_motion {digits : Text} {count : Option Nat} (ready : s.Ready)
    (spelled : Spells digits count) (stop : continuesCount count key = false)
    (hm : Keys.motion? [key] = some m) :
    s.Interprets ((digits.map fun c => [c]) ++ [[key]])
      (s.arrive (Place.pullBack (Host.page s.host)
        ((m.step (Host.page s.host) s.engine.separators)^[min (count.getD 1) maxCount]
          s.place))) := by
  rw [← Motion.walk_eq_iterate]
  let dest := m.walk (Host.page s.host) s.engine.separators (min (count.getD 1) maxCount) s.place
  let effect : Effect := { aim := dest.aim, caret := some (.at dest.pos) }
  have made : effect.Made s.host s.host := rfl
  have done := interprets_command ready (.count spelled) (KeyReader.parse_motion spelled stop hm)
    rfl made
  have settled : (s.arrive dest).settle = s.arrive (dest.pullBack (Host.page s.host)) :=
    settle_moveCaret { s.engine with aim := dest.aim, pending := [] } ready.normal dest.pos s.host
  rw [← settled]
  exact done

theorem typed_motion {digits : Text} {count : Option Nat} (ready : s.Ready)
    (spelled : Spells digits count) (stop : continuesCount count key = false)
    (hm : Keys.motion? [key] = some m) {calls : List Text} (flat : calls.flatten = digits ++ [key]) :
    s.Typed calls (s.arrive (Place.pullBack (Host.page s.host)
      ((m.step (Host.page s.host) s.engine.separators)^[min (count.getD 1) maxCount]
        s.place))).announce.2 := by
  refine Interprets.typed ?_ ready.settled ?_
  · rintro rfl
    simp at flat
  · rw [KeyReader.flatMap_clusters_of_reads (.count spelled) (Keys.of_eq_plain_of_motion? hm).2 flat]
    exact interprets_motion ready spelled stop hm

theorem interprets_press (ready : s.Ready) (stop : continuesCount none key = false)
    (hm : Keys.motion? [key] = some m) :
    s.Interprets [[key]] (s.arrive (m.press (Host.page s.host) s.engine.separators s.place)) := by
  have pressed := interprets_motion ready .nothing stop hm
  rwa [Option.getD_none, Nat.min_eq_left (by decide), Function.iterate_one] at pressed

/-- After every press the caret rests on the page, so that the next one may follow. -/
theorem interprets_presses (ready : s.Ready) (stop : continuesCount none key = false)
    (hm : Keys.motion? [key] = some m) (n : Nat) :
    s.Interprets (List.replicate (n + 1) [key])
      (s.arrive ((m.press (Host.page s.host) s.engine.separators)^[n + 1] s.place)) := by
  have start : (Host.page s.host).Rests .normal s.place.pos := ready.caret
  induction n with
  | zero => exact interprets_press ready stop hm
  | succ n ih =>
    let reached := (m.press (Host.page s.host) s.engine.separators)^[n + 1] s.place
    have rests : (Host.page s.host).Rests .normal reached.pos :=
      Motion.rests_iterate_press m start (n + 1)
    have last := interprets_press (ready_arrive ready.normal rests) stop hm
    rw [page_arrive, place_arrive, arrive_arrive] at last
    rw [List.replicate_succ', Function.iterate_succ_apply', interprets_append]
    exact ⟨_, ih, last⟩

theorem typed_presses (ready : s.Ready) (stop : continuesCount none key = false)
    (hm : Keys.motion? [key] = some m) (n : Nat) :
    s.Typed (List.replicate (n + 1) [key])
      (s.arrive ((m.press (Host.page s.host) s.engine.separators)^[n + 1] s.place)).announce.2 := by
  have plain := (Keys.of_eq_plain_of_motion? hm).2
  have whole : clusters [key] = [[key]] :=
    clusters_of_plain fun c hc => List.mem_singleton.mp hc ▸ plain
  have cut : (List.replicate (n + 1) [key]).flatMap clusters = List.replicate (n + 1) [key] := by
    rw [List.flatMap_replicate, whole, List.flatten_replicate_singleton]
  refine Interprets.typed (by simp) ready.settled ?_
  rw [cut]
  exact interprets_presses ready stop hm n

end Session

/-- A count before the key of a motion comes to pressing the key as many times. -/
theorem Session.typed_count_eq_presses {β : Type} [Host β] [FreeCaret β] (s : Session β)
    (ready : s.Ready) (key : Char) (hkey : key ∈ ['w', 'e', 'h', 'j', 'k', 'l', '$'])
    (n : Nat) (pos : 1 ≤ n) (le : n ≤ maxCount)
    (calls : List Text) (flat : calls.flatten = Nat.toDigits 10 n ++ [key]) :
    ∃ t, s.Typed calls t ∧ s.Typed (List.replicate n [key]) t ∧ t.engine.pending = [] := by
  obtain ⟨notDigit, bound⟩ : key.isDigit = false ∧ (Keys.motion? [key]).isSome := by
    simp only [List.mem_cons, List.not_mem_nil, or_false] at hkey
    rcases hkey with rfl | rfl | rfl | rfl | rfl | rfl | rfl <;> exact ⟨rfl, rfl⟩
  obtain ⟨m, hm⟩ := Option.isSome_iff_exists.mp bound
  have stop : ∀ count, continuesCount count key = false := fun count => by
    rw [continuesCount, notDigit, Bool.false_and]
  obtain ⟨n, rfl⟩ := Nat.exists_eq_succ_of_ne_zero (Nat.ne_of_gt pos)
  have counted := typed_motion ready (spells_toDigits pos) (stop _) hm flat
  rw [Option.getD_some, Nat.min_eq_left le] at counted
  have pressed := typed_presses ready (stop none) hm n
  have start : (Host.page s.host).Rests .normal s.place.pos := ready.caret
  rw [Motion.iterate_press start] at pressed
  exact ⟨_, counted, pressed, rfl⟩

theorem Session.typed_count_eq_presses_over_short_lines :
    let s : Session OpenBuffer :=
      ⟨.ofConfig {}, .ofText "four letters\nab\n\nlong again".toList ⟨0, 7⟩⟩
    ∃ t, s.Typed ["1".toList, "2j".toList] t ∧ s.Typed (List.replicate 12 "j".toList) t ∧
      t.engine.pending = [] := by
  intro s
  have ready : s.Ready := ⟨rfl, rfl, by decide⟩
  exact typed_count_eq_presses s ready 'j' (by decide) 12 (by decide) (by decide) _ rfl

end ModalEditor
