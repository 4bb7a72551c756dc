import Mathlib.Data.List.Induction
import ModalEditor.Proofs.KeyReader
import ModalEditor.Proofs.OnPage
import ModalEditor.Proofs.Refusal
import ModalEditor.Proofs.SplitCalls

/-! # Typing a command

Keys that begin a command wait, and the last one has the command carried out. It makes no difference
whether the keys come in one call or one at a time, or in anything between.
-/

namespace ModalEditor

namespace Session

/-- The calls all succeed, one after the other, and the second session is where they lead. -/
inductive Typed {β : Type} [Host β] : List Text → Session β → Session β → Prop
  | nothing {s : Session β} : Typed [] s s
  | call {text : Text} {calls : List Text} {signals : List Signal} {s t u : Session β} :
      s.typeText text = (.ok signals, t) → Typed calls t u → Typed (text :: calls) s u

section Interprets

variable {β : Type} [Host β] {s t u : Session β} {gs more : List Cluster}

theorem Typed.append {calls later : List Text} (h : s.Typed calls t) (h' : t.Typed later u) :
    s.Typed (calls ++ later) u := by
  induction h with
  | nothing => exact h'
  | call ok _ ih => exact .call ok (ih h')

theorem interprets_append :
    s.Interprets (gs ++ more) u ↔ ∃ t, s.Interprets gs t ∧ t.Interprets more u := by
  induction gs generalizing s with
  | nil =>
    constructor
    · intro h
      exact ⟨s, .nothing, h⟩
    · rintro ⟨t, ⟨⟩, h⟩
      exact h
  | cons g gs ih =>
    constructor
    · rintro (_ | ⟨normal, hp, h⟩)
      obtain ⟨t, first, later⟩ := ih.mp h
      exact ⟨t, .cluster normal hp first, later⟩
    · rintro ⟨t, _ | ⟨normal, hp, first⟩, later⟩
      exact .cluster normal hp (ih.mpr ⟨t, first, later⟩)

theorem Interprets.feed (h : s.Interprets gs u) : s.feed gs = (none, u) := by
  induction h with
  | nothing => rfl
  | cluster normal hp _ ih => rw [feed_cons_of_pressed _ normal hp, ih]

theorem Interprets.settled [FreeCaret β] (h : s.Interprets gs u) (settled : s.settle = s) :
    u.settle = u := by
  induction h with
  | nothing => exact settled
  | cluster _ _ _ ih => exact ih (settle_settle _)

theorem Interprets.of_retell {style : CaretStyle} {context : Context} {extra : Nat}
    (h : (s.retell style context extra).Interprets gs u) :
    ∃ t, s.Interprets gs t ∧ u = t.retell style context extra := by
  generalize hs : s.retell style context extra = s' at h
  induction h generalizing s with
  | nothing => exact ⟨s, .nothing, hs.symm⟩
  | @cluster g gs s' t' u' normal hp later ih =>
    subst hs
    rw [press_retell] at hp
    rcases hp' : s.press g with ⟨failure, t⟩
    rw [hp'] at hp
    obtain ⟨rfl, rfl⟩ := Prod.mk.inj hp
    obtain ⟨u, first, rfl⟩ := ih (settle_retell ..).symm
    exact ⟨u, .cluster normal hp' first, rfl⟩

theorem Interprets.typeText {text : Text} (h : s.Interprets (clusters text) u)
    (settled : u.settle = u) : s.typeText text = (.ok u.engine.news, u.announce.2) := by
  rw [Session.typeText, h.feed, finish, settled]
  rfl

theorem settle_announce (s : Session β) : s.announce.2.settle = s.settle.announce.2 := by
  simp only [announce, engine_settle]
  exact settle_with rfl

/-- The first of several calls. What the host is told after it changes nothing for the keys to
come. -/
theorem Interprets.first_call [FreeCaret β] {text : Text} (settled : s.settle = s)
    (h : s.Interprets (clusters text ++ more) u) :
    ∃ m u' : Session β, s.typeText text = (.ok m.engine.news, m.announce.2) ∧
      m.announce.2.settle = m.announce.2 ∧ m.announce.2.Interprets more u' ∧
      u = u'.retell m.engine.toldStyle m.engine.toldContext m.engine.beeps := by
  obtain ⟨m, first, later⟩ := interprets_append.mp h
  have rests := first.settled settled
  rw [← retell_announce m] at later
  obtain ⟨u', onward, told⟩ := later.of_retell
  refine ⟨m, u', first.typeText rests, ?_, onward, told⟩
  rw [settle_announce, rests]

/-- Clusters may be given in any number of calls. The last one tells the host where they led. -/
theorem Interprets.typed [FreeCaret β] {calls : List Text} (ne : calls ≠ [])
    (settled : s.settle = s) (h : s.Interprets (calls.flatMap clusters) u) :
    s.Typed calls u.announce.2 := by
  induction calls generalizing s u with
  | nil => exact absurd rfl ne
  | cons text calls ih =>
    rw [List.flatMap_cons] at h
    obtain ⟨m, u', called, told, later, rfl⟩ := h.first_call settled
    refine .call called ?_
    cases calls with
    | nil =>
      cases later
      exact .nothing
    | cons text' calls =>
      have typed := ih (List.cons_ne_nil _ _) told later
      exact typed

end Interprets

end Session

/-! ## Keys that wait -/

namespace KeyReader

variable {r : KeyReader} {keys : Text} {c : Char}

theorem plain_of_reads (h : Reads r keys) : ∀ c ∈ keys, CharKind.of c = .plain := by
  have digits : ∀ {digits : Text} {count : Option Nat}, Spells digits count →
      ∀ c ∈ digits, CharKind.of c = .plain := fun spelled c hc =>
    of_eq_plain_of_isDigit (spelled.isDigit c hc)
  cases h with
  | count spelled => exact digits spelled
  | @argument _ _ _ _ w spelled spelled' _ =>
    intro c hc
    rcases List.mem_append.mp hc with hc | hc
    · exact digits spelled c hc
    · rcases List.mem_cons.mp hc with rfl | hc
      · cases w <;> decide
      · exact digits spelled' c hc
  | replacement spelled =>
    intro c hc
    rcases List.mem_append.mp hc with hc | hc
    · exact digits spelled c hc
    · obtain rfl := List.mem_singleton.mp hc
      decide

theorem parse_of_reads (h : Reads r keys) : Keys.parse keys = .needsMore := by
  cases h with
  | count spelled => simp only [Keys.parse, spelled.splitCount_self]
  | @argument _ _ _ _ w spelled spelled' hw =>
    rw [parse_waiting spelled]
    cases w with
    | delete | change => simp only [Keys.argument, spelled'.splitCount_self, Parse.map]
    | replace => exact absurd rfl hw
  | replacement spelled => exact parse_waiting spelled .replace []

theorem spells_of_append {count : Option Nat} (h : Spells (keys ++ [c]) count) :
    ∃ count', Spells keys count' := by
  generalize hk : keys ++ [c] = digits at h
  cases h with
  | nothing => simp at hk
  | digit spelled _ =>
    obtain ⟨rfl, -⟩ := List.append_inj' hk rfl
    exact ⟨_, spelled⟩

theorem reads_of_append (h : Reads r (keys ++ [c])) : ∃ r', Reads r' keys := by
  generalize hk : keys ++ [c] = whole at h
  cases h with
  | count spelled =>
    obtain ⟨count, spelled⟩ := spells_of_append (hk ▸ spelled)
    exact ⟨_, .count spelled⟩
  | @argument digits more _ _ w spelled spelled' hw =>
    rcases List.eq_nil_or_concat more with rfl | ⟨more, d, rfl⟩
    · obtain ⟨rfl, -⟩ := List.append_inj' hk rfl
      exact ⟨_, .count spelled⟩
    · rw [List.concat_eq_append] at hk spelled'
      rw [← List.cons_append, ← List.append_assoc] at hk
      obtain ⟨rfl, -⟩ := List.append_inj' hk rfl
      obtain ⟨count, spelled'⟩ := spells_of_append spelled'
      exact ⟨_, .argument spelled spelled' hw⟩
  | replacement spelled =>
    obtain ⟨rfl, -⟩ := List.append_inj' hk rfl
    exact ⟨_, .count spelled⟩

theorem parse_motion {count : Option Nat} {m : Motion} (h : Spells keys count)
    (stop : continuesCount count c = false) (hm : Keys.motion? [c] = some m) :
    Keys.parse (keys ++ [c]) = .complete (.move ⟨m, min (count.getD 1) maxCount⟩) := by
  have pos : 0 < min (count.getD 1) maxCount := Nat.lt_min.mpr ⟨h.getD_pos, by decide⟩
  have other : Keys.operator? c = none := by
    cases hop : Keys.operator? c with
    | none => rfl
    | some op =>
      have none' := Keys.operators_disjoint_motions (c, op) (Keys.mem_of_operator? hop)
      cases hm.symm.trans none'
  have next : ∀ d ∈ [c].head?, continuesCount count d = false := by simpa using stop
  simp only [Keys.parse, h.splitCount_append next, other, hm, repeated_eq m pos]

end KeyReader

theorem flatMap_clusters_of_plain {calls : List Text}
    (h : ∀ c ∈ calls.flatten, CharKind.of c = .plain) :
    calls.flatMap clusters = calls.flatten.map fun c => [c] := by
  induction calls with
  | nil => rfl
  | cons text calls ih =>
    rw [List.flatten_cons] at h
    rw [List.flatMap_cons, List.flatten_cons, List.map_append,
      clusters_of_plain fun c hc => h c (List.mem_append_left _ hc),
      ih fun c hc => h c (List.mem_append_right _ hc)]

theorem KeyReader.flatMap_clusters_of_reads {r : KeyReader} {keys : Text} {key : Char}
    {calls : List Text} (hr : Reads r keys) (plain : CharKind.of key = .plain)
    (flat : calls.flatten = keys ++ [key]) :
    calls.flatMap clusters = (keys.map fun c => [c]) ++ [[key]] := by
  rw [flatMap_clusters_of_plain, flat, List.map_append, List.map_singleton]
  rw [flat]
  intro c hc
  rcases List.mem_append.mp hc with hc | hc
  · exact plain_of_reads hr c hc
  · exact List.mem_singleton.mp hc ▸ plain

/-! ## What a command leaves behind -/

def Effect.Made {β : Type} [Host β] (effect : Effect) (host host' : β) : Prop :=
  match effect.edit with
  | none => host' = host
  | some edit => Host.perform edit host = (none, host')

namespace Session

open KeyReader

variable {β : Type} [Host β] {s : Session β} {g : Cluster} {r : KeyReader} {keys : Text}
  {command : Command} {effect : Effect} {host : β}

theorem press_of_complete (hr : s.reading g = .complete command)
    (he : command.effect? s.view = some effect) (made : effect.Made s.host host) :
    s.press g = (none, s.carryOut effect host) := by
  unfold Effect.Made at made
  rw [press_eq, hr]
  simp only [he]
  cases hedit : effect.edit with
  | none =>
    rw [hedit] at made
    rw [made]
  | some edit =>
    rw [hedit] at made
    simp only [made]

/-- In normal mode, with nothing pending and the caret where it may rest. -/
structure Ready (s : Session β) : Prop where
  normal : s.engine.mode = .normal
  idle : s.engine.pending = []
  caret : (Host.page s.host).Rests .normal (Host.caret s.host)

theorem Ready.settled (h : s.Ready) : s.settle = s := by
  apply settle_of_not_overhangs
  rintro ⟨-, some, past⟩
  rcases h.caret.2 with inside | ⟨blank, -⟩ <;> omega

/-- Keys that begin a command are kept and do nothing. -/
theorem interprets_keys_of_settled (normal : s.engine.mode = .normal) (idle : s.engine.pending = [])
    (settled : s.settle = s) (hr : Reads r keys) :
    s.Interprets (keys.map fun c => [c]) { s with engine := s.engine.extend keys } := by
  -- All pending keys are read again with the last one, so the keys before it come first.
  induction keys using List.reverseRec generalizing r with
  | nil =>
    have same : s.engine.extend [] = s.engine := by simp [Engine.extend]
    rw [same]
    exact .nothing
  | append_singleton keys c ih =>
    obtain ⟨r', before⟩ := reads_of_append hr
    have waits : ({ s with engine := s.engine.extend keys } : Session β).reading [c] =
        .needsMore := by
      simp only [reading, Engine.extend, idle, List.nil_append]
      exact parse_of_reads hr
    have extended : (s.engine.extend keys).extend [c] = s.engine.extend (keys ++ [c]) := by
      simp only [Engine.extend, List.append_assoc]
    have kept : ({ s with engine := s.engine.extend (keys ++ [c]) } : Session β).settle =
        ⟨s.engine.extend (keys ++ [c]), s.settle.host⟩ := settle_with rfl
    rw [List.map_append, interprets_append]
    refine ⟨_, ih before,
      .cluster (t := { s with engine := s.engine.extend (keys ++ [c]) }) normal ?_ ?_⟩
    · rw [press_eq, waits, extended]
    · rw [kept, settled]
      exact .nothing

theorem interprets_keys (h : s.Ready) (hr : Reads r keys) :
    s.Interprets (keys.map fun c => [c]) { s with engine := s.engine.extend keys } :=
  interprets_keys_of_settled h.normal h.idle h.settled hr

/-- The session after the call in which a command was carried out. -/
def outcome (effect : Effect) (host : β) (s : Session β) : Session β :=
  (s.carryOut effect host).settle.announce.2

@[simp] theorem pending_outcome (effect : Effect) (host : β) (s : Session β) :
    (s.outcome effect host).engine.pending = [] := by
  simp only [outcome, announce, engine_settle]
  rfl

@[simp] theorem mode_outcome (effect : Effect) (host : β) (s : Session β) :
    (s.outcome effect host).engine.mode = if effect.inserts then .insert else s.engine.mode := by
  rw [← mode_carryOut effect host, ← engine_settle (s.carryOut effect host)]
  rfl

@[simp] theorem register_outcome (effect : Effect) (host : β) (s : Session β) :
    (s.outcome effect host).engine.register = effect.register.or s.engine.register := by
  rw [← register_carryOut effect host, ← engine_settle (s.carryOut effect host)]
  rfl

theorem host_outcome_of_none (ready : s.Ready) (h : effect.caret = none) :
    (s.outcome effect s.host).host = s.host := by
  have kept : (s.carryOut effect s.host).host = s.host := by rw [host_carryOut, h]
  have mode := mode_carryOut effect s.host s
  show (s.carryOut effect s.host).settle.host = s.host
  generalize s.carryOut effect s.host = t at kept mode
  cases hi : effect.inserts with
  | true =>
    rw [hi, if_pos rfl] at mode
    rw [settle_of_insert mode, kept]
  | false =>
    rw [hi, if_neg Bool.false_ne_true] at mode
    obtain ⟨engine, _⟩ := t
    obtain rfl := kept
    rw [settle_with mode, ready.settled]

/-- Where a command puts the caret: where it is told in insert mode, and pulled back in normal
mode. -/
theorem host_outcome_of_at [FreeCaret β] (ready : s.Ready) {p : Position}
    (h : effect.caret = some (.at p)) :
    (s.outcome effect host).host =
      Host.moveCaret (if effect.inserts then p else (Host.page host).pullBack p) host := by
  have told : (s.carryOut effect host).host = Host.moveCaret p host := by
    rw [host_carryOut, h]
    rfl
  have mode := mode_carryOut effect host s
  show (s.carryOut effect host).settle.host = _
  generalize s.carryOut effect host = t at told mode
  cases hi : effect.inserts with
  | true =>
    rw [hi, if_pos rfl] at mode
    rw [settle_of_insert mode, told, if_pos rfl]
  | false =>
    rw [hi, if_neg Bool.false_ne_true, ready.normal] at mode
    obtain ⟨engine, _⟩ := t
    obtain rfl := told
    rw [settle_moveCaret engine mode, if_neg Bool.false_ne_true]

theorem caret_outcome_of_at [FreeCaret β] (ready : s.Ready) {p : Position}
    (h : effect.caret = some (.at p)) (stays : effect.inserts = false) :
    Host.page (s.outcome effect host).host = Host.page host ∧
      Host.caret (s.outcome effect host).host = (Host.page host).pullBack p := by
  rw [host_outcome_of_at ready h, stays, if_neg Bool.false_ne_true]
  exact ⟨FreeCaret.page_moveCaret .., FreeCaret.caret_moveCaret ..⟩

/-- Keys and a last cluster that are read as a command have it carried out. -/
theorem interprets_command (ready : s.Ready) (hr : Reads r keys)
    (hc : Keys.parse (keys ++ g) = .complete command) (he : command.effect? s.view = some effect)
    (made : effect.Made s.host host) :
    s.Interprets ((keys.map fun c => [c]) ++ [g]) (s.carryOut effect host).settle := by
  let waiting : Session β := { s with engine := s.engine.extend keys }
  have reads : waiting.reading g = .complete command := by
    simp only [waiting, reading, Engine.extend, ready.idle, List.nil_append]
    exact hc
  have done : waiting.carryOut effect host = s.carryOut effect host :=
    commit_extend effect host keys s
  rw [interprets_append]
  refine ⟨waiting, interprets_keys ready hr, .cluster ready.normal ?_ .nothing⟩
  rw [← done]
  exact press_of_complete reads he made

variable [FreeCaret β] {calls : List Text}

theorem typed_completion (ready : s.Ready) (hr : Reads r keys)
    (hc : Keys.parse (keys ++ g) = .complete command) (he : command.effect? s.view = some effect)
    (made : effect.Made s.host host)
    (cut : calls.flatMap clusters = (keys.map fun c => [c]) ++ [g]) :
    s.Typed calls (s.outcome effect host) := by
  refine Interprets.typed ?_ ready.settled ?_
  · rintro rfl
    simp at cut
  · rw [cut]
    exact interprets_command ready hr hc he made

theorem typed_command (ready : s.Ready) (hr : Reads r keys) {key : Char}
    (plain : CharKind.of key = .plain) (hc : Keys.parse (keys ++ [key]) = .complete command)
    (he : command.effect? s.view = some effect) (made : effect.Made s.host host)
    (flat : calls.flatten = keys ++ [key]) : s.Typed calls (s.outcome effect host) :=
  typed_completion ready hr hc he made (flatMap_clusters_of_reads hr plain flat)

end Session

end ModalEditor
