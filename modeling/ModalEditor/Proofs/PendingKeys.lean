import ModalEditor.Proofs.Events
import ModalEditor.Proofs.PrintedCounts
import ModalEditor.Proofs.Typing

/-! # What is pending

In normal mode the pending keys are the beginning of a command, whatever was typed and whatever the
host made of it. In insert mode no key is pending and no column is aimed for.
-/

namespace ModalEditor

namespace Keys

variable {keys digits rest : Text}

/-- Digits that write a count, or no digits at all: the first one is not zero. -/
def MaybeCount (keys : Text) : Prop :=
  (∀ c ∈ keys, c.isDigit = true) ∧ keys.head? ≠ some '0'

/-- The keys of a command up to where its argument or its own key is missing. -/
inductive Unfinished : Text → Prop
  | count {digits : Text} : MaybeCount digits → Unfinished digits
  | argument {outer inner : Text} {key : Char} : MaybeCount outer → key = 'd' ∨ key = 'c' →
      MaybeCount inner → Unfinished (outer ++ key :: inner)
  | replacement {outer : Text} : MaybeCount outer → Unfinished (outer ++ ['r'])

theorem unfinished_nil : Unfinished [] :=
  .count ⟨by simp, by simp⟩

theorem maybeCount_of_spells {count : Option Nat} (h : Spells digits count) :
    MaybeCount digits := by
  refine ⟨h.isDigit, ?_⟩
  cases count with
  | none =>
    rw [h.eq_nil]
    simp
  | some n =>
    obtain ⟨c, more, rfl, -, nonzero⟩ := h.exists_cons
    simpa using nonzero

theorem exists_digits (keys : Text) :
    ∃ digits, MaybeCount digits ∧ keys = digits ++ (splitCount keys).rest := by
  obtain ⟨digits, _, spelled, split, -⟩ := exists_spells_splitCount keys
  exact ⟨digits, maybeCount_of_spells spelled, split⟩

theorem maybeCount_of_splitCount (h : (splitCount keys).rest = []) : MaybeCount keys := by
  obtain ⟨digits, written, split⟩ := exists_digits keys
  rw [h, List.append_nil] at split
  rwa [split]

theorem maybeCount_of_argument {trigger : Char} {count : Nat} {command : Target → Command}
    (h : (argument trigger count keys).map command = .needsMore) : MaybeCount keys := by
  apply maybeCount_of_splitCount
  unfold argument at h
  cases hrest : (splitCount keys).rest with
  | nil => rfl
  | cons c rest =>
    simp only [hrest] at h
    split_ifs at h
    · cases h
    · cases hm : motion? (c :: rest) with
      | none | some => simp [hm, Parse.map] at h

/-- Keys after which more are needed are those of an unfinished command. -/
theorem unfinished_of_parse (h : parse keys = .needsMore) : Unfinished keys := by
  obtain ⟨outer, written, split⟩ := exists_digits keys
  unfold parse at h
  cases hrest : (splitCount keys).rest with
  | nil => exact .count (maybeCount_of_splitCount hrest)
  | cons c more =>
    simp only [hrest] at h
    rw [split, hrest]
    cases hop : operator? c with
    | none => cases hm : motion? (c :: more) <;> simp [hop, hm] at h
    | some op =>
      simp only [hop] at h
      have key := mem_of_operator? hop
      cases op with
      | insert | append | appendAtEnd | deleteChar | deleteLine | put => cases h
      | delete =>
        obtain rfl : c = 'd' := by simpa [operators] using key
        exact .argument written (.inl rfl) (maybeCount_of_argument h)
      | change =>
        obtain rfl : c = 'c' := by simpa [operators] using key
        exact .argument written (.inr rfl) (maybeCount_of_argument h)
      | replace =>
        obtain rfl : c = 'r' := by simpa [operators] using key
        obtain rfl : more = [] := by
          cases hg : clusters more with
          | nil => rw [← flatten_clusters more, hg, List.flatten_nil]
          | cons g gs => simp [Operator.parse, hg] at h
        exact .replacement written

theorem exists_spells (h : MaybeCount digits) : ∃ count, Spells digits count := by
  obtain ⟨digits, count, rest, rfl, spelled, stop⟩ := Spells.nothing.exists_longest digits
  rw [List.nil_append] at spelled
  obtain ⟨decimal, nonzero⟩ := h
  cases rest with
  | nil => exact ⟨count, by rwa [List.append_nil]⟩
  | cons c rest =>
    have digit : c.isDigit = true := decimal c (by simp)
    have ends := stop c rfl
    cases count with
    | some n => simp [continuesCount, digit] at ends
    | none =>
      rw [spelled.eq_nil] at nonzero
      have other : c ≠ '0' := by simpa using nonzero
      simp [continuesCount, digit, other] at ends

theorem exists_reads (h : Unfinished keys) : ∃ r, KeyReader.Reads r keys := by
  cases h with
  | count written =>
    obtain ⟨_, spelled⟩ := exists_spells written
    exact ⟨_, .count spelled⟩
  | @argument outer inner key written trigger written' =>
    obtain ⟨_, spelled⟩ := exists_spells written
    obtain ⟨_, spelled'⟩ := exists_spells written'
    rcases trigger with rfl | rfl
    · exact ⟨_, .argument (w := .delete) spelled spelled' (by decide)⟩
    · exact ⟨_, .argument (w := .change) spelled spelled' (by decide)⟩
  | replacement written =>
    obtain ⟨_, spelled⟩ := exists_spells written
    exact ⟨_, .replacement spelled⟩

theorem parse_eq_needsMore_iff : parse keys = .needsMore ↔ Unfinished keys := by
  constructor
  · exact unfinished_of_parse
  · intro unfinished
    obtain ⟨r, reads⟩ := exists_reads unfinished
    exact KeyReader.parse_of_reads reads

theorem Unfinished.completed (h : Unfinished keys) :
    ∃ command, parse (keys ++ ['l']) = .complete command := by
  obtain ⟨r, reads⟩ := exists_reads h
  rw [KeyReader.parse_append reads (by decide)]
  cases reads with
  | count _ => exact ⟨_, rfl⟩
  | replacement _ => exact ⟨_, rfl⟩
  | @argument _ _ _ _ w _ _ other =>
    cases w with
    | delete | change => exact ⟨_, rfl⟩
    | replace => exact absurd rfl other

end Keys

/-- In insert mode nothing is pending, and in normal mode more keys are needed. No column is aimed
for in insert mode either, as long as commands come from keys. -/
structure Engine.Orderly (keyed : Prop) (engine : Engine) : Prop where
  idle : engine.mode = .insert → engine.pending = []
  aimless : keyed → engine.mode = .insert → engine.aim = none
  waiting : engine.mode = .normal → Keys.parse engine.pending = .needsMore

namespace Engine

variable {keyed : Prop} {engine : Engine}

theorem orderly_of_idle (pending : engine.pending = [])
    (aimless : keyed → engine.mode = .insert → engine.aim = none) : engine.Orderly keyed where
  idle _ := pending
  aimless := aimless
  waiting _ := by
    rw [pending]
    rfl

theorem orderly_ofConfig (config : Config) : (ofConfig config).Orderly keyed :=
  orderly_of_idle rfl fun _ _ => rfl

theorem Orderly.enter (h : engine.Orderly keyed) (mode : Mode) :
    (engine.enter mode).Orderly keyed := by
  unfold Engine.enter
  split
  · exact h
  · exact orderly_of_idle rfl fun _ _ => rfl

theorem Orderly.unfinished (h : engine.Orderly keyed) : Keys.Unfinished engine.pending := by
  cases hm : engine.mode with
  | normal => exact Keys.unfinished_of_parse (h.waiting hm)
  | insert =>
    rw [h.idle hm]
    exact Keys.unfinished_nil

theorem Orderly.told (h : engine.Orderly keyed) : engine.told.Orderly keyed :=
  ⟨h.idle, h.aimless, h.waiting⟩

end Engine

namespace Session

variable {β : Type} [Host β] {keyed : Prop} {s t : Session β} {g : Cluster}

/-- How a call goes on: to an engine in order, or to one that a failure puts in order. -/
def EndsOrderly (keyed : Prop) : Option Failure × Session β → Prop
  | (none, s) => s.engine.Orderly keyed
  | (some _, s) => s.engine.abandon.Orderly keyed

theorem aim_carryOut (effect : Effect) (host : β) (normal : s.engine.mode = .normal)
    (typed : (s.carryOut effect host).engine.mode = .insert) :
    (s.carryOut effect host).engine.aim = none := by
  rw [mode_carryOut, normal] at typed
  cases inserts : effect.inserts with
  | false => simp [inserts] at typed
  | true => simp [carryOut, commit, Engine.enter, Engine.clearPending, inserts, normal]

theorem Pressed.orderly {failure : Option Failure} (normal : s.engine.mode = .normal)
    (pressed : s.Pressed g failure t) : EndsOrderly keyed (failure, t) := by
  have typing : s.engine.mode ≠ .insert := by
    rw [normal]
    decide
  cases pressed with
  | waits more ht =>
    subst ht
    exact ⟨fun insert => absurd insert typing, fun _ insert => absurd insert typing, fun _ => more⟩
  | unread _ ht | unable _ _ ht | refused _ _ _ _ ht =>
    subst ht
    exact Engine.orderly_of_idle rfl fun _ insert => absurd insert typing
  | unedited _ _ _ ht | edited _ _ _ _ ht =>
    subst ht
    exact Engine.orderly_of_idle rfl fun _ => aim_carryOut _ _ normal

theorem orderly_perform (edit : Edit) (h : s.engine.Orderly keyed) :
    EndsOrderly keyed (s.perform edit) := by
  unfold perform
  rcases Host.perform edit s.host with ⟨_ | why, host⟩
  · exact h
  · exact Engine.orderly_of_idle rfl h.aimless

theorem orderly_feed (gs : List Cluster) (h : s.engine.Orderly keyed) :
    EndsOrderly keyed (s.feed gs) := by
  induction gs generalizing s with
  | nil => exact h
  | cons g gs ih =>
    cases hm : s.engine.mode with
    | insert =>
      rw [feed_cons_of_insert gs hm]
      exact orderly_perform _ h
    | normal =>
      rcases hp : s.press g with ⟨_ | why, u⟩
      · rw [feed_cons_of_pressed gs hm hp]
        apply ih
        rw [engine_settle]
        exact (Pressed.of_eq hp).orderly hm
      · rw [feed_cons_of_refused gs hm hp]
        exact (Pressed.of_eq hp).orderly hm

theorem orderly_finish {result : Option Failure × Session β} (h : EndsOrderly keyed result) :
    (finish result).2.engine.Orderly keyed := by
  rcases result with ⟨_ | why, s⟩
  · apply Engine.Orderly.told
    rw [engine_settle]
    exact h
  · exact h

theorem engine_run (parse : Parse Command) (s : Session β) :
    ∃ aim register, (s.run parse).2.engine = { s.engine with aim, register } ∨
      (s.run parse).2.engine = ({ s.engine with aim, register } : Engine).enter .insert := by
  have commit : ∀ (effect : Effect) (t : Session β), ∃ register,
      (t.commit effect).engine = { t.engine with register } ∨
        (t.commit effect).engine = ({ t.engine with register } : Engine).enter .insert := by
    intro effect t
    unfold Session.commit
    cases effect.inserts with
    | false => exact ⟨_, .inl rfl⟩
    | true => exact ⟨_, .inr rfl⟩
  unfold run
  cases parse with
  | needsMore | invalid => exact ⟨_, _, .inl rfl⟩
  | complete command =>
    simp only
    cases command.effect? s.view with
    | none => exact ⟨_, _, .inl rfl⟩
    | some effect =>
      simp only [apply]
      cases effect.edit with
      | none => exact ⟨_, commit effect _⟩
      | some edit =>
        simp only [perform]
        rcases Host.perform edit s.host with ⟨_ | why, host⟩
        · exact ⟨_, commit effect _⟩
        · exact ⟨_, _, .inl rfl⟩

theorem orderly_run (parse : Parse Command) (unkeyed : ¬keyed) (h : s.engine.Orderly keyed) :
    (s.run parse).2.engine.Orderly keyed := by
  obtain ⟨aim, register, kept | entered⟩ := s.engine_run parse
  · rw [kept]
    exact ⟨h.idle, fun is => absurd is unkeyed, h.waiting⟩
  · rw [entered]
    apply Engine.Orderly.enter
    exact ⟨h.idle, fun is => absurd is unkeyed, h.waiting⟩

end Session

variable {β : Type} [Host β] {keyed : Prop}

theorem Event.orderly_run {event : Event β} {s : Session β}
    (own : ∀ op count argument, event = .operate op count argument → ¬keyed)
    (h : s.engine.Orderly keyed) : (event.run s).2.engine.Orderly keyed := by
  cases event with
  | typeText text => exact Session.orderly_finish (Session.orderly_feed _ h)
  | retype text count =>
    apply Session.orderly_finish
    cases s.engine.mode with
    | normal => exact h
    | insert => exact Session.orderly_perform _ h
  | toNormalMode =>
    apply Engine.Orderly.told
    rw [Session.engine_settle]
    exact h.enter .normal
  | clearInput =>
    apply Engine.Orderly.told
    exact Engine.orderly_of_idle rfl h.aimless
  | settle =>
    simp only [run]
    rw [Session.engine_settle]
    exact h
  | setSeparators separators => exact ⟨h.idle, h.aimless, h.waiting⟩
  | operate op count argument => exact Session.orderly_run _ (own _ _ _ rfl) h
  | change f => exact h

theorem orderly_afterEvents (config : Config) (host : β) {events : List (Event β)}
    (own : ∀ op count argument, Event.operate op count argument ∈ events → ¬keyed) :
    (afterEvents events ⟨.ofConfig config, host⟩).engine.Orderly keyed := by
  apply afterEvents_keeps (fun s => s.engine.Orderly keyed) (Engine.orderly_ofConfig config)
  intro event member s h
  apply Event.orderly_run _ h
  rintro op count argument rfl
  exact own op count argument member

/-- In normal mode the pending keys are those of an unfinished command, and in insert mode there are
none. -/
theorem pending_of_keyed (config : Config) (host : β) (events : List (Event β))
    (keyed : ∀ op count argument, Event.operate op count argument ∉ events) :
    let engine := (afterEvents events ⟨.ofConfig config, host⟩).engine
    (engine.mode = .insert → engine.pending = [] ∧ engine.aim = none) ∧
      (engine.mode = .normal → Keys.Unfinished engine.pending) ∧
      Keys.parse engine.pending = .needsMore ∧
      ∃ more command, more ≠ [] ∧ Keys.parse (engine.pending ++ more) = .complete command := by
  have orderly : (afterEvents events ⟨.ofConfig config, host⟩).engine.Orderly True :=
    orderly_afterEvents config host fun op count argument member =>
      absurd member (keyed op count argument)
  generalize (afterEvents events ⟨.ofConfig config, host⟩).engine = engine at orderly
  have unfinished := orderly.unfinished
  have waiting := Keys.parse_eq_needsMore_iff.mpr unfinished
  obtain ⟨command, completed⟩ := unfinished.completed
  refine ⟨?_, fun _ => unfinished, waiting, ['l'], command, by decide, completed⟩
  intro insert
  exact ⟨orderly.idle insert, orderly.aimless trivial insert⟩

theorem pending_of_keyed_after_refusal :
    let host : Recorder :=
      { buffer := .ofText "one two".toList .zero, planned := some ⟨1, .readOnly⟩ }
    let events : List (Event Recorder) := [.typeText "xd\u0301cl".toList, .toNormalMode,
      .change fun host => { host with hidesLines := true }, .typeText "12d3".toList]
    let engine := (afterEvents events ⟨.ofConfig {}, host⟩).engine
    engine.pending = "12d3".toList ∧
      (engine.mode = .insert → engine.pending = [] ∧ engine.aim = none) ∧
      (engine.mode = .normal → Keys.Unfinished engine.pending) ∧
      Keys.parse engine.pending = .needsMore ∧
      ∃ more command, more ≠ [] ∧ Keys.parse (engine.pending ++ more) = .complete command := by
  intro host events engine
  refine ⟨by decide +kernel, pending_of_keyed {} host events ?_⟩
  rintro op count argument member
  simp [events] at member

end ModalEditor
