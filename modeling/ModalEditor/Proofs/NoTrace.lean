import ModalEditor.Proofs.PendingKeys
import ModalEditor.Proofs.PictureKept

/-! # Commands that leave no trace

Keys that only wait are forgotten when they are dropped, and so are keys that turn out not to be a
command, or not one that can be carried out. Host and engine are then as they were before the first
of them.
-/

namespace ModalEditor

namespace Keys

theorem Unfinished.of_prefix {keys p : Text} (h : Unfinished keys) (hp : p <+: keys) :
    Unfinished p := by
  obtain ⟨more, rfl⟩ := hp
  induction more using List.reverseRec with
  | nil => rwa [List.append_nil] at h
  | append_singleton more c ih =>
    rw [← List.append_assoc] at h
    obtain ⟨r, reads⟩ := exists_reads h
    obtain ⟨r', before⟩ := KeyReader.reads_of_append reads
    exact ih (unfinished_of_parse (KeyReader.parse_of_reads before))

end Keys

namespace Session

section Keys

variable {β : Type} [Host β] {s t u : Session β} {g : Cluster} {keys : List Cluster}

def resolution (g : Cluster) (s : Session β) : Except Failure Resolution :=
  (({ s with engine := s.engine.extend g } : Session β).run (s.reading g)).1

/-- All of the keys are pending when they were taken one after the other. -/
def StaysPending (keys : List Cluster) (s : Session β) : Prop :=
  ∃ t, s.Interprets keys t ∧ t.engine.pending = keys.flatten

def TurnsDown (keys : List Cluster) (s : Session β) : Prop :=
  ∃ before g t, keys = before ++ [g] ∧ s.Interprets before t ∧ t.resolution g = .ok .invalid

theorem press_of_invalid (h : s.resolution g = .ok .invalid) :
    s.press g = (none, { s with engine := s.engine.reject }) := by
  have sight : ({ s with engine := s.engine.extend g } : Session β).view = s.view := rfl
  unfold resolution run at h
  rw [press_eq]
  cases hr : s.reading g with
  | needsMore => simp [hr] at h
  | invalid => rfl
  | complete command =>
    simp only [hr, sight] at h ⊢
    cases he : command.effect? s.view with
    | none => rfl
    | some effect =>
      simp only [he] at h
      split at h <;> cases h

theorem Interprets.unique (h : s.Interprets keys t) (h' : s.Interprets keys u) : t = u := by
  have same := h.feed.symm.trans h'.feed
  exact (Prod.mk.inj same).2

theorem Ready.settle_with (ready : s.Ready) {engine : Engine} (normal : engine.mode = .normal) :
    (⟨engine, s.host⟩ : Session β).settle = ⟨engine, s.host⟩ := by
  rw [Session.settle_with (normal.trans ready.normal.symm), ready.settled]

/-- Keys that stay pending one after the other are kept and do nothing else. -/
theorem interprets_pending (ready : s.Ready) (whole : ∀ g ∈ keys, g ≠ [])
    (waits : ∀ p, p <+: keys → s.StaysPending p) :
    s.Interprets keys { s with engine := s.engine.extend keys.flatten } := by
  induction keys using List.reverseRec with
  | nil =>
    have same : s.engine.extend [] = s.engine := by simp [Engine.extend]
    rw [List.flatten_nil, same]
    exact .nothing
  | append_singleton keys g ih =>
    have before := ih (fun g hg => whole g (List.mem_append_left _ hg))
      fun p hp => waits p (hp.trans (List.prefix_append ..))
    obtain ⟨t, taken, pending⟩ := waits _ (List.prefix_refl _)
    obtain ⟨u, first, last⟩ := interprets_append.mp taken
    obtain rfl := first.unique before
    rcases last with _ | ⟨normal, hp, ⟨⟩⟩
    have extended : (s.engine.extend keys.flatten).extend g =
        s.engine.extend (keys ++ [g]).flatten := by
      simp [Engine.extend]
    have some : (keys ++ [g]).flatten ≠ [] := by
      simp [whole g (by simp)]
    rw [engine_settle] at pending
    rw [interprets_append]
    refine ⟨_, before, .cluster normal hp ?_⟩
    cases Pressed.of_eq hp with
    | waits _ ht =>
      have rests : (⟨s.engine.extend (keys ++ [g]).flatten, s.host⟩ : Session β).settle = _ :=
        ready.settle_with ready.normal
      simp only [ht, extended, rests]
      exact .nothing
    | unread _ ht | unable _ _ ht =>
      rw [ht] at pending
      exact absurd pending.symm some
    | unedited _ _ _ ht | edited _ _ _ _ ht =>
      rw [ht] at pending
      exact absurd pending.symm some

/-- Keys of which the last one is turned down are forgotten, all of them. -/
theorem interprets_of_turnsDown (ready : s.Ready) (whole : ∀ g ∈ keys, g ≠ [])
    (waits : ∀ p, p <+: keys → p ≠ keys → s.StaysPending p) (down : s.TurnsDown keys) :
    ∃ held, s.Interprets keys ⟨(s.engine.extend held).reject, s.host⟩ := by
  obtain ⟨before, g, t, rfl, first, invalid⟩ := down
  have waiting : s.Interprets before ⟨s.engine.extend before.flatten, s.host⟩ := by
    apply interprets_pending ready
    · intro g hg
      exact whole g (List.mem_append_left _ hg)
    · intro p hp
      apply waits p (hp.trans (List.prefix_append ..))
      rintro rfl
      have shorter := hp.length_le
      rw [List.length_append, List.length_singleton] at shorter
      omega
  obtain rfl := first.unique waiting
  have rests : (⟨(s.engine.extend before.flatten).reject, s.host⟩ : Session β).settle = _ :=
    ready.settle_with ready.normal
  refine ⟨before.flatten, ?_⟩
  rw [interprets_append]
  refine ⟨_, waiting, .cluster ready.normal (press_of_invalid invalid) ?_⟩
  simp only [rests]
  exact .nothing

theorem staysPending_of_prefix {keys : Text} (ready : s.Ready) (h : Keys.Unfinished keys)
    {p : List Cluster} (hp : p <+: keys.map fun c => [c]) : s.StaysPending p := by
  obtain ⟨begun, before, rfl⟩ := List.prefix_map_iff.mp hp
  obtain ⟨r, reads⟩ := Keys.exists_reads (h.of_prefix before)
  refine ⟨_, interprets_keys ready reads, ?_⟩
  simp only [Engine.extend, ready.idle, List.nil_append]
  rw [← List.flatMap_def, List.flatMap_singleton']

theorem staysPending_of_proper_prefix {keys : Text} (ready : s.Ready) (h : Keys.Unfinished keys)
    {p : List Cluster} (hp : p <+: (keys.map fun c => [c]) ++ [g])
    (proper : p ≠ (keys.map fun c => [c]) ++ [g]) : s.StaysPending p := by
  rcases List.prefix_concat_iff.mp hp with all | before
  · exact absurd all proper
  · exact staysPending_of_prefix ready h before

end Keys

/-! ## In any number of calls -/

variable {β : Type} [Host β] [FreeCaret β] {s u : Session β}

/-- Clusters that are taken as keys may come in any number of calls. All of them succeed, and the
host hears the beeps of them all. -/
theorem Interprets.calls {calls : List Text} (ne : calls ≠ []) (settled : s.settle = s)
    (h : s.Interprets (calls.flatMap clusters) u) :
    let events := calls.map Event.typeText
    (∀ step ∈ history events s, ∃ signals, step.1 = .signals signals) ∧
      afterEvents events s = u.announce.2 ∧ (delivered events s).count .beep = u.engine.beeps := by
  induction calls generalizing s u with
  | nil => exact absurd rfl ne
  | cons text calls ih =>
    rw [List.flatMap_cons] at h
    obtain ⟨m, u', called, told, later, rfl⟩ := h.first_call settled
    have run : (Event.typeText text).run s = (.signals m.engine.news, m.announce.2) := by
      simp only [Event.run, called]
      rfl
    have heard : m.engine.news.count .beep = m.engine.beeps := m.engine.count_beep_news
    simp only [List.map_cons, history, afterEvents, delivered, List.foldl_cons, run,
      List.flatMap_cons, List.count_append, List.mem_cons, forall_eq_or_imp]
    cases calls with
    | nil =>
      cases later
      refine ⟨⟨⟨_, rfl⟩, fun step hs => absurd hs List.not_mem_nil⟩, rfl, ?_⟩
      simpa [history, retell, Answer.delivered, announce, Engine.told] using heard
    | cons text' calls =>
      obtain ⟨answered, after, beeps⟩ := ih (List.cons_ne_nil _ _) told later
      refine ⟨⟨⟨_, rfl⟩, answered⟩, after, ?_⟩
      rw [delivered] at beeps
      rw [beeps, Answer.delivered, heard]
      exact Nat.add_comm ..

end Session

/-! ## Between events -/

section Between

variable {β : Type} [Host β]

/-- Whoever hears all signals keeps the picture that the engine holds to have told. -/
theorem pictured_afterEvents (events : List (Event β)) (s : Session β) :
    (afterEvents events s).engine.pictured = s.engine.pictured.hearAll (delivered events s) := by
  induction events generalizing s with
  | nil => rfl
  | cons event rest ih =>
    rw [delivered, history, List.flatMap_cons, Picture.hearAll_append,
      ← (event.tells_run s).hearAll]
    exact ih _

theorem Session.beeps_run (parse : Parse Command) (s : Session β) :
    (s.run parse).2.engine.beeps = s.engine.beeps := by
  obtain ⟨aim, register, kept | entered⟩ := s.engine_run parse
  · rw [kept]
  · rw [entered, Engine.enter]
    split <;> rfl

theorem quiet_afterEvents (config : Config) (host : β) (events : List (Event β)) :
    (afterEvents events ⟨.ofConfig config, host⟩).engine.beeps = 0 := by
  apply afterEvents_keeps (fun s => s.engine.beeps = 0) rfl
  intro event _ s quiet
  cases event with
  | typeText text =>
    simp only [Event.run, Session.typeText]
    rcases s.feed (clusters text) with ⟨_ | why, t⟩ <;> rfl
  | retype text count =>
    simp only [Event.run, Session.retype]
    split
    · rfl
    · rcases s.perform (.retype text count) with ⟨_ | why, t⟩ <;> rfl
  | toNormalMode => rfl
  | clearInput => rfl
  | settle =>
    simp only [Event.run, Session.engine_settle]
    exact quiet
  | setSeparators separators => exact quiet
  | operate op count argument =>
    rw [← quiet]
    exact Session.beeps_run _ s
  | change f => exact quiet

end Between

/-! ## Nothing is left -/

namespace Engine

variable {engine : Engine}

theorem told_dropped (idle : engine.pending = []) (keys : Text) :
    (engine.extend keys).told.clearPending.told = engine.told := by
  simp [extend, told, clearPending, style, context, idle]

theorem told_rejected (idle : engine.pending = []) (keys : Text) :
    (engine.extend keys).reject.told = engine.told := by
  simp [extend, told, reject, style, context, idle]

end Engine

namespace Session

variable {β : Type} [Host β]

/-- Some events leave no trace: every one of them succeeds, and after them the host is as it was and
so is the engine. The host has heard some beeps, and its picture of the engine is right. -/
structure LeavesNoTrace (events : List (Event β)) (beeps : Nat) (s : Session β) : Prop where
  answered : ∀ step ∈ history events s, ∃ signals, step.1 = .signals signals
  host : (afterEvents events s).host = s.host
  engine : (afterEvents events s).engine = s.engine.told
  picture : s.engine.pictured.hearAll (delivered events s) = s.engine.shown
  beeps : (delivered events s).count .beep = beeps

variable {s : Session β} {events : List (Event β)} {beeps : Nat}

theorem leavesNoTrace_of_after
    (answered : ∀ step ∈ history events s, ∃ signals, step.1 = .signals signals)
    (after : afterEvents events s = ⟨s.engine.told, s.host⟩)
    (heard : (delivered events s).count .beep = beeps) : s.LeavesNoTrace events beeps := by
  refine ⟨answered, by rw [after], by rw [after], ?_, heard⟩
  rw [← pictured_afterEvents, after]
  rfl

theorem leavesNoTrace_clearInput {engine : Engine}
    (answered : ∀ step ∈ history events s, ∃ signals, step.1 = .signals signals)
    (after : afterEvents events s = ⟨engine, s.host⟩)
    (heard : (delivered events s).count .beep = beeps) (quiet : engine.beeps = 0)
    (dropped : engine.clearPending.told = s.engine.told) :
    s.LeavesNoTrace (events ++ [.clearInput]) beeps := by
  apply leavesNoTrace_of_after
  · intro step hs
    rw [history_append] at hs
    rcases List.mem_append.mp hs with hs | hs
    · exact answered step hs
    · rw [List.mem_singleton.mp hs]
      exact ⟨_, rfl⟩
  · rw [afterEvents_append, after, ← dropped]
    rfl
  · have news : delivered [Event.clearInput] (afterEvents events s) = engine.clearPending.news := by
      rw [after]
      exact List.append_nil _
    rw [delivered_append, List.count_append, heard, news, Engine.count_beep_news]
    exact congrArg (beeps + ·) quiet

/-- A command that is dropped or turned down leaves no trace but a beep, and the host's picture of
the engine is right after it. -/
theorem leavesNoTrace [FreeCaret β] (s : Session β) (ready : s.Ready) (quiet : s.engine.beeps = 0)
    (calls : List Text)
    (waits : ∀ p, p <+: calls.flatMap clusters → p ≠ calls.flatMap clusters → s.StaysPending p) :
    (s.StaysPending (calls.flatMap clusters) →
      s.LeavesNoTrace (calls.map .typeText ++ [.clearInput]) 0) ∧
    (s.TurnsDown (calls.flatMap clusters) → s.LeavesNoTrace (calls.map .typeText) 1) := by
  have whole : ∀ g ∈ calls.flatMap clusters, g ≠ [] := by
    rintro g hg rfl
    obtain ⟨text, -, member⟩ := List.mem_flatMap.mp hg
    simpa using clusters_of_mem member
  constructor
  · intro pending
    have taken := interprets_pending ready whole fun p hp => by
      by_cases all : p = calls.flatMap clusters
      · rw [all]
        exact pending
      · exact waits p hp all
    by_cases ne : calls = []
    · subst ne
      have after : afterEvents [] s = ⟨s.engine, s.host⟩ := rfl
      apply leavesNoTrace_clearInput _ after rfl quiet
      · simp [Engine.told, Engine.clearPending, Engine.style, Engine.context, ready.idle]
      · intro step hs
        cases hs
    · obtain ⟨answered, after, beeps⟩ := taken.calls ne ready.settled
      exact leavesNoTrace_clearInput answered after (beeps.trans quiet) rfl
        (Engine.told_dropped ready.idle _)
  · intro down
    obtain ⟨held, taken⟩ := interprets_of_turnsDown ready whole waits down
    have ne : calls ≠ [] := by
      rintro rfl
      obtain ⟨before, g, t, split, -⟩ := down
      simp at split
    obtain ⟨answered, after, beeps⟩ := taken.calls ne ready.settled
    apply leavesNoTrace_of_after answered
    · rw [after, ← Engine.told_rejected ready.idle held]
      rfl
    · rw [beeps]
      exact congrArg (· + 1) quiet

/-- Keys and a last cluster that are read as a command which cannot be carried out leave no trace,
in whatever calls they are typed that do not break the cluster. -/
theorem leavesNoTrace_of_completion [FreeCaret β] (ready : s.Ready) (quiet : s.engine.beeps = 0)
    {r : KeyReader} {keys : Text} {g : Cluster} {command : Command} (hr : KeyReader.Reads r keys)
    (hc : Keys.parse (keys ++ g) = .complete command) (unable : command.effect? s.view = none)
    {calls : List Text} (cut : calls.flatMap clusters = (keys.map fun c => [c]) ++ [g]) :
    s.LeavesNoTrace (calls.map .typeText) 1 := by
  let waiting : Session β := { s with engine := s.engine.extend keys }
  have invalid : waiting.resolution g = .ok .invalid := by
    have sight : ({ waiting with engine := waiting.engine.extend g } : Session β).view =
        s.view := rfl
    have reads : waiting.reading g = .complete command := by
      simp only [waiting, reading, Engine.extend, ready.idle, List.nil_append]
      exact hc
    simp only [resolution, reads, run, sight, unable]
  have rests : (⟨(s.engine.extend keys).reject, s.host⟩ : Session β).settle = _ :=
    ready.settle_with ready.normal
  have taken : s.Interprets (calls.flatMap clusters) ⟨(s.engine.extend keys).reject, s.host⟩ := by
    rw [cut, interprets_append]
    refine ⟨waiting, interprets_keys ready hr, .cluster ready.normal (press_of_invalid invalid) ?_⟩
    simp only [waiting, rests]
    exact .nothing
  have ne : calls ≠ [] := by
    rintro rfl
    simp at cut
  obtain ⟨answered, after, beeps⟩ := taken.calls ne ready.settled
  apply leavesNoTrace_of_after answered
  · rw [after, ← Engine.told_rejected ready.idle keys]
    rfl
  · rw [beeps]
    exact congrArg (· + 1) quiet

theorem leavesNoTrace_of_unable [FreeCaret β] (ready : s.Ready) (quiet : s.engine.beeps = 0)
    {r : KeyReader} {keys : Text} {key : Char} {command : Command} (hr : KeyReader.Reads r keys)
    (plain : CharKind.of key = .plain) (hc : Keys.parse (keys ++ [key]) = .complete command)
    (unable : command.effect? s.view = none) {calls : List Text}
    (flat : calls.flatten = keys ++ [key]) : s.LeavesNoTrace (calls.map .typeText) 1 :=
  leavesNoTrace_of_completion ready quiet hr hc unable
    (KeyReader.flatMap_clusters_of_reads hr plain flat)

def untouchable : Session Recorder :=
  ⟨.ofConfig {}, { buffer := { OpenBuffer.ofText "abc".toList .zero with readOnly := true } }⟩

def deletion : List (Event Recorder) :=
  [.typeText "d".toList, .typeText "w".toList]

theorem ready_afterRefusal : (afterEvents deletion untouchable).Ready :=
  ⟨by decide +kernel, by decide +kernel, by decide +kernel⟩

theorem leavesNoTrace_afterRefusal :
    let s := afterEvents deletion untouchable
    s.LeavesNoTrace [.typeText "4".toList, .typeText "rx".toList] 1 ∧
      s.LeavesNoTrace [.typeText "2c3".toList, .clearInput] 0 := by
  intro s
  have ready : s.Ready := ready_afterRefusal
  have quiet : s.engine.beeps = 0 := quiet_afterEvents ..
  have pressed : ["4".toList, "rx".toList].flatMap clusters = [['4'], ['r']] ++ [['x']] := by
    decide +kernel
  have dropped : ["2c3".toList].flatMap clusters = [['2'], ['c'], ['3']] := by decide +kernel
  have four : Keys.MaybeCount ['4'] := ⟨by simp, by simp⟩
  have two : Keys.MaybeCount ['2'] := ⟨by simp, by simp⟩
  have three : Keys.MaybeCount ['3'] := ⟨by simp, by simp⟩
  have replacing := Keys.Unfinished.replacement four
  have changing := Keys.Unfinished.argument two (.inr rfl) three
  constructor
  · apply (leavesNoTrace _ ready quiet ["4".toList, "rx".toList] ?_).2
    · obtain ⟨r, reads⟩ := Keys.exists_reads replacing
      refine ⟨_, _, _, pressed, interprets_keys ready reads, ?_⟩
      decide +kernel
    · rw [pressed]
      exact fun p => staysPending_of_proper_prefix ready replacing
  · apply (leavesNoTrace _ ready quiet ["2c3".toList] ?_).1
    · rw [dropped]
      exact staysPending_of_prefix ready changing (List.prefix_refl _)
    · intro p hp _
      rw [dropped] at hp
      exact staysPending_of_prefix ready changing hp

/-- A failed call does not tell that the keys are gone. The next call does, even if its own keys are
turned down, so that the picture a host has from all it was told is not always as it was. -/
theorem picture_changes_afterRefusal :
    ¬∀ (start : Session Recorder) (events : List (Event Recorder)) (calls : List Text),
      start.engine = .ofConfig {} →
      let s := afterEvents events start
      let known := start.engine.shown.hearAll (delivered events start)
      s.Ready →
      (∀ p, p <+: calls.flatMap clusters → p ≠ calls.flatMap clusters → s.StaysPending p) →
      s.TurnsDown (calls.flatMap clusters) →
      (known.hearAll (delivered (calls.map .typeText) s)).context = known.context := by
  intro always
  have typed : ["z".toList].flatMap clusters = [] ++ [['z']] := by decide +kernel
  have same := always untouchable deletion ["z".toList] rfl ready_afterRefusal ?_ ?_
  · exact absurd same (by decide +kernel)
  · rw [typed]
    exact fun p => staysPending_of_proper_prefix ready_afterRefusal Keys.unfinished_nil
  · rw [typed]
    exact ⟨[], ['z'], _, rfl, .nothing, by decide +kernel⟩

end Session

end ModalEditor
