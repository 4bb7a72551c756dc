import ModalEditor.Buffer.Open
import ModalEditor.Proofs.Events
import ModalEditor.Proofs.SplitCalls

/-! # The picture never drifts

What an engine holds to have told is at any time what its host has heard. So every list of signals
brings the picture of the host up to date, after failed calls and mode switches of single operators
too, and it holds no signal that the host knows already.
-/

namespace ModalEditor

namespace Session

variable {β : Type} [Host β]

theorem pictured_enter (mode : Mode) (engine : Engine) :
    (engine.enter mode).pictured = engine.pictured := by
  unfold Engine.enter
  split <;> rfl

theorem pictured_commit (effect : Effect) (s : Session β) :
    (s.commit effect).engine.pictured = s.engine.pictured := by
  simp only [commit]
  by_cases inserts : effect.inserts = true
  · rw [if_pos inserts]
    exact pictured_enter ..
  · rw [if_neg inserts]
    rfl

theorem pictured_apply (effect : Effect) (s : Session β) :
    (s.apply effect).2.engine.pictured = s.engine.pictured := by
  unfold apply
  cases effect.edit with
  | none => exact pictured_commit ..
  | some edit =>
    simp only [perform]
    rcases Host.perform edit s.host with ⟨_ | why, host⟩
    · exact pictured_commit ..
    · rfl

theorem pictured_run (parse : Parse Command) (s : Session β) :
    (s.run parse).2.engine.pictured = s.engine.pictured := by
  unfold run
  cases parse with
  | needsMore => rfl
  | invalid => rfl
  | complete command =>
    simp only
    cases command.effect? s.view with
    | none => rfl
    | some effect =>
      have applied := pictured_apply effect s
      rcases ha : s.apply effect with ⟨_ | why, t⟩
      all_goals
        rw [ha] at applied
        simp only [ha]
        exact applied

end Session

/-- How an answer changes what the engine holds to have told: signals are the news of an engine
that had told as much as before and has told all of it since; other answers tell nothing. -/
inductive Answer.Tells (before after : Engine) : Answer → Prop
  | news {engine : Engine} : engine.pictured = before.pictured → after = engine.told →
      Tells before after (.signals engine.news)
  | silent {answer : Answer} : answer.delivered = [] → (∀ list, answer ≠ .signals list) →
      after.pictured = before.pictured → Tells before after answer

namespace Session

variable {β : Type} [Host β]

theorem tells_finish {before : Engine} {result : Option Failure × Session β}
    (kept : result.2.engine.pictured = before.pictured) :
    Answer.Tells before (finish result).2.engine (.ofReply (finish result).1) := by
  rcases result with ⟨_ | why, s⟩
  · refine .news ?_ rfl
    rw [engine_settle]
    exact kept
  · exact .silent rfl nofun kept

end Session

theorem Event.tells_run {β : Type} [Host β] (event : Event β) (s : Session β) :
    Answer.Tells s.engine (event.run s).2.engine (event.run s).1 := by
  cases event with
  | typeText text => exact Session.tells_finish (Session.pictured_feed ..)
  | retype text count =>
    apply Session.tells_finish
    cases s.engine.mode with
    | normal => rfl
    | insert => rfl
  | toNormalMode =>
    refine .news ?_ rfl
    rw [Session.engine_settle]
    exact Session.pictured_enter ..
  | clearInput => exact .news rfl rfl
  | settle =>
    refine .silent rfl nofun ?_
    rw [run, Session.engine_settle]
  | setSeparators separators => exact .silent rfl nofun rfl
  | operate op count argument =>
    have kept := Session.pictured_run (op.parse count argument) s
    rw [run, Session.operate]
    rcases hr : s.run (op.parse count argument) with ⟨why | outcome, t⟩
    all_goals
      rw [hr] at kept
      exact .silent rfl nofun kept
  | change f => exact .silent rfl nofun rfl

theorem Answer.Tells.hearAll {before after : Engine} {answer : Answer}
    (tells : Answer.Tells before after answer) :
    after.pictured = before.pictured.hearAll answer.delivered := by
  cases tells with
  | @news engine same told =>
    rw [told, delivered, ← same, Engine.hearAll_news]
    rfl
  | silent nothing _ same =>
    rw [nothing]
    exact same

def deliveredBefore {β : Type} [Host β] (n : Nat) (events : List (Event β)) (s : Session β) :
    List Signal :=
  ((history events s).take n).flatMap fun step => step.1.delivered

/-- Every answer of a history is given by an engine that holds to have told what was delivered
before. -/
theorem history_tells {β : Type} [Host β] {events : List (Event β)} {s t : Session β} {n : Nat}
    {answer : Answer} (h : (history events s)[n]? = some (answer, t)) :
    ∃ engine : Engine,
      engine.pictured = s.engine.pictured.hearAll (deliveredBefore n events s) ∧
        Answer.Tells engine t.engine answer := by
  induction events generalizing s n with
  | nil => cases h
  | cons event rest ih =>
    have told := event.tells_run s
    cases n with
    | zero =>
      have now : event.run s = (answer, t) := Option.some.inj h
      rw [now] at told
      exact ⟨s.engine, rfl, told⟩
    | succ n =>
      obtain ⟨engine, same, tells⟩ := ih h
      refine ⟨engine, ?_, tells⟩
      rw [same, told.hearAll, ← Picture.hearAll_append]
      rfl

/-- A host that hears every list of signals has the right picture after each, and hears only news.
-/
theorem history_keeps_picture {β : Type} [Host β] (config : Config) (host : β)
    (events : List (Event β)) (n : Nat) (signals : List Signal) (s : Session β)
    (h : (history events ⟨.ofConfig config, host⟩)[n]? = some (.signals signals, s)) :
    let known := (Engine.ofConfig config).shown.hearAll
      (deliveredBefore n events ⟨.ofConfig config, host⟩)
    known.hearAll signals = ⟨s.engine.style, s.engine.context⟩ ∧
      ∃ beeps, signals = List.replicate beeps .beep ++
        (if s.engine.style = known.style then [] else [.style s.engine.style]) ++
        (if s.engine.context = known.context then [] else [.context s.engine.context]) := by
  obtain ⟨engine, same, tells⟩ := history_tells h
  have start : (Engine.ofConfig config).pictured = (Engine.ofConfig config).shown := rfl
  rw [start] at same
  simp only [← same]
  cases tells with
  | @news teller pictured told =>
    rw [told, ← pictured]
    exact ⟨teller.hearAll_news, teller.beeps, rfl⟩
  | silent _ none' => exact absurd rfl (none' signals)

theorem history_keeps_picture_after_failure :
    let host : OpenBuffer := { document := ⟨"one".toList, .zero⟩, readOnly := true }
    let events : List (Event OpenBuffer) := [.typeText "zia".toList, .toNormalMode,
      .operate .append 1 [], .change fun host => { host with readOnly := false },
      .typeText "b".toList]
    let news : List Signal := [.style .line, .context ⟨false, false⟩]
    let known := (Engine.ofConfig {}).shown.hearAll (deliveredBefore 4 events ⟨.ofConfig {}, host⟩)
    (history events ⟨.ofConfig {}, host⟩).map Prod.fst = [.failure (.refused .readOnly),
        .signals [], .resolution .matched, .nothing, .signals news] ∧
      ∃ s, (history events ⟨.ofConfig {}, host⟩)[4]? = some (.signals news, s) ∧
        known.hearAll news = ⟨s.engine.style, s.engine.context⟩ ∧
        ∃ beeps, news = List.replicate beeps .beep ++
          (if s.engine.style = known.style then [] else [.style s.engine.style]) ++
          (if s.engine.context = known.context then [] else [.context s.engine.context]) := by
  refine ⟨rfl, _, rfl, ?_⟩
  exact history_keeps_picture {} _ _ 4 _ _ rfl

end ModalEditor
