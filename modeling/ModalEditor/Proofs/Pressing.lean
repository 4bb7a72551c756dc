import ModalEditor.Session

/-! # What a cluster does to a session

In normal mode a cluster is added to the pending keys, turned down with a beep, or completes a
command, which asks the host for one edit at most. All that a cluster can do is said once here.
-/

namespace ModalEditor.Session

variable {β : Type} [Host β] {s t : Session β} {g : Cluster} {failure : Option Failure}

/-- The session after a command with the given effect, once the host has made the edit. -/
def carryOut (effect : Effect) (host : β) (s : Session β) : Session β :=
  let done := ({ engine := { s.engine with aim := effect.aim }, host } : Session β).commit effect
  { done with engine := done.engine.clearPending }

/-- What can come of a cluster in normal mode. -/
inductive Pressed (s : Session β) (g : Cluster) : Option Failure → Session β → Prop
  | waits {t : Session β} : s.reading g = .needsMore →
      t = { s with engine := s.engine.extend g } → Pressed s g none t
  | unread {t : Session β} : s.reading g = .invalid →
      t = { s with engine := s.engine.reject } → Pressed s g none t
  | unable {t : Session β} {command : Command} : s.reading g = .complete command →
      command.effect? s.view = none → t = { s with engine := s.engine.reject } → Pressed s g none t
  | unedited {t : Session β} {command : Command} {effect : Effect} :
      s.reading g = .complete command → command.effect? s.view = some effect →
      effect.edit = none → t = s.carryOut effect s.host → Pressed s g none t
  | edited {t : Session β} {command : Command} {effect : Effect} {edit : Edit} {host : β} :
      s.reading g = .complete command → command.effect? s.view = some effect →
      effect.edit = some edit → Host.perform edit s.host = (none, host) →
      t = s.carryOut effect host → Pressed s g none t
  | refused {t : Session β} {command : Command} {effect : Effect} {edit : Edit} {host : β}
      {why : Failure} : s.reading g = .complete command → command.effect? s.view = some effect →
      effect.edit = some edit → Host.perform edit s.host = (some why, host) →
      t = ⟨{ s.engine.extend g with aim := effect.aim }, host⟩ → Pressed s g (some why) t

theorem commit_extend (effect : Effect) (host : β) (g : Cluster) (s : Session β) :
    let t := ({ engine := { s.engine.extend g with aim := effect.aim }, host } : Session β).commit
      effect
    ({ t with engine := t.engine.clearPending } : Session β) = s.carryOut effect host := by
  by_cases inserts : effect.inserts = true
  · by_cases already : s.engine.mode = .insert <;>
      simp [carryOut, commit, Engine.enter, Engine.extend, Engine.clearPending, inserts, already]
  · simp [carryOut, commit, Engine.extend, Engine.clearPending, inserts]

theorem press_eq (g : Cluster) (s : Session β) :
    s.press g =
      match s.reading g with
      | .needsMore => (none, { s with engine := s.engine.extend g })
      | .invalid => (none, { s with engine := s.engine.reject })
      | .complete command =>
        match command.effect? s.view with
        | none => (none, { s with engine := s.engine.reject })
        | some effect =>
          match effect.edit with
          | none => (none, s.carryOut effect s.host)
          | some edit =>
            match Host.perform edit s.host with
            | (none, host) => (none, s.carryOut effect host)
            | (some why, host) =>
              (some why, ⟨{ s.engine.extend g with aim := effect.aim }, host⟩) := by
  unfold press obey
  cases s.reading g with
  | needsMore => rfl
  | invalid => rfl
  | complete command =>
    have sight : ({ s with engine := s.engine.extend g } : Session β).view = s.view := rfl
    simp only [run, sight]
    cases command.effect? s.view with
    | none => rfl
    | some effect =>
      simp only [apply]
      cases effect.edit with
      | none => exact congrArg (Prod.mk none) (commit_extend effect s.host g s)
      | some edit =>
        simp only [perform]
        rcases Host.perform edit s.host with ⟨_ | why, host⟩
        · exact congrArg (Prod.mk none) (commit_extend effect host g s)
        · rfl

theorem pressed_press (g : Cluster) (s : Session β) :
    s.Pressed g (s.press g).1 (s.press g).2 := by
  rw [press_eq]
  split
  · next hr => exact .waits hr rfl
  · next hr => exact .unread hr rfl
  · next command hr =>
    split
    · next he => exact .unable hr he rfl
    · next effect he =>
      split
      · next hedit => exact .unedited hr he hedit rfl
      · next edit hedit =>
        split
        · next host hp => exact .edited hr he hedit hp rfl
        · next why host hp => exact .refused hr he hedit hp rfl

/-! ## What a carried out command leaves alone -/

section CarryOut

variable (effect : Effect) (host : β) (s : Session β)

@[simp] theorem mode_carryOut :
    (s.carryOut effect host).engine.mode = if effect.inserts then .insert else s.engine.mode := by
  simp only [carryOut, commit, Engine.clearPending]
  split
  · exact Engine.mode_enter ..
  · rfl

@[simp] theorem register_carryOut :
    (s.carryOut effect host).engine.register = effect.register.or s.engine.register := by
  simp only [carryOut, commit, Engine.clearPending, Engine.enter]
  split
  · split <;> rfl
  · rfl

theorem host_carryOut :
    (s.carryOut effect host).host =
      match effect.caret with
      | some landing => Host.moveCaret landing.position host
      | none => host := rfl

end CarryOut

/-! ## Settling and feeding -/

/-- The caret stands past the last cluster of a line that has one, where normal mode does not leave
it. -/
def Overhangs (s : Session β) : Prop :=
  (s.engine.mode = .normal ∧ Host.hasSelection s.host = false) ∧
    0 < (Host.page s.host).width (Host.caret s.host).line ∧
    (Host.page s.host).width (Host.caret s.host).line ≤ (Host.caret s.host).col

theorem settle_of_overhangs (h : s.Overhangs) :
    s.settle = { s with
      host := Host.moveCaret ⟨(Host.caret s.host).line,
        (Host.page s.host).width (Host.caret s.host).line - 1⟩ s.host } := by
  rw [settle, if_pos h.1]
  exact if_pos h.2

theorem settle_of_not_overhangs (h : ¬ s.Overhangs) : s.settle = s := by
  unfold settle
  split
  · next free => exact if_neg fun past => h ⟨free, past⟩
  · rfl

theorem host_settle_cases (s : Session β) :
    s.settle.host = s.host ∨ ∃ p, s.settle.host = Host.moveCaret p s.host := by
  by_cases h : s.Overhangs
  · rw [settle_of_overhangs h]
    exact .inr ⟨_, rfl⟩
  · rw [settle_of_not_overhangs h]
    exact .inl rfl

theorem settle_of_insert (h : s.engine.mode = .insert) : s.settle = s := by
  apply settle_of_not_overhangs
  rintro ⟨⟨normal, -⟩, -⟩
  cases h.symm.trans normal

theorem settle_with {engine : Engine} (h : engine.mode = s.engine.mode) :
    (⟨engine, s.host⟩ : Session β).settle = ⟨engine, s.settle.host⟩ := by
  simp only [settle, h]
  split
  · split <;> rfl
  · rfl

@[simp] theorem feed_nil (s : Session β) : s.feed [] = (none, s) := rfl

theorem Pressed.of_eq (h : s.press g = (failure, t)) : s.Pressed g failure t := by
  have pressed := pressed_press g s
  rwa [h] at pressed

theorem feed_cons_of_insert (gs : List Cluster) (h : s.engine.mode = .insert) :
    s.feed (g :: gs) = s.perform (.typeIn (g :: gs).flatten) := by
  simp [feed, h]

theorem feed_cons_of_pressed (gs : List Cluster) (h : s.engine.mode = .normal)
    (hp : s.press g = (none, t)) : s.feed (g :: gs) = t.settle.feed gs := by
  simp [feed, h, hp]

theorem feed_cons_of_refused {why : Failure} (gs : List Cluster) (h : s.engine.mode = .normal)
    (hp : s.press g = (some why, t)) : s.feed (g :: gs) = (some why, t) := by
  simp [feed, h, hp]

theorem engine_perform (edit : Edit) (s : Session β) : (s.perform edit).2.engine = s.engine := rfl

/-- Keys that were all taken as commands leave the caret settled, and more may follow them in the
same call. -/
theorem feed_append {gs : List Cluster} (ne : gs ≠ [])
    (still : (s.feed gs.dropLast).2.engine.mode = .normal) (h : s.feed gs = (none, t)) :
    (∃ u : Session β, t = u.settle) ∧ ∀ more, s.feed (gs ++ more) = t.feed more := by
  induction gs generalizing s with
  | nil => exact absurd rfl ne
  | cons g gs ih =>
    have normal : s.engine.mode = .normal := by
      cases hm : s.engine.mode with
      | normal => rfl
      | insert =>
        cases gs with
        | nil => rw [List.dropLast_singleton, feed_nil, hm] at still; cases still
        | cons g' gs =>
          rw [List.dropLast_cons_cons, feed_cons_of_insert _ hm, engine_perform, hm] at still
          cases still
    rcases hp : s.press g with ⟨_ | why, u⟩
    · have first : ∀ more, s.feed (g :: gs ++ more) = u.settle.feed (gs ++ more) :=
        fun more => feed_cons_of_pressed (gs ++ more) normal hp
      rw [feed_cons_of_pressed gs normal hp] at h
      cases gs with
      | nil =>
        obtain rfl : u.settle = t := (Prod.mk.inj h).2
        exact ⟨⟨u, rfl⟩, first⟩
      | cons g' gs =>
        rw [List.dropLast_cons_cons, feed_cons_of_pressed _ normal hp] at still
        obtain ⟨settled, later⟩ := ih (List.cons_ne_nil g' gs) still h
        exact ⟨settled, fun more => (first more).trans (later more)⟩
    · rw [feed_cons_of_refused gs normal hp] at h
      cases h

theorem typeText_ok {text : Text} {signals : List Signal} (h : s.typeText text = (.ok signals, t)) :
    ∃ u, s.feed (clusters text) = (none, u) ∧ u.settle.announce = (signals, t) := by
  unfold typeText at h
  rcases hf : s.feed (clusters text) with ⟨_ | why, u⟩
  · rw [hf] at h
    have signals' := (Prod.mk.inj h).1
    exact ⟨u, rfl, Prod.ext (Except.ok.inj signals') (Prod.mk.inj h).2⟩
  · rw [hf] at h
    cases (Prod.mk.inj h).1

end ModalEditor.Session
