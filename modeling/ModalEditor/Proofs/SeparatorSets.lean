import Mathlib.Data.List.Forall2
import ModalEditor.Buffer.Recorder
import ModalEditor.Proofs.Events
import ModalEditor.Proofs.Pressing
import ModalEditor.Proofs.StoredSeparators

/-! # Only the set of separators matters

A setting is looked up by membership, so its order and repetitions and the blanks in it are never
seen. Two engines whose separators are written in different ways do the same on every host.
-/

namespace ModalEditor

namespace Separators

variable {a b : Separators}

/-- The settings mention the same characters, blanks aside. -/
def SameSet (a b : Separators) : Prop :=
  ∀ c, c ≠ ' ' → c ≠ '\t' → (c ∈ a ↔ c ∈ b)

theorem sameSet_refl (a : Separators) : a.SameSet a :=
  fun _ _ _ => Iff.rfl

theorem classOf_of_sameSet (same : a.SameSet b) (c : Char) : a.classOf c = b.classOf c := by
  by_cases blank : c = ' ' ∨ c = '\t'
  · simp only [classOf, blank, if_true]
  · obtain ⟨space, tab⟩ := not_or.mp blank
    exact classOf_congr (same c space tab)

theorem clusterClass_of_sameSet (same : a.SameSet b) : a.clusterClass = b.clusterClass := by
  funext g
  cases g with
  | nil => rfl
  | cons c rest => exact classOf_of_sameSet same c

end Separators

open Separators

section Commands

variable {a b : Separators} (same : a.SameSet b)

include same

theorem Motion.classes_of_sameSet (page : Page) (l : Nat) :
    classes page a l = classes page b l := by
  rw [classes, classes, clusterClass_of_sameSet same]

theorem Motion.step_of_sameSet (page : Page) (m : Motion) (place : Place) :
    m.step page a place = m.step page b place := by
  cases m with
  | nextWordStart => simp only [step, wordStart, classes_of_sameSet same]
  | nextWordEnd => simp only [step, wordEnd, classes_of_sameSet same]
  | left | right | up | down | lineStart | lineEnd => rfl

theorem Motion.walk_of_sameSet (page : Page) (m : Motion) (times : Nat) (place : Place) :
    m.walk page a times place = m.walk page b times place := by
  induction times generalizing place with
  | zero => rfl
  | succ times ih => simp only [walk, step_of_sameSet same, ih]

end Commands

theorem Command.effect?_of_sameSet (view : View) {b : Separators}
    (same : view.separators.SameSet b) (command : Command) :
    command.effect? { view with separators := b } = command.effect? view := by
  have reach : ∀ stride, ({ view with separators := b } : View).reach stride = view.reach stride :=
    fun stride => (Motion.walk_of_sameSet same ..).symm
  cases command with
  | move stride => simp only [effect?, reach]
  | append | appendAtEnd => simp only [effect?, reach]
  | delete target | change target =>
    cases target with
    | stride stride =>
      simp only [effect?, reach]
      rfl
    | lines count => rfl
  | insert | put count | replace g count => rfl

namespace Session

variable {β : Type} [Host β] {s : Session β} {b : Separators}

/-! ## Writing the separators anew -/

theorem settle_setSeparators (b : Separators) (s : Session β) :
    (s.setSeparators b).settle = s.settle.setSeparators b := by
  simp only [setSeparators, engine_settle]
  exact settle_with rfl

theorem commit_setSeparators (b : Separators) (effect : Effect) (s : Session β) :
    (s.setSeparators b).commit effect = (s.commit effect).setSeparators b := by
  by_cases inserts : effect.inserts = true
  · by_cases already : s.engine.mode = .insert <;>
      simp [commit, setSeparators, Engine.enter, inserts, already]
  · simp [commit, setSeparators, inserts]

theorem apply_setSeparators (b : Separators) (effect : Effect) (s : Session β) :
    (s.setSeparators b).apply effect = (s.apply effect).map id (setSeparators b) := by
  have commit := fun s : Session β =>
    congrArg (Prod.mk (none : Option Failure)) (commit_setSeparators b effect s)
  unfold apply
  cases effect.edit with
  | none => exact commit { s with engine := { s.engine with aim := effect.aim } }
  | some edit =>
    simp only [perform, setSeparators]
    rcases Host.perform edit s.host with ⟨_ | why, host⟩
    · exact commit ⟨{ s.engine with aim := effect.aim }, host⟩
    · rfl

theorem run_setSeparators (same : s.engine.separators.SameSet b) (parse : Parse Command) :
    (s.setSeparators b).run parse = (s.run parse).map id (setSeparators b) := by
  unfold run
  cases parse with
  | needsMore | invalid => rfl
  | complete command =>
    have effect : command.effect? (s.setSeparators b).view = command.effect? s.view :=
      Command.effect?_of_sameSet s.view same command
    simp only [effect]
    cases command.effect? s.view with
    | none => rfl
    | some effect =>
      simp only [apply_setSeparators]
      rcases s.apply effect with ⟨_ | why, t⟩
      · rfl
      · rfl

theorem press_setSeparators (same : s.engine.separators.SameSet b) (g : Cluster) :
    (s.setSeparators b).press g = (s.press g).map id (setSeparators b) := by
  let extended : Session β := { s with engine := s.engine.extend g }
  have reading : (s.setSeparators b).reading g = s.reading g := rfl
  have extends' : ({ s.setSeparators b with engine := (s.setSeparators b).engine.extend g } :
      Session β) = extended.setSeparators b := rfl
  have ran := run_setSeparators (s := extended) same (s.reading g)
  simp only [press, obey, reading, extends', ran]
  rcases extended.run (s.reading g) with ⟨why | outcome, t⟩
  · rfl
  · cases outcome <;> rfl

theorem separators_press (g : Cluster) (s : Session β) :
    (s.press g).2.engine.separators = s.engine.separators := by
  -- Writing them as they are written changes nothing, before the cluster or after it.
  have pressed := press_setSeparators (s := s) (sameSet_refl _) g
  exact congrArg (fun result => result.2.engine.separators) pressed

theorem feed_setSeparators (same : s.engine.separators.SameSet b) (gs : List Cluster) :
    (s.setSeparators b).feed gs = (s.feed gs).map id (setSeparators b) := by
  induction gs generalizing s with
  | nil => rfl
  | cons g gs ih =>
    cases hm : s.engine.mode with
    | insert =>
      rw [feed_cons_of_insert gs hm, feed_cons_of_insert (s := s.setSeparators b) gs hm]
      rfl
    | normal =>
      have pressed := press_setSeparators same g
      have kept := separators_press g s
      rcases hp : s.press g with ⟨_ | why, t⟩
      · rw [hp] at pressed kept
        rw [feed_cons_of_pressed gs hm hp,
          feed_cons_of_pressed (s := s.setSeparators b) gs hm pressed, settle_setSeparators, ih]
        rw [engine_settle, kept]
        exact same
      · rw [hp] at pressed
        rw [feed_cons_of_refused gs hm hp,
          feed_cons_of_refused (s := s.setSeparators b) gs hm pressed]
        rfl

theorem finish_setSeparators (b : Separators) (result : Option Failure × Session β) :
    finish (result.map id (setSeparators b)) = (finish result).map id (setSeparators b) := by
  rcases result with ⟨_ | why, s⟩
  · simp only [finish, Prod.map, id, settle_setSeparators]
    rfl
  · rfl

end Session

/-! ## Runs -/

variable {β : Type}

namespace Event

inductive Respelled : Event β → Event β → Prop
  | same (event : Event β) : Respelled event event
  | separators {a b : Separators} : a.SameSet b →
      Respelled (.setSeparators a) (.setSeparators b)

variable [Host β] {s : Session β} {b : Separators}

theorem run_setSeparators (same : s.engine.separators.SameSet b) {event : Event β}
    (other : ∀ a, event ≠ .setSeparators a) :
    event.run (s.setSeparators b) = (event.run s).map id (Session.setSeparators b) := by
  cases event with
  | typeText text =>
    simp only [run, Session.typeText, Session.feed_setSeparators same,
      Session.finish_setSeparators]
    rfl
  | retype text count =>
    have mode : (s.setSeparators b).engine.mode = s.engine.mode := rfl
    simp only [run, Session.retype, mode]
    cases s.engine.mode with
    | normal =>
      exact congrArg (Prod.map Answer.ofReply id) (Session.finish_setSeparators b (none, s))
    | insert =>
      exact congrArg (Prod.map Answer.ofReply id)
        (Session.finish_setSeparators b (s.perform (.retype text count)))
  | toNormalMode =>
    have entered : ({ s.setSeparators b with
        engine := (s.setSeparators b).engine.enter .normal } : Session β) =
        ({ s with engine := s.engine.enter .normal } : Session β).setSeparators b := by
      by_cases already : s.engine.mode = .normal <;>
        simp [Session.setSeparators, Engine.enter, already]
    simp only [run, Session.toNormalMode, entered, Session.settle_setSeparators]
    rfl
  | clearInput => rfl
  | settle => exact congrArg (Prod.mk _) (Session.settle_setSeparators b s)
  | setSeparators a => exact absurd rfl (other a)
  | operate op count argument =>
    have ran := Session.run_setSeparators same (op.parse count argument)
    exact congrArg (Prod.map Answer.ofResolution id) ran
  | change f => rfl

theorem separators_run {event : Event β} (other : ∀ a, event ≠ .setSeparators a) (s : Session β) :
    (event.run s).2.engine.separators = s.engine.separators := by
  have ran := run_setSeparators (s := s) (Separators.sameSet_refl _) other
  exact congrArg (fun result => result.2.engine.separators) ran

end Event

/-- The sessions differ in how their separators are written, and in nothing else. -/
structure Session.Respelled (s t : Session β) : Prop where
  host : t.host = s.host
  engine : t.engine = { s.engine with separators := t.engine.separators }
  same : s.engine.separators.SameSet t.engine.separators

namespace Session.Respelled

variable {s t : Session β}

theorem of_setSeparators {b : Separators} (same : s.engine.separators.SameSet b) :
    s.Respelled (s.setSeparators b) :=
  ⟨rfl, rfl, same⟩

theorem eq_setSeparators (h : s.Respelled t) : t = s.setSeparators t.engine.separators := by
  obtain ⟨engine, host⟩ := t
  obtain ⟨rfl, same, -⟩ := h
  rw [setSeparators]
  exact congrArg (Session.mk · s.host) same

variable [Host β] {event event' : Event β}

/-- One event keeps the sessions the same and has the same answer. -/
theorem run (h : s.Respelled t) (respelled : event.Respelled event') :
    (event'.run t).1 = (event.run s).1 ∧ (event.run s).2.Respelled (event'.run t).2 := by
  rw [h.eq_setSeparators]
  cases respelled with
  | @separators a b same => exact ⟨rfl, rfl, rfl, same⟩
  | same =>
    by_cases written : ∃ a, event = .setSeparators a
    · obtain ⟨a, rfl⟩ := written
      exact ⟨rfl, rfl, rfl, Separators.sameSet_refl a⟩
    · have other : ∀ a, event ≠ .setSeparators a := fun a ha => written ⟨a, ha⟩
      rw [Event.run_setSeparators h.same other]
      refine ⟨rfl, of_setSeparators ?_⟩
      rw [Event.separators_run other]
      exact h.same

theorem history {events events' : List (Event β)} (h : s.Respelled t)
    (respelled : List.Forall₂ Event.Respelled events events') :
    List.Forall₂ (fun step step' => step'.1 = step.1 ∧ step.2.Respelled step'.2)
      (history events s) (history events' t) := by
  induction respelled generalizing s t with
  | nil => exact .nil
  | cons first _ ih =>
    have ran := h.run first
    exact .cons ran (ih ran.2)

end Session.Respelled

/-- Only the set of separators matters, however they are written. -/
theorem history_of_sameSet {β : Type} [Host β] (mode : Mode) (a b : Separators) (same : a.SameSet b)
    (host : β) (events events' : List (Event β))
    (respelled : List.Forall₂ Event.Respelled events events') :
    (∀ c, a.store.classOf c = b.store.classOf c) ∧
      List.Forall₂ (fun step step' => step'.1 = step.1 ∧ step.2.Respelled step'.2)
        (history events ⟨.ofConfig ⟨mode, a⟩, host⟩)
        (history events' ⟨.ofConfig ⟨mode, b⟩, host⟩) := by
  have start : Session.Respelled (⟨.ofConfig ⟨mode, a⟩, host⟩ : Session β)
      ⟨.ofConfig ⟨mode, b⟩, host⟩ := .of_setSeparators same
  refine ⟨?_, start.history respelled⟩
  intro c
  rw [classOf_store, classOf_store, classOf_of_sameSet same]

theorem history_of_reordered_separators :
    let a : Separators := "ü.é".toList
    let b : Separators := " é.é\tü".toList
    let host : Recorder :=
      { buffer := .ofText "one.twoüéü x,yéz".toList .zero, planned := some ⟨2, .readOnly⟩ }
    let events (later : Separators) : List (Event Recorder) := [.typeText "dwdw".toList,
      .typeText "cw".toList, .setSeparators later, .operate .change 1 "2e".toList,
      .typeText "-".toList, .toNormalMode]
    let s (separators : Separators) : Session Recorder := ⟨.ofConfig ⟨.normal, separators⟩, host⟩
    a.store ≠ b.store ∧
      (afterEvents (events "x,".toList) (s a)).host.buffer.document.text = "-yéz".toList ∧
      a.SameSet b ∧ List.Forall₂ Event.Respelled (events "x,".toList) (events ",x,".toList) ∧
      (∀ c, a.store.classOf c = b.store.classOf c) ∧
      List.Forall₂ (fun step step' => step'.1 = step.1 ∧ step.2.Respelled step'.2)
        (history (events "x,".toList) (s a)) (history (events ",x,".toList) (s b)) := by
  intro a b host events s
  have same : a.SameSet b := by
    intro c space tab
    show c ∈ ['ü', '.', 'é'] ↔ c ∈ [' ', 'é', '.', 'é', '\t', 'ü']
    simp only [List.mem_cons, List.not_mem_nil, or_false]
    tauto
  have later : Separators.SameSet "x,".toList ",x,".toList := by
    intro c _ _
    show c ∈ ['x', ','] ↔ c ∈ [',', 'x', ',']
    simp only [List.mem_cons, List.not_mem_nil, or_false]
    tauto
  have respelled : List.Forall₂ Event.Respelled (events "x,".toList) (events ",x,".toList) :=
    .cons (.same _) <| .cons (.same _) <| .cons (.separators later) <| .cons (.same _) <|
      .cons (.same _) <| .cons (.same _) .nil
  exact ⟨by decide +kernel, by decide +kernel, same, respelled,
    history_of_sameSet .normal a b same host _ _ respelled⟩

end ModalEditor
