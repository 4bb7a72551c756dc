import ModalEditor.Proofs.Pressing
import ModalEditor.Proofs.Recording

/-! # Refused edits

A command asks its host for one edit at most, and before anything but the remembered column has
changed. So a refusal undoes nothing: it ends the call where the clusters before it had led.
-/

namespace ModalEditor.Session

/-- The session takes the clusters as keys one after the other, none of them is refused, and the
second session is where they lead. -/
inductive Interprets {β : Type} [Host β] : List Cluster → Session β → Session β → Prop
  | nothing {s : Session β} : Interprets [] s s
  | cluster {g : Cluster} {gs : List Cluster} {s t u : Session β} : s.engine.mode = .normal →
      s.press g = (none, t) → Interprets gs t.settle u → Interprets (g :: gs) s u

/-- The edit that the next of some clusters has the host make: that of the command which the cluster
completes or, in insert mode, the typing of them all. -/
def Asks {β : Type} [Host β] (gs : List Cluster) (edit : Edit) (s : Session β) : Prop :=
  match gs with
  | [] => False
  | g :: rest =>
    match s.engine.mode with
    | .insert => edit = .typeIn (g :: rest).flatten
    | .normal => ∃ command effect, s.reading g = .complete command ∧
        command.effect? s.view = some effect ∧ effect.edit = some edit

/-- A call that fails does so at one edit, after clusters that were taken as keys. -/
theorem feed_refused {β : Type} [Host β] {s t : Session β} {gs : List Cluster} {why : Failure}
    (h : s.feed gs = (some why, t)) :
    ∃ done rest u edit, gs = done ++ rest ∧ s.Interprets done u ∧ u.Asks rest edit ∧
      Host.perform edit u.host = (some why, t.host) ∧
      t.engine.abandon = { u.engine with aim := t.engine.aim, pending := [], beeps := 0 } := by
  induction gs generalizing s with
  | nil => cases h
  | cons g gs ih =>
    cases hm : s.engine.mode with
    | insert =>
      rw [feed_cons_of_insert gs hm, perform] at h
      obtain ⟨refused, rfl⟩ := Prod.mk.inj h
      refine ⟨[], g :: gs, s, .typeIn (g :: gs).flatten, rfl, .nothing, ?_, ?_, rfl⟩
      · simp only [Asks, hm]
      · exact Prod.ext refused rfl
    | normal =>
      rcases hp : s.press g with ⟨_ | why', v⟩
      · rw [feed_cons_of_pressed gs hm hp] at h
        obtain ⟨done, rest, u, edit, rfl, before, asks, refused, engine⟩ := ih h
        exact ⟨g :: done, rest, u, edit, rfl, .cluster hm hp before, asks, refused, engine⟩
      · rw [feed_cons_of_refused gs hm hp] at h
        cases h
        cases Pressed.of_eq hp with
        | @refused _ command effect edit host _ hr he hedit refused ht =>
          rw [ht]
          refine ⟨[], g :: gs, s, edit, rfl, .nothing, ?_, refused, rfl⟩
          simp only [Asks, hm]
          exact ⟨command, effect, hr, he, hedit⟩

theorem edits_carryOut (effect : Effect) (host : Recorder) (s : Session Recorder) :
    (s.carryOut effect host).host.edits = host.edits := by
  rw [host_carryOut]
  split <;> rfl

/-- A cluster has the host make one edit at most. -/
theorem edits_press (g : Cluster) (s : Session Recorder) :
    (s.press g).2.host.edits = s.host.edits ∨
      ∃ edit, (s.press g).2.host.edits = s.host.edits ++ [edit] := by
  rcases hp : s.press g with ⟨failure, t⟩
  cases Pressed.of_eq hp with
  | waits _ ht | unread _ ht | unable _ _ ht => exact .inl (by rw [ht])
  | unedited _ _ _ ht => exact .inl (by rw [ht, edits_carryOut])
  | @edited _ _ _ edit host _ _ _ made ht =>
    exact .inr ⟨edit, by rw [ht, edits_carryOut, ← Recorder.edits_perform, made]⟩
  | @refused _ _ _ edit host _ _ _ _ refused ht =>
    exact .inr ⟨edit, by rw [ht, ← Recorder.edits_perform, refused]⟩

/-- A call that fails answers with the refusal of one edit and leaves everything where the clusters
before that edit had led. -/
theorem typeText_refused (s : Session Recorder) (text : Text) :
    (∀ (g : Cluster) (u : Session Recorder), (u.press g).2.host.edits = u.host.edits ∨
      ∃ edit, (u.press g).2.host.edits = u.host.edits ++ [edit]) ∧
    ∀ (why : Failure) (t : Session Recorder), s.typeText text = (.error why, t) →
      ∃ done rest u edit, clusters text = done ++ rest ∧ s.Interprets done u ∧ u.Asks rest edit ∧
        Host.perform edit u.host = (some why, t.host) ∧
        t.host.buffer = u.host.buffer ∧ t.host.edits = u.host.edits ++ [edit] ∧
        t.engine = { u.engine with aim := t.engine.aim, pending := [], beeps := 0 } := by
  refine ⟨edits_press, fun why t h => ?_⟩
  unfold typeText at h
  rcases hf : s.feed (clusters text) with ⟨_ | why', v⟩
  · rw [hf] at h
    cases (Prod.mk.inj h).1
  · rw [hf] at h
    cases h
    obtain ⟨done, rest, u, edit, split, before, asks, refused, engine⟩ := feed_refused hf
    refine ⟨done, rest, u, edit, split, before, asks, refused,
      (Recorder.buffer_of_refused refused).1, ?_, engine⟩
    rw [← Recorder.edits_perform, refused]

theorem typeText_refused_third_edit :
    let s : Session Recorder :=
      ⟨.ofConfig {},
        { buffer := .ofText "one two three".toList .zero, planned := some ⟨2, .readOnly⟩ }⟩
    let t := (s.typeText "xdwcwab".toList).2
    s.typeText "xdwcwab".toList = (.error (.refused .readOnly), t) ∧
      t.engine.mode = .normal ∧ t.host.buffer.document.text = "two three".toList ∧
      ∃ done rest u edit, clusters "xdwcwab".toList = done ++ rest ∧ s.Interprets done u ∧
        u.Asks rest edit ∧ Host.perform edit u.host = (some (.refused .readOnly), t.host) ∧
        t.host.buffer = u.host.buffer ∧ t.host.edits = u.host.edits ++ [edit] ∧
        t.engine = { u.engine with aim := t.engine.aim, pending := [], beeps := 0 } :=
  ⟨rfl, rfl, rfl, (typeText_refused _ _).2 _ _ rfl⟩

end ModalEditor.Session
